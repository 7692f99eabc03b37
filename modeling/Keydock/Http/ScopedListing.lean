import Keydock.Http.KeyListing

/-!
# Listings within a scope

For a scoped identity the scan runs under one prefix, made of the scope and the
requested prefix.  The rows it gives are those that the administrator would be
given by a store that holds nothing of the bucket but the keys under both.
Order, skip and limit are therefore applied to the intersection, whatever else
is stored and whether or not it decodes.
-/

namespace Keydock

open Effect Handler

/-- The rows whose storage key belongs to a key of the bucket. -/
def Named (bucket : BucketId) (row : Bytes × Bytes) : Bool :=
  (userKeyFromStorageKey row.1 bucket).isSome

/-! ## The loops see only the named rows -/

namespace FjallStore

variable {bucket : BucketId} (opts : ListOpts) (start : Option Bytes)

theorem listRow_of_not_named {row : Bytes × Bytes} (unnamed : Named bucket row = false) :
    listRow bucket opts (.ok row) = .ok none := by
  have nothing : userKeyFromStorageKey row.1 bucket = none :=
    Option.isNone_iff_eq_none.mp (Option.isSome_eq_false_iff.mp unnamed)
  simp only [listRow, nothing]

theorem listForward_of_enough {skipRemaining taken : Nat} (enough : opts.limit.toNat ≤ taken) (out : List ListEntry)
    (rows : List Row) : listForward bucket opts skipRemaining taken out rows = .ok out := by
  cases rows with
  | nil => rfl
  | cons row rest => rw [listForward, if_pos enough]

/-- The forward loop passes over unnamed rows, and the prefix of the scan is no
concern of it. -/
theorem listForward_named (rows : List (Bytes × Bytes)) (skipRemaining taken : Nat) (out : List ListEntry) :
    listForward bucket opts skipRemaining taken out (rows.map .ok) =
      listForward bucket { opts with keyPrefix := start } skipRemaining taken out
        ((rows.filter (Named bucket)).map .ok) := by
  induction rows generalizing skipRemaining taken out with
  | nil => rfl
  | cons row rest ih =>
      by_cases enough : opts.limit.toNat ≤ taken
      · rw [listForward_of_enough opts enough, listForward_of_enough { opts with keyPrefix := start } enough]
      · rw [List.map_cons, listForward, if_neg enough]
        cases named : Named bucket row with
        | false =>
            rw [List.filter_cons_of_neg (by rw [named]; exact Bool.false_ne_true), listRow_of_not_named opts named]
            exact ih skipRemaining taken out
        | true =>
            have same : listRow bucket { opts with keyPrefix := start } (.ok row) = listRow bucket opts (.ok row) := rfl
            rw [List.filter_cons_of_pos named, List.map_cons, listForward, if_neg enough, same]
            cases listRow bucket opts (.ok row) with
            | error error => rfl
            | ok shown =>
                cases shown with
                | none => exact ih skipRemaining taken out
                | some entry => simp only [ih]

/-- The reverse loop does the same. -/
theorem listReverse_named (window : Nat) (rows : List (Bytes × Bytes)) (deque : List ListEntry) :
    listReverse bucket opts window deque (rows.map .ok) =
      listReverse bucket { opts with keyPrefix := start } window deque
        ((rows.filter (Named bucket)).map .ok) := by
  induction rows generalizing deque with
  | nil => rfl
  | cons row rest ih =>
      rw [List.map_cons, listReverse]
      cases named : Named bucket row with
      | false =>
          rw [List.filter_cons_of_neg (by rw [named]; exact Bool.false_ne_true), listRow_of_not_named opts named]
          exact ih deque
      | true =>
          have same : listRow bucket { opts with keyPrefix := start } (.ok row) = listRow bucket opts (.ok row) := rfl
          rw [List.filter_cons_of_pos named, List.map_cons, listReverse, same]
          cases listRow bucket opts (.ok row) with
          | error error => rfl
          | ok shown =>
              cases shown with
              | none => exact ih deque
              | some entry => exact ih _

variable (bucket) in
theorem listRows_named (platform : Platform) (rows : List (Bytes × Bytes)) :
    listRows platform bucket opts (rows.map .ok) =
      listRows platform bucket { opts with keyPrefix := start } ((rows.filter (Named bucket)).map .ok) := by
  simp only [listRows, listForward_named opts start, listReverse_named opts start]

end FjallStore

/-! ## The rows under both prefixes -/

/-- The store without the keys of the bucket that fail a test. -/
def Store.restrictedTo (store : Store) (bucket : BucketId) (keep : Key -> Bool) : Store :=
  { store with data := store.data.filter (fun storageKey _ => (userKeyFromStorageKey storageKey bucket).all keep) }

/-- The key starts with the scope and with the requested prefix. -/
def inBoth (scope : Bytes) (requested : Option Bytes) (key : Key) : Bool :=
  scope.isPrefixOf key.asBytes && (requested.getD []).isPrefixOf key.asBytes

section Rows

variable (store : Store) (bucket : BucketId) {scope : Bytes} {requested start : Option Bytes}

/-- A scan under the intersection finds the keys that a scan of the whole
bucket finds when no others are stored. -/
theorem scan_restrictedTo
    (narrowed : forall bytes : Bytes, start.getD [] <+: bytes ↔ scope <+: bytes ∧ requested.getD [] <+: bytes) :
    (store.data.scan (dataKeyPrefix bucket start)).filter (Named bucket) =
      ((store.restrictedTo bucket (inBoth scope requested)).data.scan (dataKeyPrefix bucket none)).filter
        (Named bucket) := by
  rw [Store.restrictedTo, Keyspace.scan_filter]
  simp only [Keyspace.scan, List.filter_filter]
  refine List.filter_congr (fun row _ => ?_)
  unfold Named
  cases named : userKeyFromStorageKey row.1 bucket with
  | none => rfl
  | some key =>
      rw [userKeyFromStorageKey_eq_some.mp named, Bool.eq_iff_iff]
      simp only [Bool.and_eq_true, List.isPrefixOf_iff_prefix, prefix_dataStorageKey, Option.isSome_some,
        Option.all_some, inBoth, narrowed key.asBytes, Option.getD_none, List.nil_prefix, and_true, true_and]

/-- Nothing of the bucket is left when no key is under both. -/
theorem scan_restrictedTo_of_incompatible (incompatible : combineScopedPrefix scope requested = none) :
    ((store.restrictedTo bucket (inBoth scope requested)).data.scan (dataKeyPrefix bucket none)).filter
      (Named bucket) = [] := by
  rw [Store.restrictedTo, Keyspace.scan_filter, List.filter_filter, List.filter_eq_nil_iff]
  intro row _ shown
  rcases Bool.and_eq_true_iff.mp shown with ⟨named, kept⟩
  rcases Option.isSome_iff_exists.mp named with ⟨key, parsed⟩
  simp only [parsed, Option.all_some, inBoth, Bool.and_eq_true, List.isPrefixOf_iff_prefix] at kept
  exact (combineScopedPrefix_eq_none_iff scope requested).mp incompatible ⟨key.asBytes, kept⟩

theorem listRows_nil (platform : Platform) (opts : ListOpts) :
    FjallStore.listRows platform bucket opts [] = (bufferOf platform opts).map (fun _ => []) := by
  have rows : FjallStore.listRows platform bucket opts [] =
      (bufferOf platform opts).map (fun _ => selected opts []) :=
    @listRows_of_decodes platform bucket opts ∅ (fun _ member => False.elim (List.not_mem_nil member))
  rw [rows, selected]
  simp

variable (platform : Platform) (now : OffsetDateTime) (params : ListBucketParams)

theorem listAnswer_restrictedTo
    (narrowed : forall bytes : Bytes, start.getD [] <+: bytes ↔ scope <+: bytes ∧ requested.getD [] <+: bytes) :
    store.listAnswer platform now bucket (params.input start) =
      (store.restrictedTo bucket (inBoth scope requested)).listAnswer platform now bucket (params.input none) := by
  have here := FjallStore.listRows_named bucket (KeyService.listOpts now (params.input start)) none platform
    (store.data.scan (dataKeyPrefix bucket start))
  have there := FjallStore.listRows_named bucket (KeyService.listOpts now (params.input none)) none platform
    ((store.restrictedTo bucket (inBoth scope requested)).data.scan (dataKeyPrefix bucket none))
  rw [scan_restrictedTo store bucket narrowed] at here
  exact here.trans there.symm

theorem listAnswer_of_incompatible (incompatible : combineScopedPrefix scope requested = none) :
    (store.restrictedTo bucket (inBoth scope requested)).listAnswer platform now bucket (params.input none) =
      (bufferOf platform (KeyService.listOpts now (params.input none))).map (fun _ => []) := by
  have rows := FjallStore.listRows_named bucket (KeyService.listOpts now (params.input none)) none platform
    ((store.restrictedTo bucket (inBoth scope requested)).data.scan (dataKeyPrefix bucket none))
  rw [scan_restrictedTo_of_incompatible store bucket incompatible] at rows
  exact rows.trans (listRows_nil bucket platform _)

end Rows

/-! ## Scoped answers -/

/-- The rows listed under a scope are those of the administrator's listing
of a store with no other keys, in the same order and with the same skip and
limit, and so is the answer.  Scope and request are incompatible exactly when
nothing starts with both, and then the listing is empty. -/
theorem scoped_listing_is_intersection (state : AppState) (clock : Clock) (auth : BucketAuth)
    (permissions : Permission) (scope : Bytes) (params : ListBucketParams) (accept : Option Bytes) (store : Store)
    (allowed : permissions.enumerate = true) :
    let requested := params.keyPrefix.map Bytes.utf8
    let intersection := store.restrictedTo auth.bucketId (inBoth scope requested)
    let scopedAnswer := (eval state.platform (listBucket state clock
      { auth with identity := .scoped permissions scope } (.ok params) accept) store).1
    let adminAnswer := (eval state.platform (listBucket state clock
      { auth with identity := .admin } (.ok { params with keyPrefix := none }) accept) intersection).1
    (combineScopedPrefix scope requested = none ↔
      ¬Exists fun bytes : Bytes => scope <+: bytes ∧ requested.getD [] <+: bytes) ∧
    (forall combined, combineScopedPrefix scope requested = some combined ->
      store.listAnswer state.platform (clock 1) auth.bucketId (params.input (some combined)) =
        intersection.listAnswer state.platform (clock 1) auth.bucketId (params.input none) ∧
      scopedAnswer = adminAnswer) ∧
    (combineScopedPrefix scope requested = none ->
      scopedAnswer = (do
        let format <- resolveListFormat params accept
        listResponse state.platform format [] (params.values.getD false)) ∧
      (bufferOf state.platform (KeyService.listOpts (clock 1) (params.input none)) = .ok () ->
        intersection.listAnswer state.platform (clock 1) auth.bucketId (params.input none) = .ok [])) := by
  intro requested intersection scopedAnswer adminAnswer
  have permitted : ({ auth with identity := .scoped permissions scope } : BucketAuth).requireEnumerate = .ok () :=
    if_pos allowed
  have evaluated : scopedAnswer = listAnswer state (clock 1) { auth with identity := .scoped permissions scope }
      (.ok params) accept store := congrArg Prod.fst (eval_listBucket ..)
  refine ⟨combineScopedPrefix_eq_none_iff scope requested, ?_, ?_⟩
  · intro combined made
    refine ⟨listAnswer_restrictedTo store auth.bucketId state.platform (clock 1) params
      (prefix_iff_of_combineScopedPrefix made), ?_⟩
    have asked : adminAnswer = listAnswer state (clock 1) { auth with identity := .admin }
        (.ok { params with keyPrefix := none }) accept intersection := congrArg Prod.fst (eval_listBucket ..)
    rw [evaluated, asked]
    cases narrowed : prefixForRepo (.scoped permissions scope) params.keyPrefix with
    | none =>
        rw [(prefixForRepo_eq_none_iff permissions scope params.keyPrefix).mp narrowed] at made
        cases made
    | some keyPrefix =>
        have rows := listAnswer_restrictedTo store auth.bucketId state.platform (clock 1) params
          (prefix_iff_of_prefixForRepo narrowed)
        simp only [listAnswer, bind, Except.bind, permitted, narrowed, rows]
        rfl
  · intro incompatible
    have narrowed := (prefixForRepo_eq_none_iff permissions scope params.keyPrefix).mpr incompatible
    refine ⟨?_, ?_⟩
    · rw [evaluated]
      simp only [listAnswer, bind, Except.bind, permitted, narrowed]
    · intro allocates
      rw [listAnswer_of_incompatible store auth.bucketId state.platform (clock 1) params incompatible, allocates]
      rfl

open ExpiredRemoval in
/-- A token for the keys under `k` that asks for all keys lists the fresh key
`k`, as the administrator would. -/
theorem scoped_listing_of_fresh_key :
    let auth := BucketAuth.ofPolicy id.bucketId policy .anonymous
    let params : ListBucketParams := ⟨some "", none, none, some true, some true, some "json"⟩
    let intersection := (storeAfter state history).restrictedTo id.bucketId (inBoth [0x6B] (some []))
    (eval state.platform (listBucket state (fun _ => start)
        { auth with identity := .scoped ⟨false, false, true, false⟩ [0x6B] } (.ok params) none)
        (storeAfter state history)).1 =
      (eval state.platform (listBucket state (fun _ => start)
        { auth with identity := .admin } (.ok { params with keyPrefix := none }) none) intersection).1 ∧
    intersection.listAnswer state.platform start id.bucketId (params.input none) =
      .ok [⟨⟨[0x6B], by decide⟩, some ⟨[0x68, 0x69], .utf8, by decide⟩⟩] := by
  intro auth params intersection
  have combined := (scoped_listing_is_intersection state (fun _ => start) auth ⟨false, false, true, false⟩ [0x6B] params
    none (storeAfter state history) rfl).2.1 [0x6B] (by decide)
  refine ⟨combined.2, combined.1.symm.trans ?_⟩
  decide +kernel

end Keydock
