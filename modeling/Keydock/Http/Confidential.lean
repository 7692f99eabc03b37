import Keydock.Http.Reads

/-!
# What reads disclose

Two stores that agree on everything an identity may read are compared through
the answers of the reading routes.  The answers are the same for every
identity except a token that may enumerate but not read: the listing checks
the first permission only and returns payloads on request.
-/

namespace Keydock

open Effect Handler

/-- Two entries with the same expiry, and with the same value if it may be
read. -/
def SameEntry (readable : Prop) : Option Bytes -> Option Bytes -> Prop
  | none, none => True
  | some left, some right =>
      Exists fun leftValue => Exists fun rightValue => Exists fun expiresAt =>
        left = entryBytes leftValue expiresAt ∧ right = entryBytes rightValue expiresAt ∧
          (readable -> leftValue = rightValue)
  | _, _ => False

/-- The stores hold the same keys of the bucket with the same expiry, and the
same values of the keys the identity may read. -/
def AgreeFor (auth : BucketAuth) (left right : Store) : Prop :=
  forall key : Key, SameEntry (auth.requireReadOn key = .ok ())
    left.data[dataStorageKey auth.bucketId key]? right.data[dataStorageKey auth.bucketId key]?

namespace Route

/-- A read or a listing of keys. -/
def IsRead : Route -> Prop
  | .getKey _ | .headKey _ | .listBucket _ _ => True
  | _ => False

/-- The response of a route under an identity. -/
def answer (state : AppState) (clock : Clock) (bucket : Segment) (auth : BucketAuth) (route : Route)
    (store : Store) : Response :=
  outcome (eval state.platform (route.serve state clock bucket auth) store).1

end Route

/-- No read made under the identity tells apart two stores that agree for it. -/
def Confidential (state : AppState) (auth : BucketAuth) : Prop :=
  forall left right, AgreeFor auth left right ->
    forall route : Route, route.IsRead -> forall (clock : Clock) (bucket : Segment),
      route.answer state clock bucket auth left = route.answer state clock bucket auth right

/-- A token for keys that exist, with the permission to enumerate but not to
read. -/
def EnumeratesUnread : ResolvedIdentity -> Prop
  | .scoped permissions keyPrefix =>
      permissions.enumerate = true ∧ permissions.read = false ∧ keyPrefix.length ≤ maxKeyBytes
  | _ => False

/-! ## Reads of one key -/

section Agreement

variable {auth : BucketAuth} {left right : Store}

theorem AgreeFor.bytes (agree : AgreeFor auth left right) {key : Key} (readable : auth.requireReadOn key = .ok ()) :
    left.data[dataStorageKey auth.bucketId key]? = right.data[dataStorageKey auth.bucketId key]? := by
  have same := agree key
  generalize left.data[dataStorageKey auth.bucketId key]? = leftFound at same ⊢
  generalize right.data[dataStorageKey auth.bucketId key]? = rightFound at same ⊢
  cases leftFound <;> cases rightFound
  · rfl
  · exact False.elim same
  · exact False.elim same
  · rcases same with ⟨leftValue, rightValue, expiresAt, rfl, rfl, equal⟩
    rw [equal readable]

theorem AgreeFor.keyAnswer (agree : AgreeFor auth left right) (now : OffsetDateTime) (bucket key : Segment)
    (render : StoredValue -> Response) :
    keyAnswer now auth bucket key render left = keyAnswer now auth bucket key render right := by
  refine bind_congr_of_ok (fun raw _ => ?_)
  refine bind_congr_of_ok (fun key _ => ?_)
  refine bind_congr_of_ok (fun _ readable => ?_)
  simp only [Store.liveEntry, agree.bytes readable]

/-! ## Listings -/

/-- Every row of the bucket decodes. -/
theorem AgreeFor.decodes (agree : AgreeFor auth left right) (opts : ListOpts) {row : Bytes × Bytes}
    (present : left.data[row.1]? = some row.2) : FjallStore.Decodes auth.bucketId opts row := by
  cases parsed : userKeyFromStorageKey row.1 auth.bucketId with
  | none =>
      unfold FjallStore.Decodes FjallStore.visible
      simp only [FjallStore.listRow, parsed]
  | some key =>
      have same := agree key
      rw [← userKeyFromStorageKey_eq_some.mp parsed, present] at same
      generalize right.data[row.1]? = rightFound at same
      cases rightFound with
      | none => exact False.elim same
      | some bytes =>
          rcases same with ⟨leftValue, _, expiresAt, coded, _, _⟩
          exact IsEntry.decodes ⟨leftValue, expiresAt, coded⟩ auth.bucketId opts row.1

theorem SameEntry.symm {readable : Prop} {first second : Option Bytes} (same : SameEntry readable first second) :
    SameEntry readable second first := by
  cases first <;> cases second
  · trivial
  · exact same
  · exact same
  · rcases same with ⟨leftValue, rightValue, expiresAt, leftCoded, rightCoded, equal⟩
    exact ⟨rightValue, leftValue, expiresAt, rightCoded, leftCoded, fun readable => (equal readable).symm⟩

theorem AgreeFor.symm (agree : AgreeFor auth left right) : AgreeFor auth right left :=
  fun key => (agree key).symm

/-- The rows shown are the same when values are not asked for, or when every
key under the prefix may be read. -/
theorem AgreeFor.listed (agree : AgreeFor auth left right) (opts : ListOpts)
    (readable : opts.includeValues = true -> forall key : Key,
      dataKeyPrefix auth.bucketId opts.keyPrefix <+: dataStorageKey auth.bucketId key ->
        auth.requireReadOn key = .ok ()) :
    Keydock.listed auth.bucketId opts left.data = Keydock.listed auth.bucketId opts right.data := by
  apply Keyspace.scan_filterMap_congr (FjallStore.visible auth.bucketId opts)
  intro storageKey inside
  cases parsed : userKeyFromStorageKey storageKey auth.bucketId with
  | none =>
      have hidden : forall bytes, FjallStore.visible auth.bucketId opts storageKey bytes = none := by
        intro bytes
        simp only [FjallStore.visible, FjallStore.listRow, parsed]
      cases left.data[storageKey]? <;> cases right.data[storageKey]? <;> simp [hidden]
  | some key =>
      have named := userKeyFromStorageKey_eq_some.mp parsed
      have same := agree key
      rw [← named] at same
      generalize left.data[storageKey]? = leftFound at same ⊢
      generalize right.data[storageKey]? = rightFound at same ⊢
      cases leftFound <;> cases rightFound
      · rfl
      · exact False.elim same
      · exact False.elim same
      · rcases same with ⟨leftValue, rightValue, expiresAt, rfl, rfl, equal⟩
        simp only [Option.bind_some, visible_entryBytes, parsed, ListOpts.hides, expiresBy_entryBytes]
        cases asked : opts.includeValues with
        | false => rfl
        | true => rw [equal (readable asked key (named ▸ inside))]

theorem AgreeFor.listRows (agree : AgreeFor auth left right) (platform : Platform) (now : OffsetDateTime)
    (input : ListOptsInput)
    (readable : (KeyService.listOpts now input).includeValues = true -> forall key : Key,
      dataKeyPrefix auth.bucketId input.keyPrefix <+: dataStorageKey auth.bucketId key ->
        auth.requireReadOn key = .ok ()) :
    left.listAnswer platform now auth.bucketId input = right.listAnswer platform now auth.bucketId input := by
  have leftRows := listRows_of_decodes platform auth.bucketId (KeyService.listOpts now input)
    (fun row member => agree.decodes (KeyService.listOpts now input) (left.data.mem_scan.mp member).1)
  have rightRows := listRows_of_decodes platform auth.bucketId (KeyService.listOpts now input)
    (fun row member => agree.symm.decodes (KeyService.listOpts now input) (right.data.mem_scan.mp member).1)
  rw [agree.listed (KeyService.listOpts now input) readable] at leftRows
  exact leftRows.trans rightRows.symm

end Agreement

/-! ## Which keys a listing reaches -/

/-- Whoever may list may read what is listed, a token that enumerates without
reading excepted. -/
theorem readable_of_listed {bucketId : BucketId} {policy : BucketPolicy} {identity : ResolvedIdentity}
    (covered : ¬ EnumeratesUnread identity)
    (allowed : (BucketAuth.ofPolicy bucketId policy identity).requireEnumerate = .ok ())
    {requested : Option String} {keyPrefix : Option Bytes}
    (narrowed : prefixForRepo identity requested = some keyPrefix) {key : Key}
    (inside : dataKeyPrefix bucketId keyPrefix <+: dataStorageKey bucketId key) :
    (BucketAuth.ofPolicy bucketId policy identity).requireReadOn key = .ok () := by
  rcases identity with _ | _ | ⟨permissions, scope⟩
  · exact allowed
  · rfl
  · have inScope := ((prefix_iff_of_prefixForRepo narrowed key.asBytes).mp (prefix_dataStorageKey.mp inside)).1
    have enumerates : permissions.enumerate = true := by
      cases granted : permissions.enumerate with
      | true => rfl
      | false => simp [BucketAuth.requireEnumerate, BucketAuth.ofPolicy, granted] at allowed
    have reads : permissions.read = true := by
      cases granted : permissions.read with
      | true => rfl
      | false =>
          exact False.elim (covered ⟨enumerates, granted, inScope.length_le.trans key.bounded⟩)
    have starts : BucketAuth.isPrefixOk scope key = true := by
      rw [BucketAuth.isPrefixOk, List.isPrefixOf_iff_prefix.mpr inScope, Bool.or_true]
    simp [BucketAuth.requireReadOn, BucketAuth.ofPolicy, BucketAuth.requireScoped, reads, starts]

theorem confidential_of_covered (state : AppState) (bucketId : BucketId) (policy : BucketPolicy)
    {identity : ResolvedIdentity} (covered : ¬ EnumeratesUnread identity) :
    Confidential state (BucketAuth.ofPolicy bucketId policy identity) := by
  intro left right agree route reads clock bucket
  unfold Route.answer
  cases route with
  | getKey key => simp only [Route.serve, eval_getKey, agree.keyAnswer]
  | headKey key => simp only [Route.serve, eval_headKey, agree.keyAnswer]
  | listBucket params accept =>
      have same : listAnswer state (clock 1) (BucketAuth.ofPolicy bucketId policy identity) params accept left =
          listAnswer state (clock 1) (BucketAuth.ofPolicy bucketId policy identity) params accept right := by
        refine bind_congr_of_ok (fun params _ => ?_)
        refine bind_congr_of_ok (fun _ allowed => ?_)
        refine bind_congr_of_ok (fun format _ => ?_)
        cases narrowed : prefixForRepo (BucketAuth.ofPolicy bucketId policy identity).identity params.keyPrefix with
        | none => rfl
        | some keyPrefix =>
            have rows := agree.listRows state.platform (clock 1) (params.input keyPrefix)
              (fun _ key inside => readable_of_listed covered allowed narrowed inside)
            simp only [rows]
      simp only [Route.serve, eval_listBucket, same]
  | putKey _ _ _ _ | deleteKey _ | patchKey _ _ _ | executeTxn _ | createToken _ | updatePolicy _ | deleteBucket _
  | getBucketPolicy | headBucket => exact False.elim reads

/-! ## The listing that discloses values -/

/-- A store with one key. -/
def singleStore (bucketId : BucketId) (key : Key) (value : StoredValue) : Store :=
  Store.empty.put (dataStorageKey bucketId key) value none

/-- A listing of everything with values, as text. -/
def listingWithValues : ListBucketParams where
  keyPrefix := none
  limit := none
  skip := none
  reverse := none
  values := some true
  format := some "text"

/-- A value of one byte. -/
def digit (byte : UInt8) : StoredValue := ⟨[byte], .utf8, Nat.succ_le_of_lt (by decide)⟩

section Disclosure

variable {bucketId : BucketId} {key : Key}

/-- Without read permission any two values under the key are indistinguishable
to the reader. -/
theorem agreeFor_singleStore {auth : BucketAuth} (unread : auth.requireReadOn key ≠ .ok ()) (left right : StoredValue) :
    AgreeFor auth (singleStore auth.bucketId key left) (singleStore auth.bucketId key right) := by
  intro other
  simp only [singleStore, Store.put, Store.empty, Keyspace.get_insert, Keyspace.get_empty]
  by_cases same : dataStorageKey auth.bucketId key = dataStorageKey auth.bucketId other
  · rw [if_pos same, if_pos same]
    refine ⟨left, right, none, rfl, rfl, fun readable => ?_⟩
    rw [← dataStorageKey_key_injective same] at readable
    exact False.elim (unread readable)
  · rw [if_neg same, if_neg same]
    trivial

/-- A listing with values of a store with one key under the prefix. -/
theorem listAnswer_singleStore (platform : Platform) (now : OffsetDateTime) {keyPrefix : Option Bytes}
    (inside : keyPrefix.getD [] <+: key.asBytes) (value : StoredValue) :
    (singleStore bucketId key value).listAnswer platform now bucketId (listingWithValues.input keyPrefix) =
      .ok [⟨key, some value⟩] := by
  have scanned : (singleStore bucketId key value).data.scan (dataKeyPrefix bucketId keyPrefix) =
      [(dataStorageKey bucketId key, entryBytes value none)] := by
    have starts : dataKeyPrefix bucketId keyPrefix <+: dataStorageKey bucketId key := by
      rw [dataKeyPrefix, dataStorageKey, List.prefix_append_right_inj, List.cons_prefix_cons]
      exact ⟨rfl, inside⟩
    exact (Keyspace.scan_singleton _ _ _).trans (if_pos starts)
  have listedOne : listed bucketId (KeyService.listOpts now (listingWithValues.input keyPrefix))
      (singleStore bucketId key value).data = [⟨key, some value⟩] := by
    unfold listed
    change ((singleStore bucketId key value).data.scan (dataKeyPrefix bucketId keyPrefix)).filterMap _ = _
    have lasting : (KeyService.listOpts now (listingWithValues.input keyPrefix)).hides (entryBytes value none) =
        false := by
      simp [ListOpts.hides, KeyService.listOpts, expiresBy_entryBytes]
    rw [scanned, List.filterMap_cons, visible_entryBytes, userKeyFromStorageKey_eq_some.mpr rfl, lasting]
    rfl
  have decodes : forall row, row ∈ (singleStore bucketId key value).data.scan (dataKeyPrefix bucketId keyPrefix) ->
      FjallStore.Decodes bucketId (KeyService.listOpts now (listingWithValues.input keyPrefix)) row := by
    intro row member
    rw [scanned, List.mem_singleton] at member
    rw [member]
    exact IsEntry.decodes ⟨value, none, rfl⟩ bucketId _ _
  have rows := listRows_of_decodes platform bucketId (KeyService.listOpts now (listingWithValues.input keyPrefix))
    decodes
  rw [listedOne] at rows
  exact rows

theorem requireReadOn_scoped_unread {policy : BucketPolicy} {permissions : Permission} {scope : Bytes}
    (unread : permissions.read = false) :
    (BucketAuth.ofPolicy bucketId policy (.scoped permissions scope)).requireReadOn key = .error forbidden := by
  simp [BucketAuth.requireReadOn, BucketAuth.ofPolicy, BucketAuth.requireScoped, unread]

theorem renderListText_single (key : Key) (value : StoredValue) :
    renderListText true [⟨key, some value⟩] = .ok (Bytes.utf8 (String.ofList
      (escapeTextSegment (keyToJsonString key) ++ '=' :: escapeTextSegment (Text.fromUtf8Lossy value.payload)))) := by
  have line : renderTextRow true ⟨key, some value⟩ = .ok
      (escapeTextSegment (keyToJsonString key) ++ '=' :: escapeTextSegment (Text.fromUtf8Lossy value.payload)) := rfl
  rw [renderListText, List.mapM_cons, line, List.mapM_nil]
  simp only [bind, Except.bind, pure, Except.pure, List.intercalate, List.intersperse, List.flatten_cons,
    List.flatten_nil, List.append_nil]

theorem listAnswer_of_rows {state : AppState} {now : OffsetDateTime} {auth : BucketAuth} {params : ListBucketParams}
    {accept : Option Bytes} {store : Store} {format : ListFormat} {keyPrefix : Option Bytes}
    {entries : List ListEntry} (allowed : auth.requireEnumerate = .ok ())
    (chosen : resolveListFormat params accept = .ok format)
    (narrowed : prefixForRepo auth.identity params.keyPrefix = some keyPrefix)
    (rows : store.listAnswer state.platform now auth.bucketId (params.input keyPrefix) = .ok entries) :
    listAnswer state now auth (.ok params) accept store =
      listResponse state.platform format entries (params.values.getD false) := by
  simp only [listAnswer, bind, Except.bind, allowed, chosen, narrowed, rows, Except.mapError]

/-- The listing returns the payload to a token that may only enumerate. -/
theorem answer_listingWithValues (state : AppState) (clock : Clock) (bucket : Segment) (policy : BucketPolicy)
    {permissions : Permission} (enumerates : permissions.enumerate = true) (value : StoredValue) :
    (Route.listBucket (.ok listingWithValues) none).answer state clock bucket
        (BucketAuth.ofPolicy bucketId policy (.scoped permissions key.asBytes)) (singleStore bucketId key value) =
      Response.ofBytes "text/plain; charset=utf-8" (Bytes.utf8 (String.ofList
        (escapeTextSegment (keyToJsonString key) ++ '=' :: escapeTextSegment (Text.fromUtf8Lossy value.payload)))) := by
  have allowed : (BucketAuth.ofPolicy bucketId policy (.scoped permissions key.asBytes)).requireEnumerate = .ok () := by
    simp [BucketAuth.requireEnumerate, BucketAuth.ofPolicy, enumerates]
  have format : resolveListFormat listingWithValues none = .ok .text := by decide
  have narrowed : Exists fun keyPrefix : Option Bytes =>
      prefixForRepo (.scoped permissions key.asBytes) none = some keyPrefix ∧
        keyPrefix.getD [] <+: key.asBytes := by
    by_cases empty : key.asBytes.isEmpty = true
    · exact ⟨none, if_pos empty, List.nil_prefix⟩
    · exact ⟨some key.asBytes, if_neg empty, List.prefix_rfl⟩
  rcases narrowed with ⟨keyPrefix, repo, inside⟩
  have rows : (singleStore bucketId key value).listAnswer state.platform (clock 1) bucketId
      (listingWithValues.input keyPrefix) = .ok [⟨key, some value⟩] :=
    listAnswer_singleStore state.platform (clock 1) inside value
  unfold Route.answer
  rw [Route.serve, eval_listBucket, listAnswer_of_rows allowed format repo rows]
  have body := renderListText_single key value
  simp only [listResponse, renderListBody, listingWithValues, Option.getD_some, body]
  rfl

end Disclosure

/-- Reads disclose nothing beyond what the identity may read, for every
identity but a token that may enumerate keys it may not read. -/
theorem reads_confidential_iff (state : AppState) (bucketId : BucketId) (policy : BucketPolicy)
    (identity : ResolvedIdentity) :
    Confidential state (BucketAuth.ofPolicy bucketId policy identity) ↔ ¬ EnumeratesUnread identity := by
  constructor
  · intro confidential
    rcases identity with _ | _ | ⟨permissions, scope⟩
    · exact id
    · exact id
    · rintro ⟨enumerates, unread, short⟩
      let key : Key := ⟨scope, short⟩
      have refused : (BucketAuth.ofPolicy bucketId policy (.scoped permissions scope)).requireReadOn key ≠ .ok () := by
        rw [requireReadOn_scoped_unread unread]
        exact fun impossible => by cases impossible
      let clock : Clock := fun _ => OffsetDateTime.unixEpoch
      let bucket : Segment := ⟨"b", by decide, by decide⟩
      have same := confidential _ _ (agreeFor_singleStore refused (digit 0x30) (digit 0x31))
        (.listBucket (.ok listingWithValues) none) trivial clock bucket
      have shown : forall value, _ := @answer_listingWithValues bucketId key state clock bucket policy _ enumerates
      have equal := (shown (digit 0x30)).symm.trans (same.trans (shown (digit 0x31)))
      have bodies := Body.bytes.inj (Response.mk.inj equal).2.2
      have texts := String.ofList_injective (Bytes.utf8_injective bodies)
      have values := List.append_cancel_left texts
      exact absurd values (by decide)
  · exact confidential_of_covered state bucketId policy

namespace EnumerateOnly

def state : AppState := ⟨Platform.ofJson [] (by simp) [], []⟩

def bucketId : BucketId := ⟨"5d1c0e7a-93b4-4c58-8a06-2f71de90b3c4"⟩

/-- A bucket whose values only its read key and its tokens may see. -/
def policy : BucketPolicy where
  defaultTtlSecs := none
  anonymousAccess := ⟨false, false, false, false⟩
  secretKeyHash := some (List.replicate 32 0x01)
  readKeyHash := some (List.replicate 32 0x02)
  writeKeyHash := some (List.replicate 32 0x03)
  signingKey := some [0x6B]
  signingKeyGeneration := 0

/-- The identity of a token for the prefix `a` that may only enumerate. -/
def auth : BucketAuth := BucketAuth.ofPolicy bucketId policy (.scoped ⟨false, false, true, false⟩ [0x61])

def key : Key := ⟨[0x61], by decide⟩

def clock : Clock := fun _ => OffsetDateTime.unixEpoch

def bucket : Segment := ⟨"5d1c0e7a-93b4-4c58-8a06-2f71de90b3c4", by decide, by decide⟩

end EnumerateOnly

open EnumerateOnly in
/-- A token that may enumerate but not read is shown the stored value. -/
theorem enumerate_only_token_sees_values :
    AgreeFor auth (singleStore bucketId key (digit 0x30)) (singleStore bucketId key (digit 0x31)) ∧
    auth.requireReadOn key = .error forbidden ∧
    (Route.listBucket (.ok listingWithValues) none).answer state clock bucket auth
        (singleStore bucketId key (digit 0x30)) ≠
      (Route.listBucket (.ok listingWithValues) none).answer state clock bucket auth
        (singleStore bucketId key (digit 0x31)) := by
  have refused : auth.requireReadOn key = .error forbidden := by decide
  refine ⟨agreeFor_singleStore (by rw [refused]; exact fun impossible => by cases impossible) _ _, refused, ?_⟩
  decide +kernel

end Keydock
