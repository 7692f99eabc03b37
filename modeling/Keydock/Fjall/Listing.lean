import Keydock.Fjall.Indexed

/-!
# Listing

The listing of a bucket scans the stored rows in ascending order.  Forwards it
skips and takes while it scans and stops when it has enough; in reverse it
keeps the last `skip + limit` rows in a bounded buffer.  Without values only
the expiry of an entry is decoded and compared in whole seconds.

On well-formed entries both loops select from the same sequence, the rows
`visible` shows.

The buffer is asked for at its full size before the scan, and that is the one
allocation whose size the query decides.  What grows with the rows stored is
taken to fit.
-/

namespace Keydock

open Effect Adapter

/-- The largest size in bytes that an allocation may ask for. -/
def isizeMax : Nat := 2 ^ 63 - 1

def saturatingAdd (left right : UInt64) : Nat :=
  min (left.toNat + right.toNat) (2 ^ 64 - 1)

namespace FjallStore

/-- One row of the scan: an error, nothing to list, or an entry. -/
def listRow (bucket : BucketId) (opts : ListOpts) : Row -> Except UseCaseError (Option ListEntry)
  | .error error => .error error.toUseCaseError
  | .ok (storageKey, bytes) =>
      match userKeyFromStorageKey storageKey bucket with
      | none => .ok none
      | some key =>
          if opts.includeValues then
            match decodeEntry bytes with
            | .error error => .error error.toUseCaseError
            | .ok entry =>
                match opts.expiresBefore, entry.expiresAt with
                | some cutoff, some expiry =>
                    if expiry ≤ cutoff then .ok none else .ok (some ⟨key, some entry.value⟩)
                | _, _ => .ok (some ⟨key, some entry.value⟩)
          else
            match decodeEntryExpiresUnix bytes with
            | .error error => .error error.toUseCaseError
            | .ok expiresUnix =>
                match opts.expiresBefore.map OffsetDateTime.unixTimestamp, expiresUnix with
                | some cutoff, some expiry => if expiry ≤ cutoff then .ok none else .ok (some ⟨key, none⟩)
                | _, _ => .ok (some ⟨key, none⟩)

/-- The forward loop. -/
def listForward (bucket : BucketId) (opts : ListOpts) :
    Nat -> Nat -> List ListEntry -> List Row -> Except UseCaseError (List ListEntry)
  | _, _, out, [] => .ok out
  | skipRemaining, taken, out, row :: rest =>
      if opts.limit.toNat ≤ taken then .ok out
      else
        match listRow bucket opts row with
        | .error error => .error error
        | .ok none => listForward bucket opts skipRemaining taken out rest
        | .ok (some entry) =>
            if 0 < skipRemaining then listForward bucket opts (skipRemaining - 1) taken out rest
            else listForward bucket opts skipRemaining (taken + 1) (out ++ [entry]) rest

/-- `VecDeque::with_capacity` for listing rows.  A size above the largest that
a layout may have panics with a capacity overflow; a smaller one that the
allocator refuses aborts the process. -/
def withCapacity (platform : Platform) (capacity : Nat) : Except TaskError Unit :=
  let bytes := capacity * platform.listEntrySize
  if isizeMax < bytes then .error .panicked
  else if platform.allocates bytes then .ok ()
  else .error .aborted

theorem withCapacity_eq_ok_iff {platform : Platform} {capacity : Nat} :
    withCapacity platform capacity = .ok () ↔
      capacity * platform.listEntrySize ≤ isizeMax ∧ platform.allocates (capacity * platform.listEntrySize) = true := by
  unfold withCapacity
  by_cases huge : isizeMax < capacity * platform.listEntrySize
  · simp [huge, Nat.not_le_of_lt huge]
  · cases granted : platform.allocates (capacity * platform.listEntrySize) <;> simp [huge, granted, Nat.not_lt.mp huge]

theorem withCapacity_panicked_iff {platform : Platform} {capacity : Nat} :
    withCapacity platform capacity = .error .panicked ↔ isizeMax < capacity * platform.listEntrySize := by
  unfold withCapacity
  by_cases huge : isizeMax < capacity * platform.listEntrySize
  · simp [huge]
  · cases granted : platform.allocates (capacity * platform.listEntrySize) <;> simp [huge, granted]

/-- The reverse loop over a buffer of at most `window` entries. -/
def listReverse (bucket : BucketId) (opts : ListOpts) (window : Nat) :
    List ListEntry -> List Row -> Except UseCaseError (List ListEntry)
  | deque, [] => .ok deque
  | deque, row :: rest =>
      match listRow bucket opts row with
      | .error error => .error error
      | .ok none => listReverse bucket opts window deque rest
      | .ok (some entry) =>
          let pushed := deque ++ [entry]
          listReverse bucket opts window (pushed.drop (pushed.length - window)) rest

/-- What the listing makes of the scanned rows. -/
def listRows (platform : Platform) (bucket : BucketId) (opts : ListOpts) (rows : List Row) :
    Except TaskError (List ListEntry) :=
  if opts.limit = 0 then .ok []
  else if opts.reverse then
    let window := saturatingAdd opts.skip opts.limit
    if window = 0 then .ok []
    else
      match withCapacity platform window with
      | .error error => .error error
      | .ok () =>
          match listReverse bucket opts window [] rows with
          | .error error => .error (.useCase error)
          | .ok deque => .ok ((deque.reverse.drop opts.skip.toNat).take opts.limit.toNat)
  else (listForward bucket opts opts.skip.toNat 0 [] rows).mapError TaskError.useCase

def list (platform : Platform) (bucket : BucketId) (opts : ListOpts) :
    ExceptT TaskError (Program keyspaceOps) (List ListEntry) :=
  ExceptT.mk do
    let rows <- Engine.scan .data (dataKeyPrefix bucket opts.keyPrefix)
    return listRows platform bucket opts rows

theorem run_list (platform : Platform) (bucket : BucketId) (opts : ListOpts) (store : Store) :
    storage.run (list platform bucket opts).run store =
      (listRows platform bucket opts ((store.data.scan (dataKeyPrefix bucket opts.keyPrefix)).map .ok), store) :=
  rfl

/-! ## What the loops compute -/

/-- The entry a stored row contributes to a listing. -/
def visible (bucket : BucketId) (opts : ListOpts) (storageKey bytes : Bytes) : Option ListEntry :=
  match listRow bucket opts (.ok (storageKey, bytes)) with
  | .ok shown => shown
  | .error _ => none

/-- The listing decodes this row. -/
def Decodes (bucket : BucketId) (opts : ListOpts) (row : Bytes × Bytes) : Prop :=
  listRow bucket opts (.ok row) = .ok (visible bucket opts row.1 row.2)

theorem listForward_eq (bucket : BucketId) (opts : ListOpts) {rows : List (Bytes × Bytes)}
    (decodes : forall row, row ∈ rows -> Decodes bucket opts row) (skipRemaining taken : Nat)
    (out : List ListEntry) :
    listForward bucket opts skipRemaining taken out (rows.map .ok) =
      .ok (out ++ ((rows.filterMap (fun row => visible bucket opts row.1 row.2)).drop skipRemaining).take
        (opts.limit.toNat - taken)) := by
  induction rows generalizing skipRemaining taken out with
  | nil => simp [listForward]
  | cons row rest ih =>
      have here := decodes row List.mem_cons_self
      have later := ih (fun other member => decodes other (List.mem_cons_of_mem row member))
      unfold Decodes at here
      rw [List.map_cons, listForward]
      by_cases enough : opts.limit.toNat ≤ taken
      · rw [if_pos enough, Nat.sub_eq_zero_of_le enough, List.take_zero, List.append_nil]
      · rw [if_neg enough, here]
        cases shown : visible bucket opts row.1 row.2 with
        | none =>
            simp only [later]
            rw [List.filterMap_cons, shown]
        | some entry =>
            simp only [later]
            rw [List.filterMap_cons, shown]
            by_cases skipping : 0 < skipRemaining
            · rw [if_pos skipping]
              cases skipRemaining with
              | zero => exact False.elim (Nat.lt_irrefl 0 skipping)
              | succ skip => rfl
            · have none : skipRemaining = 0 := Nat.eq_zero_of_not_pos skipping
              subst none
              have room : opts.limit.toNat - taken = (opts.limit.toNat - (taken + 1)) + 1 := by omega
              rw [if_neg (Nat.lt_irrefl 0), room, List.drop_zero, List.drop_zero, List.take_succ_cons,
                List.append_assoc, List.singleton_append]

/-- The buffer holds the last entries of the sequence. -/
theorem listReverse_eq (bucket : BucketId) (opts : ListOpts) (window : Nat) {rows : List (Bytes × Bytes)}
    (decodes : forall row, row ∈ rows -> Decodes bucket opts row) (seen : List ListEntry) :
    listReverse bucket opts window (seen.drop (seen.length - window)) (rows.map .ok) =
      let all := seen ++ rows.filterMap (fun row => visible bucket opts row.1 row.2)
      .ok (all.drop (all.length - window)) := by
  induction rows generalizing seen with
  | nil => simp [listReverse]
  | cons row rest ih =>
      have here := decodes row List.mem_cons_self
      have later := ih (fun other member => decodes other (List.mem_cons_of_mem row member))
      unfold Decodes at here
      rw [List.map_cons, listReverse, here]
      cases shown : visible bucket opts row.1 row.2 with
      | none =>
          simp only [later]
          rw [List.filterMap_cons, shown]
      | some entry =>
          have pushed : (seen.drop (seen.length - window) ++ [entry]).drop
              ((seen.drop (seen.length - window) ++ [entry]).length - window) =
              (seen ++ [entry]).drop ((seen ++ [entry]).length - window) := by
            rw [← List.drop_append_of_le_length (by omega), List.drop_drop]
            congr 1
            simp only [List.length_append, List.length_drop, List.length_singleton]
            omega
          simp only [pushed, later]
          rw [List.filterMap_cons, shown, List.append_assoc, List.singleton_append]

/-- A buffer that can be asked for is far below the saturation point. -/
theorem saturatingAdd_of_withCapacity {platform : Platform} {skip limit : UInt64}
    (granted : withCapacity platform (saturatingAdd skip limit) = .ok ()) :
    saturatingAdd skip limit = skip.toNat + limit.toNat := by
  have bound : saturatingAdd skip limit ≤ isizeMax :=
    Nat.le_trans (Nat.le_mul_of_pos_right _ platform.listEntrySize_pos) (withCapacity_eq_ok_iff.mp granted).1
  unfold saturatingAdd isizeMax at *
  omega

/-- Dropping from the front of a list what a reversed window never reaches. -/
theorem reverse_window {α : Type} (items : List α) (skip limit : Nat) :
    ((items.drop (items.length - (skip + limit))).reverse.drop skip).take limit =
      (items.reverse.drop skip).take limit := by
  rw [← List.take_reverse, List.drop_take, List.take_take, Nat.min_eq_left (by omega)]

end FjallStore

/-! ## The specification of a listing -/

/-- The rows of a bucket that a listing shows, in ascending order. -/
def listed (bucket : BucketId) (opts : ListOpts) (data : Keyspace) : List ListEntry :=
  (data.scan (dataKeyPrefix bucket opts.keyPrefix)).filterMap
    (fun row => FjallStore.visible bucket opts row.1 row.2)

/-- Order, skip and limit applied to the rows shown. -/
def selected (opts : ListOpts) (entries : List ListEntry) : List ListEntry :=
  ((if opts.reverse then entries.reverse else entries).drop opts.skip.toNat).take opts.limit.toNat

theorem mem_of_mem_selected {opts : ListOpts} {entries : List ListEntry} {row : ListEntry}
    (member : row ∈ selected opts entries) : row ∈ entries := by
  have inOrder := List.mem_of_mem_drop (List.mem_of_mem_take member)
  split at inOrder
  · exact List.mem_reverse.mp inOrder
  · exact inOrder

/-- The buffer a listing asks for before it reads any row. -/
def bufferOf (platform : Platform) (opts : ListOpts) : Except TaskError Unit :=
  if opts.limit ≠ 0 ∧ opts.reverse = true then
    FjallStore.withCapacity platform (saturatingAdd opts.skip opts.limit)
  else .ok ()

/-- A buffer that is refused ends the task, whatever a use case makes of it. -/
theorem bufferOf_error {platform : Platform} {opts : ListOpts} {error : TaskError}
    (refused : bufferOf platform opts = .error error) : error = .panicked ∨ error = .aborted := by
  unfold bufferOf FjallStore.withCapacity at refused
  dsimp only at refused
  split at refused
  · split at refused
    · cases refused
      exact .inl rfl
    · split at refused
      · cases refused
      · cases refused
        exact .inr rfl
  · cases refused

theorem bufferOf_eq_ok_iff (platform : Platform) (opts : ListOpts) : bufferOf platform opts = .ok () ↔
    ¬ bufferOf platform opts = .error .panicked ∧ ¬ bufferOf platform opts = .error .aborted := by
  cases granted : bufferOf platform opts with
  | error error => rcases bufferOf_error granted with rfl | rfl <;> simp
  | ok => simp

theorem eq_of_map_bufferOf {platform : Platform} {opts : ListOpts} {all rows : List ListEntry}
    (shown : (bufferOf platform opts).map (fun _ => all) = .ok rows) : rows = all := by
  cases granted : bufferOf platform opts with
  | error error =>
      rw [granted] at shown
      cases shown
  | ok =>
      rw [granted] at shown
      exact (Except.ok.inj shown).symm

/-- The bytes of a stored entry, whichever it is. -/
def IsEntry (bytes : Bytes) : Prop :=
  Exists fun value => Exists fun expiresAt => bytes = entryBytes value expiresAt

theorem Indexed.isEntry {store : Store} (inv : Indexed store) (storageKey bytes : Bytes)
    (present : store.data[storageKey]? = some bytes) : IsEntry bytes := by
  rcases inv.entries storageKey bytes present with ⟨_, _, value, expiresAt, _, coded, _⟩
  exact ⟨value, expiresAt, coded⟩

theorem IsEntry.decodes {bytes : Bytes} (entry : IsEntry bytes) (bucket : BucketId) (opts : ListOpts)
    (storageKey : Bytes) : FjallStore.Decodes bucket opts (storageKey, bytes) := by
  rcases entry with ⟨value, expiresAt, rfl⟩
  unfold FjallStore.Decodes FjallStore.visible
  have known : Exists fun shown =>
      FjallStore.listRow bucket opts (.ok (storageKey, entryBytes value expiresAt)) = .ok shown := by
    simp only [FjallStore.listRow, decodeEntry_entryBytes, decodeEntryExpiresUnix_entryBytes]
    split
    · exact ⟨_, rfl⟩
    · split
      · split
        · split <;> exact ⟨_, rfl⟩
        · exact ⟨_, rfl⟩
      · split
        · split <;> exact ⟨_, rfl⟩
        · exact ⟨_, rfl⟩
  rcases known with ⟨shown, same⟩
  rw [same]

/-- The listing leaves out an entry that has expired. -/
def ListOpts.hides (opts : ListOpts) (bytes : Bytes) : Bool :=
  opts.expiresBefore.any (fun cutoff => expiresBy cutoff.unixTimestamp bytes)

/-- What a listing shows of an entry.  Comparing whole seconds or instants
makes no difference. -/
theorem visible_entryBytes (bucket : BucketId) (opts : ListOpts) (storageKey : Bytes) (value : StoredValue)
    (expiresAt : Option OffsetDateTime) :
    FjallStore.visible bucket opts storageKey (entryBytes value expiresAt) =
      (userKeyFromStorageKey storageKey bucket).bind (fun key =>
        if opts.hides (entryBytes value expiresAt) then none
        else some ⟨key, if opts.includeValues then some value else none⟩) := by
  unfold FjallStore.visible ListOpts.hides
  simp only [FjallStore.listRow, decodeEntry_entryBytes, decodeEntryExpiresUnix_entryBytes, expiresBy_entryBytes]
  cases userKeyFromStorageKey storageKey bucket with
  | none => rfl
  | some key =>
      cases opts.expiresBefore with
      | none => cases opts.includeValues <;> rfl
      | some cutoff =>
          cases expiresAt with
          | none => cases opts.includeValues <;> rfl
          | some expiry =>
              by_cases due : expiry.unixTimestamp ≤ cutoff.unixTimestamp
              · have instant := (OffsetDateTime.floorSecond_le_iff expiry cutoff).mpr due
                cases opts.includeValues <;> simp [due, instant]
              · have instant := mt (OffsetDateTime.floorSecond_le_iff expiry cutoff).mp due
                cases opts.includeValues <;> simp [due, instant]

/-- A listing whose rows decode selects from the rows shown. -/
theorem listRows_of_decodes (platform : Platform) (bucket : BucketId) (opts : ListOpts) {data : Keyspace}
    (decodes : forall row, row ∈ data.scan (dataKeyPrefix bucket opts.keyPrefix) ->
      FjallStore.Decodes bucket opts row) :
    FjallStore.listRows platform bucket opts
        ((data.scan (dataKeyPrefix bucket opts.keyPrefix)).map .ok) =
      (bufferOf platform opts).map (fun _ => selected opts (listed bucket opts data)) := by
  unfold FjallStore.listRows bufferOf selected
  by_cases nothing : opts.limit = 0
  · simp [nothing, Except.map]
  · have positive : 0 < opts.limit.toNat := by
      rcases Nat.eq_zero_or_pos opts.limit.toNat with zero | positive
      · exact False.elim (nothing (UInt64.toNat_inj.mp zero))
      · exact positive
    rw [if_neg nothing]
    cases opts.reverse with
    | false =>
        have forward := FjallStore.listForward_eq bucket opts decodes opts.skip.toNat 0 []
        simp only [Bool.false_eq_true, if_false, forward, List.nil_append, Nat.sub_zero, Except.mapError,
          and_false]
        rfl
    | true =>
        have wide : saturatingAdd opts.skip opts.limit ≠ 0 := by
          unfold saturatingAdd
          omega
        have reverse := FjallStore.listReverse_eq bucket opts (saturatingAdd opts.skip opts.limit) decodes []
        simp only [List.length_nil, Nat.zero_sub, List.drop_nil, List.nil_append] at reverse
        simp only [if_true, if_neg wide, ne_eq, nothing, not_false_eq_true, and_self]
        cases granted : FjallStore.withCapacity platform (saturatingAdd opts.skip opts.limit) with
        | error error => rfl
        | ok =>
            have exact := FjallStore.saturatingAdd_of_withCapacity granted
            have window := FjallStore.reverse_window (listed bucket opts data) opts.skip.toNat opts.limit.toNat
            rw [← exact] at window
            simp only [reverse]
            exact congrArg Except.ok window

theorem listRows_eq (platform : Platform) (bucket : BucketId) (opts : ListOpts) {data : Keyspace}
    (entries : forall (storageKey bytes : Bytes), data[storageKey]? = some bytes -> IsEntry bytes) :
    FjallStore.listRows platform bucket opts
        ((data.scan (dataKeyPrefix bucket opts.keyPrefix)).map .ok) =
      (bufferOf platform opts).map (fun _ => selected opts (listed bucket opts data)) :=
  listRows_of_decodes platform bucket opts (fun row member =>
    (entries row.1 row.2 (data.mem_scan.mp member).1).decodes bucket opts row.1)

end Keydock
