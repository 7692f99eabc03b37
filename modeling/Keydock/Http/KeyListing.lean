import Keydock.Http.Sweeping

/-!
# Listings and reads

A listing selects from the keys of the bucket that a read would find at the
same instant: in order, or in reverse order, without the first `skip` of them
and at most `limit`.  Forward or reverse, with or without values makes no
difference to the keys, although each way has its own loop and its own decoder.

The buffer of a reverse listing is as large as the request says.  Its size is
checked by nothing before it is allocated.
-/

namespace Keydock

open Effect

section Rows

variable {store : Store} {bucket : BucketId}

/-- What a read at this instant finds. -/
def Store.found (store : Store) (now : OffsetDateTime) (bucket : BucketId) (key : Key) : Option StoredEntry :=
  (store.liveEntry now bucket key).toOption

theorem Store.found_eq (now : OffsetDateTime) {key : Key} {value : StoredValue}
    {expiresAt : Option OffsetDateTime}
    (present : store.data[dataStorageKey bucket key]? = some (entryBytes value expiresAt)) :
    store.found now bucket key =
      if expiresBy now.unixTimestamp (entryBytes value expiresAt) then none
      else some ⟨value, expiresAt.map OffsetDateTime.floorSecond⟩ := by
  simp only [Store.found, Store.liveEntry, present, decodeEntry_entryBytes, expiredAt_read]
  split <;> rfl

/-- The row of a key in a listing, given what a read finds. -/
def rowOf (input : ListOptsInput) (key : Key) (entry : StoredEntry) : ListEntry :=
  ⟨key, if input.includeValues.getD false then some entry.value else none⟩

/-- A stored row is listed exactly when a read finds its key. -/
theorem Indexed.visible_eq (inv : Indexed store) (now : OffsetDateTime) (input : ListOptsInput)
    {storageKey bytes : Bytes} (present : store.data[storageKey]? = some bytes) :
    FjallStore.visible bucket (KeyService.listOpts now input) storageKey bytes =
      (userKeyFromStorageKey storageKey bucket).bind (fun key =>
        (store.found now bucket key).map (rowOf input key)) := by
  rcases inv.entries storageKey bytes present with ⟨_, _, value, expiresAt, _, rfl, _⟩
  rw [visible_entryBytes]
  cases named : userKeyFromStorageKey storageKey bucket with
  | none => rfl
  | some key =>
      rw [userKeyFromStorageKey_eq_some.mp named] at present
      rw [Option.bind_some, Option.bind_some, Store.found_eq now present]
      have hides : (KeyService.listOpts now input).hides (entryBytes value expiresAt) =
          expiresBy now.unixTimestamp (entryBytes value expiresAt) := rfl
      rw [hides]
      split <;> rfl

/-- The rows listed are those of the keys under the prefix that a read finds. -/
theorem Indexed.mem_listed (inv : Indexed store) {now : OffsetDateTime} {input : ListOptsInput} {row : ListEntry} :
    row ∈ listed bucket (KeyService.listOpts now input) store.data ↔
      input.keyPrefix.getD [] <+: row.key.asBytes ∧
        Exists fun entry => store.found now bucket row.key = some entry ∧ row = rowOf input row.key entry := by
  unfold listed
  rw [List.mem_filterMap]
  constructor
  · rintro ⟨⟨storageKey, bytes⟩, scanned, shown⟩
    rcases store.data.mem_scan.mp scanned with ⟨present, starts⟩
    rw [inv.visible_eq now input present] at shown
    rcases Option.bind_eq_some_iff.mp shown with ⟨key, named, found⟩
    rcases Option.map_eq_some_iff.mp found with ⟨entry, live, rfl⟩
    rw [userKeyFromStorageKey_eq_some.mp named] at starts
    exact ⟨prefix_dataStorageKey.mp starts, entry, live, rfl⟩
  · rintro ⟨starts, entry, live, same⟩
    have present : Exists fun bytes => store.data[dataStorageKey bucket row.key]? = some bytes := by
      cases stored : store.data[dataStorageKey bucket row.key]? with
      | some bytes => exact ⟨bytes, rfl⟩
      | none =>
          simp only [Store.found, Store.liveEntry, stored] at live
          cases live
    rcases present with ⟨bytes, present⟩
    refine ⟨(dataStorageKey bucket row.key, bytes),
      store.data.mem_scan.mpr ⟨present, prefix_dataStorageKey.mpr starts⟩, ?_⟩
    rw [inv.visible_eq now input present, userKeyFromStorageKey_dataStorageKey, Option.bind_some, live, same]
    rfl

/-- The rows listed are in ascending order of their keys. -/
theorem Indexed.listed_ascending (inv : Indexed store) (now : OffsetDateTime) (input : ListOptsInput) :
    (listed bucket (KeyService.listOpts now input) store.data).Pairwise
      (fun left right => compare left.key.asBytes right.key.asBytes = .lt) := by
  have named : forall (row : Bytes × Bytes) (shown : ListEntry),
      row ∈ store.data.scan (dataKeyPrefix bucket input.keyPrefix) ->
      FjallStore.visible bucket (KeyService.listOpts now input) row.1 row.2 = some shown ->
      row.1 = dataStorageKey bucket shown.key := by
    intro row shown scanned visible
    rw [inv.visible_eq now input (store.data.mem_scan.mp scanned).1] at visible
    rcases Option.bind_eq_some_iff.mp visible with ⟨key, parsed, found⟩
    rcases Option.map_eq_some_iff.mp found with ⟨_, _, rfl⟩
    exact userKeyFromStorageKey_eq_some.mp parsed
  have sorted := List.Pairwise.and_mem.mp (store.data.scan_ascending (dataKeyPrefix bucket input.keyPrefix))
  refine List.Pairwise.filterMap _ ?_ sorted
  rintro left right ⟨leftScanned, rightScanned, less⟩ first firstShown second secondShown
  rw [named left first leftScanned firstShown, named right second rightScanned secondShown] at less
  unfold dataStorageKey at less
  rw [Bytes.compare_append_left, List.compare_cons_cons, Std.compare_self] at less
  exact less

end Rows

/-! ## The specification -/

/-- What order, skip and limit leave of the keys of a listing. -/
def selectedKeys (input : ListOptsInput) (keys : List Key) : List Key :=
  ((if input.reverse.getD false then keys.reverse else keys).drop (input.skip.getD 0).toNat).take
    (input.limit.getD KeyService.defaultLimit).toNat

theorem selected_map (now : OffsetDateTime) (input : ListOptsInput) (keys : List Key) (row : Key -> ListEntry) :
    selected (KeyService.listOpts now input) (keys.map row) = (selectedKeys input keys).map row := by
  unfold selected selectedKeys
  rw [List.map_take, List.map_drop]
  cases reversed : input.reverse.getD false <;> simp [KeyService.listOpts, reversed]

/-- In every reachable store a listing gives the keys under the prefix that a
read finds at the same instant, sorted, without the first `skip` of them and at
most `limit`, each with the value the read returns when values were asked for. -/
theorem listing_agrees_with_get (state : AppState) (events : List Event) (now : OffsetDateTime) (bucket : BucketId)
    (input : ListOptsInput) (allocates : bufferOf state.platform (KeyService.listOpts now input) = .ok ()) :
    let store := storeAfter state events
    let gets := fun key => (Task.eval state.platform (KeyService.get now bucket key) store).1
    Exists fun keys : List Key =>
      keys.Pairwise (fun left right => compare left.asBytes right.asBytes = .lt) ∧
      (forall key, key ∈ keys ↔
        input.keyPrefix.getD [] <+: key.asBytes ∧ Exists fun entry => gets key = .ok entry) ∧
      (Task.eval state.platform (KeyService.list now bucket input) store).1 =
        .ok ((selectedKeys input keys).map (fun key =>
          ⟨key, if input.includeValues.getD false then (gets key).toOption.map StoredEntry.value else none⟩)) := by
  intro store gets
  have inv : Indexed store := (storeAfter_sound state events).indexed
  have live : forall key entry, gets key = .ok entry ↔ store.found now bucket key = some entry := by
    intro key entry
    simp only [gets, Task.eval_get, Store.found]
    cases store.liveEntry now bucket key with
    | error error => constructor <;> intro impossible <;> cases impossible
    | ok found => simp [Except.mapError, Except.toOption]
  refine ⟨(listed bucket (KeyService.listOpts now input) store.data).map ListEntry.key, ?_, ?_, ?_⟩
  · exact List.pairwise_map.mpr (inv.listed_ascending now input)
  · intro key
    rw [List.mem_map]
    constructor
    · rintro ⟨row, member, rfl⟩
      rcases inv.mem_listed.mp member with ⟨starts, entry, found, _⟩
      exact ⟨starts, entry, (live _ entry).mpr found⟩
    · rintro ⟨starts, entry, returned⟩
      exact ⟨rowOf input key entry,
        inv.mem_listed.mpr ⟨starts, entry, (live key entry).mp returned, rfl⟩, rfl⟩
  · have whole : ((listed bucket (KeyService.listOpts now input) store.data).map ListEntry.key).map (fun key =>
        (⟨key, if input.includeValues.getD false then (gets key).toOption.map StoredEntry.value else none⟩ :
          ListEntry)) = listed bucket (KeyService.listOpts now input) store.data := by
      rw [List.map_map]
      refine List.map_congr_left (fun row member => ?_) |>.trans (List.map_id _)
      rcases inv.mem_listed.mp member with ⟨_, entry, found, same⟩
      have returned := (live row.key entry).mpr found
      simp only [Function.comp, id, returned, Except.toOption, Option.map_some]
      exact same.symm
    have outcome := listRows_eq state.platform bucket (KeyService.listOpts now input) inv.isEntry
    rw [allocates] at outcome
    rw [Task.eval_list, ← selected_map, whole]
    exact outcome

open ExpiredRemoval in
/-- A key that lives for one second is listed with its value when it has just
been written. -/
theorem fresh_key_listed :
    let input : ListOptsInput := ⟨none, some 1, none, some true, some true⟩
    Exists fun keys : List Key =>
      (forall key, key ∈ keys ↔ input.keyPrefix.getD [] <+: key.asBytes ∧ Exists fun entry =>
        (Task.eval state.platform (KeyService.get start id.bucketId key) (storeAfter state history)).1 = .ok entry) ∧
      (Task.eval state.platform (KeyService.list start id.bucketId input) (storeAfter state history)).1 =
        .ok [⟨⟨[0x6B], by decide⟩, some ⟨[0x68, 0x69], .utf8, by decide⟩⟩] := by
  intro input
  rcases listing_agrees_with_get state history start id.bucketId input (by decide) with ⟨keys, _, members, _⟩
  exact ⟨keys, members, by decide +kernel⟩

/-! ## The buffer of a reverse listing -/

/-- A listing ends for want of its buffer exactly when asking for it does,
whatever is stored. -/
theorem FjallStore.listRows_error_iff (platform : Platform) (bucket : BucketId) (opts : ListOpts)
    (rows : List Row) {error : TaskError} (ends : error = .panicked ∨ error = .aborted) :
    FjallStore.listRows platform bucket opts rows = .error error ↔ bufferOf platform opts = .error error := by
  have different : forall failure : UseCaseError, TaskError.useCase failure ≠ error := by
    rintro failure rfl
    rcases ends with impossible | impossible <;> cases impossible
  unfold FjallStore.listRows bufferOf
  by_cases nothing : opts.limit = 0
  · simp [nothing]
  · cases opts.reverse with
    | false =>
        cases listForward bucket opts opts.skip.toNat 0 [] rows <;> simp [nothing, Except.mapError, different]
    | true =>
        have wide : saturatingAdd opts.skip opts.limit ≠ 0 := by
          have positive : opts.limit.toNat ≠ 0 := fun zero => nothing (UInt64.toNat_inj.mp zero)
          unfold saturatingAdd
          omega
        simp only [if_true, if_neg wide, ne_eq, nothing, not_false_eq_true, and_self, if_false]
        cases FjallStore.withCapacity platform (saturatingAdd opts.skip opts.limit) with
        | error failure => simp
        | ok => cases listReverse bucket opts (saturatingAdd opts.skip opts.limit) [] rows <;> simp [different]

/-- The size in bytes that a reverse listing asks for. -/
def windowBytes (platform : Platform) (input : ListOptsInput) : Nat :=
  saturatingAdd (input.skip.getD 0) (input.limit.getD KeyService.defaultLimit) * platform.listEntrySize

/-- A reverse listing asks for nothing, or for a size that a layout may have
and that the allocator grants. -/
def BufferGranted (platform : Platform) (input : ListOptsInput) : Prop :=
  input.limit.getD KeyService.defaultLimit = 0 ∨
    (windowBytes platform input ≤ isizeMax ∧ platform.allocates (windowBytes platform input) = true)

section Buffer

variable (platform : Platform) (now : OffsetDateTime) (input : ListOptsInput)

theorem bufferOf_reverse : bufferOf platform (KeyService.listOpts now { input with reverse := some true }) =
    if input.limit.getD KeyService.defaultLimit = 0 then .ok ()
    else FjallStore.withCapacity platform
      (saturatingAdd (input.skip.getD 0) (input.limit.getD KeyService.defaultLimit)) := by
  unfold bufferOf KeyService.listOpts
  by_cases nothing : input.limit.getD KeyService.defaultLimit = 0
  · simp [nothing]
  · simp only [ne_eq, nothing, not_false_eq_true, Option.getD_some, and_self, if_true, if_false]

theorem bufferOf_reverse_ok_iff : bufferOf platform (KeyService.listOpts now { input with reverse := some true }) = .ok () ↔
    BufferGranted platform input := by
  rw [bufferOf_reverse]
  unfold BufferGranted
  by_cases nothing : input.limit.getD KeyService.defaultLimit = 0
  · simp [nothing]
  · rw [if_neg nothing, FjallStore.withCapacity_eq_ok_iff]
    simp only [nothing, false_or, windowBytes]

theorem bufferOf_reverse_panicked_iff :
    bufferOf platform (KeyService.listOpts now { input with reverse := some true }) = .error .panicked ↔
      input.limit.getD KeyService.defaultLimit ≠ 0 ∧ isizeMax < windowBytes platform input := by
  rw [bufferOf_reverse]
  by_cases nothing : input.limit.getD KeyService.defaultLimit = 0
  · simp [nothing]
  · rw [if_neg nothing, FjallStore.withCapacity_panicked_iff]
    simp only [nothing, ne_eq, not_false_eq_true, true_and, windowBytes]

end Buffer

/-- A reverse listing ends in a capacity overflow exactly when it asks for more
than `isize::MAX` bytes.  It neither panics nor aborts the process, and gives
the listing when the entries decode, exactly when it asks for nothing or its
buffer is granted. -/
theorem reverse_listing_safe_iff (platform : Platform) (now : OffsetDateTime) (bucket : BucketId)
    (input : ListOptsInput) :
    (forall store, (Task.eval platform (KeyService.list now bucket { input with reverse := some true }) store).1 =
      .error .panicked ↔
      input.limit.getD KeyService.defaultLimit ≠ 0 ∧ isizeMax < windowBytes platform input) ∧
    (forall store,
      ((Task.eval platform (KeyService.list now bucket { input with reverse := some true }) store).1 ≠
          .error .panicked ∧
        (Task.eval platform (KeyService.list now bucket { input with reverse := some true }) store).1 ≠
          .error .aborted) ↔
      BufferGranted platform input) ∧
    (forall store : Store, (forall storageKey bytes : Bytes, store.data[storageKey]? = some bytes -> IsEntry bytes) ->
      ((Task.eval platform (KeyService.list now bucket { input with reverse := some true }) store).1 =
        .ok (selected (KeyService.listOpts now { input with reverse := some true })
          (listed bucket (KeyService.listOpts now { input with reverse := some true }) store.data)) ↔
      BufferGranted platform input)) := by
  have panics := bufferOf_reverse_panicked_iff platform now input
  have granted := bufferOf_reverse_ok_iff platform now input
  refine ⟨?_, ?_, ?_⟩
  · intro store
    rw [Task.eval_list, FjallStore.listRows_error_iff _ _ _ _ (.inl rfl), panics]
  · intro store
    rw [Task.eval_list, ne_eq, ne_eq, FjallStore.listRows_error_iff _ _ _ _ (.inl rfl),
      FjallStore.listRows_error_iff _ _ _ _ (.inr rfl), ← granted, bufferOf_eq_ok_iff]
  · intro store entries
    have outcome := listRows_eq platform bucket (KeyService.listOpts now { input with reverse := some true }) entries
    have evaluated : (Task.eval platform (KeyService.list now bucket { input with reverse := some true }) store).1 =
        _ := outcome
    rw [evaluated, ← granted]
    cases bufferOf platform (KeyService.listOpts now { input with reverse := some true }) with
    | error error => simp [Except.map]
    | ok => simp [Except.map]

/-- With the default limit a reverse listing of an empty store is empty. -/
theorem default_reverse_listing :
    let platform := Platform.ofJson [] (by simp) []
    (Task.eval platform (KeyService.list OffsetDateTime.unixEpoch ⟨"b"⟩ ⟨none, none, none, some true, none⟩)
      Store.empty).1 = .ok [] := by
  intro platform
  exact ((reverse_listing_safe_iff platform OffsetDateTime.unixEpoch ⟨"b"⟩ ⟨none, none, none, none, none⟩).2.2 Store.empty
    (fun _ _ present => by simp [Store.empty] at present)).mpr (.inr (by decide))

/-- The largest `skip` that a query can name makes the listing panic. -/
theorem largest_skip_panics :
    let platform := Platform.ofJson [] (by simp) []
    (Task.eval platform (KeyService.list OffsetDateTime.unixEpoch ⟨"b"⟩
      ⟨none, none, some 18446744073709551615, some true, none⟩) Store.empty).1 = .error .panicked := by
  decide +kernel

end Keydock
