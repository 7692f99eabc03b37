import Keydock.Http.Authorization

/-!
# Isolation of buckets

All buckets share one flat keyspace.  Because the ids the service hands out
hold no colon, the storage keys of two buckets never meet: a request addressed
to one bucket leaves every answer about another one as it was, and whatever a
bucket shows was stored by a request addressed to it.
-/

namespace Keydock

open Effect Adapter

/-! ## The region of a bucket -/

/-- A stored key under the scan prefix of a bucket is a key of that bucket. -/
theorem Sound.key_of_prefix {platform : Platform} {store : Store} (sound : Sound platform store) {bucket : Uuid}
    {userPrefix : Option Bytes} {storageKey bytes : Bytes} (present : store.data[storageKey]? = some bytes)
    (inside : dataKeyPrefix bucket.bucketId userPrefix <+: storageKey) :
    Exists fun key => storageKey = dataStorageKey bucket.bucketId key := by
  rcases sound.owned storageKey bytes present with ⟨id, key, rfl⟩
  rcases inside with ⟨rest, same⟩
  rw [dataKeyPrefix, List.append_assoc, List.cons_append] at same
  have parts := Bytes.append_separator_inj bucket.colon_not_mem_utf8 id.colon_not_mem_utf8 same
  have sameBucket : bucket.bucketId = id.bucketId := BucketId.ext_str (Bytes.utf8_injective parts.1)
  exact ⟨key, by rw [sameBucket]⟩

/-- Two stores hold the same entries for a bucket. -/
def SameEntries (bucket : BucketId) (left right : Store) : Prop :=
  forall key : Key, left.data[dataStorageKey bucket key]? = right.data[dataStorageKey bucket key]?

section SameEntries

variable {platform : Platform} {left right : Store} {bucket : Uuid}

theorem SameEntries.scan (same : SameEntries bucket.bucketId left right) (leftSound : Sound platform left)
    (rightSound : Sound platform right) (userPrefix : Option Bytes) :
    left.data.scan (dataKeyPrefix bucket.bucketId userPrefix) =
      right.data.scan (dataKeyPrefix bucket.bucketId userPrefix) := by
  apply Keyspace.scan_congr
  intro storageKey inside
  cases leftFound : left.data[storageKey]? with
  | some bytes =>
      rcases leftSound.key_of_prefix leftFound inside with ⟨key, rfl⟩
      rw [← leftFound]
      exact same key
  | none =>
      cases rightFound : right.data[storageKey]? with
      | none => rfl
      | some bytes =>
          rcases rightSound.key_of_prefix rightFound inside with ⟨key, rfl⟩
          rw [← leftFound, ← rightFound]
          exact same key

/-- Every operation on a bucket answers the same on such stores. -/
theorem SameEntries.answers (same : SameEntries bucket.bucketId left right) (leftSound : Sound platform left)
    (rightSound : Sound platform right) :
    (forall key, (eval (FjallStore.get bucket.bucketId key) left).1 =
      (eval (FjallStore.get bucket.bucketId key) right).1) ∧
    (forall key, (eval (FjallStore.delete bucket.bucketId key) left).1 =
      (eval (FjallStore.delete bucket.bucketId key) right).1) ∧
    (forall now key op expiresAt, (eval (FjallStore.increment now bucket.bucketId key op expiresAt) left).1 =
      (eval (FjallStore.increment now bucket.bucketId key op expiresAt) right).1) ∧
    (forall opts, (storage.run (FjallStore.list platform bucket.bucketId opts).run left).1 =
      (storage.run (FjallStore.list platform bucket.bucketId opts).run right).1) := by
  refine ⟨?_, ?_, ?_, ?_⟩
  · intro key
    rw [FjallStore.eval_get, FjallStore.eval_get, same key]
    cases right.data[dataStorageKey bucket.bucketId key]? <;> rfl
  · intro key
    rw [FjallStore.eval_delete, FjallStore.eval_delete, same key]
  · intro now key op expiresAt
    rw [FjallStore.eval_increment, FjallStore.eval_increment, same key]
    cases mergedValue now right.data[dataStorageKey bucket.bucketId key]? op <;> rfl
  · intro opts
    rw [FjallStore.run_list, FjallStore.run_list, same.scan leftSound rightSound]

end SameEntries

/-- A request leaves the entries of every other bucket as they were. -/
theorem perform_sameEntries {state : AppState} {store : Store} (sound : Sound state.platform store)
    (request : BucketRequest) {bucket : Uuid} (different : request.bucketId ≠ bucket.bucketId) :
    SameEntries bucket.bucketId ((Request.bucket request).perform state store).2 store := by
  intro key
  apply by_contra
  intro changed
  exact different (entry_change_entitled state request sound bucket key changed).1

/-! ## Where entries come from -/

/-- A request addressed to the bucket stored these bytes during the run. -/
def WrittenThrough (state : AppState) (events : List Event) (bucket : BucketId) (storageKey bytes : Bytes) : Prop :=
  Exists fun earlier => Exists fun request : BucketRequest => Exists fun later =>
    events = earlier ++ Event.request (.bucket request) :: later ∧ request.bucketId = bucket ∧
      (storeAfter state earlier).data[storageKey]? ≠ some bytes ∧
      ((Request.bucket request).perform state (storeAfter state earlier)).2.data[storageKey]? = some bytes

theorem WrittenThrough.append {state : AppState} {events : List Event} {bucket : BucketId} {storageKey bytes : Bytes}
    (written : WrittenThrough state events bucket storageKey bytes) (event : Event) :
    WrittenThrough state (events ++ [event]) bucket storageKey bytes := by
  rcases written with ⟨earlier, request, later, rfl, addressed, before, after⟩
  exact ⟨earlier, request, later ++ [event], by simp, addressed, before, after⟩

/-- Every entry of a bucket was stored by a request addressed to it. -/
theorem writtenThrough_of_entry (state : AppState) (events : List Event) (bucket : Uuid) (key : Key) {bytes : Bytes}
    (present : (storeAfter state events).data[dataStorageKey bucket.bucketId key]? = some bytes) :
    WrittenThrough state events bucket.bucketId (dataStorageKey bucket.bucketId key) bytes := by
  induction events using List.reverseRecOn with
  | nil => simp [storeAfter, Store.empty] at present
  | append_singleton events event ih =>
      by_cases already : (storeAfter state events).data[dataStorageKey bucket.bucketId key]? = some bytes
      · exact (ih already).append event
      · -- The last event stored the entry; only a request to the bucket can.
        rw [storeAfter_snoc] at present
        have sound := storeAfter_sound state events
        cases event with
        | sweep now =>
            change ((storeAfter state events).sweep now).data[_]? = _ at present
            rw [sound.indexed.sweep_data now] at present
            exact False.elim (already (Option.filter_eq_some_iff.mp present).1)
        | request incoming =>
            change (incoming.perform state (storeAfter state events)).2.data[_]? = _ at present
            cases incoming with
            | createBucket fresh form =>
                rcases createBucket_cases state fresh form (storeAfter state events) with
                  same | ⟨_, _, _, _, _, _, same⟩
                · rw [same] at present
                  exact False.elim (already present)
                · rw [same] at present
                  exact False.elim (already present)
            | bucket request =>
                have changed : ((Request.bucket request).perform state (storeAfter state events)).2.data[
                    dataStorageKey bucket.bucketId key]? ≠
                    (storeAfter state events).data[dataStorageKey bucket.bucketId key]? := by
                  rw [present]
                  exact fun same => already same.symm
                have addressed := (entry_change_entitled state request sound bucket key changed).1
                exact ⟨events, request, [], rfl, addressed, already, present⟩

/-! ## What a bucket shows -/

/-- The rows of a listing come from entries of the bucket. -/
theorem entry_of_listed {platform : Platform} {store : Store} (sound : Sound platform store) {bucket : BucketId}
    {opts : ListOpts} {rows : List ListEntry} {row : ListEntry}
    (shown : (storage.run (FjallStore.list platform bucket opts).run store).1 = .ok rows) (member : row ∈ rows) :
    Exists fun bytes => Exists fun entry => store.data[dataStorageKey bucket row.key]? = some bytes ∧
      decodeEntry bytes = .ok entry ∧ (row.value = none ∨ row.value = some entry.value) := by
  have entries := sound.indexed.isEntry
  rw [FjallStore.run_list, listRows_eq platform bucket opts entries] at shown
  cases eq_of_map_bufferOf shown
  rcases List.mem_filterMap.mp (mem_of_mem_selected member) with ⟨stored, scanned, visible⟩
  have present := (store.data.mem_scan.mp scanned).1
  rcases entries _ _ present with ⟨value, expiresAt, coded⟩
  rw [coded, visible_entryBytes] at visible
  rcases Option.bind_eq_some_iff.mp visible with ⟨key, parsed, kept⟩
  have named := userKeyFromStorageKey_eq_some.mp parsed
  split at kept
  next => cases kept
  next =>
    cases kept
    refine ⟨stored.2, _, named ▸ present, coded ▸ decodeEntry_entryBytes value expiresAt, ?_⟩
    cases opts.includeValues with
    | false => exact .inl rfl
    | true => exact .inr rfl

/-- Isolation of buckets in every run: a request addressed to one bucket does
not change any answer about another bucket, and every entry that a read or a
listing of a bucket returns was stored by a request addressed to that bucket. -/
theorem buckets_isolated (state : AppState) (events : List Event) :
    let store := storeAfter state events
    (forall (request : BucketRequest) (bucket : Uuid), request.bucketId ≠ bucket.bucketId ->
      let after := ((Request.bucket request).perform state store).2
      (forall key, (eval (FjallStore.get bucket.bucketId key) after).1 =
        (eval (FjallStore.get bucket.bucketId key) store).1) ∧
      (forall key, (eval (FjallStore.delete bucket.bucketId key) after).1 =
        (eval (FjallStore.delete bucket.bucketId key) store).1) ∧
      (forall now key op expiresAt, (eval (FjallStore.increment now bucket.bucketId key op expiresAt) after).1 =
        (eval (FjallStore.increment now bucket.bucketId key op expiresAt) store).1) ∧
      (forall opts, (storage.run (FjallStore.list state.platform bucket.bucketId opts).run after).1 =
        (storage.run (FjallStore.list state.platform bucket.bucketId opts).run store).1)) ∧
    (forall (bucket : Uuid) (key : Key) (entry : StoredEntry),
      (eval (FjallStore.get bucket.bucketId key) store).1 = .ok (some entry) ->
      Exists fun bytes => decodeEntry bytes = .ok entry ∧
        WrittenThrough state events bucket.bucketId (dataStorageKey bucket.bucketId key) bytes) ∧
    (forall (bucket : Uuid) (opts : ListOpts) (rows : List ListEntry) (row : ListEntry),
      (storage.run (FjallStore.list state.platform bucket.bucketId opts).run store).1 = .ok rows -> row ∈ rows ->
      Exists fun bytes => Exists fun entry => decodeEntry bytes = .ok entry ∧
        (row.value = none ∨ row.value = some entry.value) ∧
        WrittenThrough state events bucket.bucketId (dataStorageKey bucket.bucketId row.key) bytes) := by
  intro store
  have sound : Sound state.platform store := storeAfter_sound state events
  refine ⟨?_, ?_, ?_⟩
  · intro request bucket different
    have same := perform_sameEntries sound request different
    exact same.answers (Request.perform_sound sound (.bucket request)) sound
  · intro bucket key entry found
    rw [FjallStore.eval_get] at found
    cases present : store.data[dataStorageKey bucket.bucketId key]? with
    | none =>
        rw [present] at found
        cases found
    | some bytes =>
        rw [present] at found
        refine ⟨bytes, ?_, writtenThrough_of_entry state events bucket key present⟩
        cases decoded : decodeEntry bytes with
        | error error =>
            simp only [decoded] at found
            cases found
        | ok other =>
            simp only [decoded] at found
            cases found
            rfl
  · intro bucket opts rows row shown member
    rcases entry_of_listed sound shown member with ⟨bytes, entry, present, decoded, value⟩
    exact ⟨bytes, entry, decoded, value, writtenThrough_of_entry state events bucket row.key present⟩

end Keydock
