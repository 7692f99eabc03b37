import Keydock.Http.Effects

/-!
# Runs of the server

A run is a sequence of requests and sweeps from an empty store, each performed
without interruption.  Its invariant: the expiry index covers the data, every
bucket record is named by an identifier the service drew and decodes, and
every stored key belongs to such a bucket.
-/

namespace Keydock

open Effect Handler

inductive Event
  | request (incoming : Request)
  | sweep (now : OffsetDateTime)

namespace Event

def perform (state : AppState) (store : Store) : Event -> Store
  | .request incoming => (incoming.perform state store).2
  | .sweep now => store.sweep now

/-- Stated so that no proof has to run the request to see it. -/
theorem perform_request (state : AppState) (store : Store) (request : Request) :
    perform state store (.request request) = (request.perform state store).2 := rfl

end Event

/-- The store after a run. -/
def storeAfter (state : AppState) (events : List Event) : Store :=
  events.foldl (Event.perform state) Store.empty

theorem storeAfter_append (state : AppState) (first second : List Event) :
    storeAfter state (first ++ second) = second.foldl (Event.perform state) (storeAfter state first) :=
  List.foldl_append

theorem storeAfter_snoc (state : AppState) (events : List Event) (event : Event) :
    storeAfter state (events ++ [event]) = event.perform state (storeAfter state events) :=
  storeAfter_append state events [event]

/-! ## Who acts -/

/-- Authentication succeeds exactly under a stored policy against which the
presented credential resolves. -/
theorem BucketRequest.authenticated_eq_ok {state : AppState} {request : BucketRequest} {store : Store}
    {auth : BucketAuth} (resolved : request.authenticated state store = .ok auth) :
    Exists fun policy => Exists fun identity =>
      store.lookupPolicy state.platform request.bucketId = .ok (some policy) ∧
      resolve state.platform request.credential policy request.bucketId state.rootKey (request.clock 0) =
        .ok identity ∧
      auth = BucketAuth.ofPolicy request.bucketId policy identity := by
  unfold BucketRequest.authenticated at resolved
  split at resolved
  next => cases resolved
  next => cases resolved
  next policy found =>
    unfold BucketAuth.authenticate at resolved
    split at resolved
    next => cases resolved
    next identity accepted =>
      cases resolved
      exact ⟨policy, identity, found, accepted, rfl⟩

theorem Store.record_of_lookupPolicy {platform : Platform} {store : Store} {bucket : BucketId}
    {policy : BucketPolicy} (found : store.lookupPolicy platform bucket = .ok (some policy)) :
    Exists fun bytes => store.metadata[Bytes.utf8 bucket.asStr]? = some bytes ∧
      decodePolicy platform bytes = .ok policy := by
  unfold Store.lookupPolicy at found
  split at found
  next => cases found
  next bytes present =>
    refine ⟨bytes, present, ?_⟩
    cases decoded : decodePolicy platform bytes with
    | error error => rw [decoded] at found; cases found
    | ok other =>
        rw [decoded] at found
        cases found
        rfl

/-! ## Batches -/

section Batches

variable {bucket : BucketId} {storageKey : Bytes}

theorem applyTxnOp_data (store : Store) (op : TxnOp) :
    (Store.applyTxnOp bucket store op).data[storageKey]? =
      if dataStorageKey bucket op.key = storageKey then
        match op with
        | .set _ value expiresAt => some (entryBytes value expiresAt)
        | .delete _ => none
      else store.data[storageKey]? := by
  cases op with
  | set key value expiresAt => exact Keyspace.get_insert _ _ _ _
  | delete key => exact Keyspace.get_remove _ _ _

@[simp] theorem applyTxnOps_metadata (ops : List TxnOp) (store : Store) :
    (ops.foldl (Store.applyTxnOp bucket) store).metadata = store.metadata := by
  induction ops generalizing store with
  | nil => rfl
  | cons op rest ih =>
      rw [List.foldl_cons, ih]
      cases op <;> rfl

/-- An entry that a batch changes was written or removed by one of its
operations, the last one on that key. -/
theorem applyTxnOps_changed (ops : List TxnOp) (store : Store)
    (changed : (ops.foldl (Store.applyTxnOp bucket) store).data[storageKey]? ≠ store.data[storageKey]?) :
    Exists fun op => op ∈ ops ∧ dataStorageKey bucket op.key = storageKey ∧
      (ops.foldl (Store.applyTxnOp bucket) store).data[storageKey]? =
        match op with
        | .set _ value expiresAt => some (entryBytes value expiresAt)
        | .delete _ => none := by
  induction ops generalizing store with
  | nil => exact False.elim (changed rfl)
  | cons op rest ih =>
      rw [List.foldl_cons] at changed ⊢
      by_cases later : (rest.foldl (Store.applyTxnOp bucket) (Store.applyTxnOp bucket store op)).data[storageKey]? =
          (Store.applyTxnOp bucket store op).data[storageKey]?
      · rw [later, applyTxnOp_data] at changed ⊢
        by_cases here : dataStorageKey bucket op.key = storageKey
        · rw [if_pos here]
          exact ⟨op, List.mem_cons_self, here, rfl⟩
        · rw [if_neg here] at changed
          exact False.elim (changed rfl)
      · rcases ih _ later with ⟨other, member, same, result⟩
        exact ⟨other, List.mem_cons_of_mem op member, same, result⟩

/-- An entry after a batch stood there before or was set by the batch. -/
theorem applyTxnOps_origin {ops : List TxnOp} {store : Store} {bytes : Bytes}
    (present : (ops.foldl (Store.applyTxnOp bucket) store).data[storageKey]? = some bytes) :
    store.data[storageKey]? = some bytes ∨
      Exists fun key => Exists fun value => Exists fun expiresAt => .set key value expiresAt ∈ ops ∧
        storageKey = dataStorageKey bucket key ∧ bytes = entryBytes value expiresAt := by
  by_cases same : (ops.foldl (Store.applyTxnOp bucket) store).data[storageKey]? = store.data[storageKey]?
  · rw [same] at present
    exact .inl present
  · rcases applyTxnOps_changed ops store same with ⟨op, member, addressed, result⟩
    rw [present] at result
    cases op with
    | set key value expiresAt =>
        exact .inr ⟨key, value, expiresAt, member, addressed.symm, Option.some.inj result⟩
    | delete key => cases result

end Batches

/-! ## The invariant -/

structure Sound (platform : Platform) (store : Store) : Prop where
  indexed : Indexed store
  policies : forall (name bytes : Bytes), store.metadata[name]? = some bytes ->
    Exists fun id : Uuid => Exists fun policy => name = Bytes.utf8 id.bucketId.asStr ∧
      encodePolicy platform policy = .ok bytes
  owned : forall (storageKey bytes : Bytes), store.data[storageKey]? = some bytes ->
    Exists fun id : Uuid => Exists fun key => storageKey = dataStorageKey id.bucketId key

namespace Sound

variable {platform : Platform} {store : Store}

theorem empty : Sound platform Store.empty where
  indexed := Indexed.empty
  policies := by
    intro name bytes present
    simp [Store.empty] at present
  owned := by
    intro storageKey bytes present
    simp [Store.empty] at present

/-- A bucket with a policy is one the service created. -/
theorem bucket_of_lookupPolicy (sound : Sound platform store) {bucket : BucketId} {policy : BucketPolicy}
    (found : store.lookupPolicy platform bucket = .ok (some policy)) :
    Exists fun id : Uuid => bucket = id.bucketId := by
  rcases Store.record_of_lookupPolicy found with ⟨bytes, present, _⟩
  rcases sound.policies _ _ present with ⟨id, _, same, _⟩
  exact ⟨id, BucketId.ext_str (Bytes.utf8_injective same)⟩

theorem applyTxnOps (sound : Sound platform store) (id : Uuid) (ops : List TxnOp) :
    Sound platform (ops.foldl (Store.applyTxnOp id.bucketId) store) where
  indexed := sound.indexed.applyTxnOps id.bucketId ops
  policies := by
    rw [applyTxnOps_metadata]
    exact sound.policies
  owned := by
    intro storageKey bytes present
    by_cases same : (ops.foldl (Store.applyTxnOp id.bucketId) store).data[storageKey]? = store.data[storageKey]?
    · exact sound.owned storageKey bytes (same ▸ present)
    · rcases applyTxnOps_changed ops store same with ⟨op, _, named, _⟩
      exact ⟨id, op.key, named.symm⟩

theorem writePolicy (sound : Sound platform store) (id : Uuid) {policy : BucketPolicy} {bytes : Bytes}
    (encoded : encodePolicy platform policy = .ok bytes) :
    Sound platform (store.writePolicy id.bucketId bytes) where
  indexed := sound.indexed.congr rfl rfl
  policies := by
    intro name found present
    simp only [Store.writePolicy, Keyspace.get_insert] at present
    split at present
    next same =>
      cases present
      exact ⟨id, policy, same.symm, encoded⟩
    next => exact sound.policies name found present
  owned := sound.owned

theorem dropPolicy (sound : Sound platform store) (bucket : BucketId) :
    Sound platform (store.dropPolicy bucket) where
  indexed := sound.indexed.congr rfl rfl
  policies := by
    intro name found present
    simp only [Store.dropPolicy, Keyspace.get_remove] at present
    split at present
    next => cases present
    next => exact sound.policies name found present
  owned := sound.owned

theorem permitted {state : AppState} (sound : Sound state.platform store) {auth : BucketAuth} {after : Store}
    {id : Uuid} (addressed : auth.bucketId = id.bucketId) (change : Permitted state auth store after) :
    Sound state.platform after := by
  cases change with
  | batch ops allowed =>
      rw [addressed]
      exact sound.applyTxnOps id ops
  | writePolicy admin found applied encoded =>
      rw [addressed]
      exact sound.writePolicy id encoded
  | dropPolicy admin => exact sound.dropPolicy auth.bucketId

theorem sweep (sound : Sound platform store) (now : OffsetDateTime) : Sound platform (store.sweep now) where
  indexed := sound.indexed.sweep now
  policies := by
    rw [sound.indexed.sweep_metadata now]
    exact sound.policies
  owned := by
    intro storageKey bytes present
    rw [sound.indexed.sweep_data now storageKey] at present
    exact sound.owned storageKey bytes (Option.filter_eq_some_iff.mp present).1

end Sound

theorem Request.perform_sound {state : AppState} {store : Store} (sound : Sound state.platform store)
    (request : Request) : Sound state.platform (request.perform state store).2 := by
  cases request with
  | createBucket fresh form =>
      rcases createBucket_cases state fresh form store with same | ⟨_, policy, bytes, _, encoded, _, same⟩
      · rw [same]
        exact sound
      · rw [same]
        exact sound.writePolicy fresh encoded
  | bucket request =>
      rcases request.perform_cases state store with same | ⟨auth, resolved, _, change⟩
      · rw [same]
        exact sound
      · rcases request.authenticated_eq_ok resolved with ⟨policy, identity, found, _, rfl⟩
        rcases sound.bucket_of_lookupPolicy found with ⟨id, addressed⟩
        exact sound.permitted addressed change

theorem Event.perform_sound {state : AppState} {store : Store} (sound : Sound state.platform store)
    (event : Event) : Sound state.platform (event.perform state store) := by
  cases event with
  | request incoming => exact incoming.perform_sound sound
  | sweep now => exact sound.sweep now

/-- Only a request below a bucket puts an entry where it did not stand before. -/
theorem Event.data_origin {state : AppState} {store : Store} (sound : Sound state.platform store) {event : Event}
    {storageKey bytes : Bytes} (present : (event.perform state store).data[storageKey]? = some bytes) :
    store.data[storageKey]? = some bytes ∨ Exists fun request => event = .request (.bucket request) := by
  cases event with
  | sweep now =>
      have swept : (store.sweep now).data[storageKey]? = some bytes := present
      rw [sound.indexed.sweep_data, Option.filter_eq_some_iff] at swept
      exact .inl swept.1
  | request incoming =>
      cases incoming with
      | bucket request => exact .inr ⟨request, rfl⟩
      | createBucket fresh form =>
          have data : ((Request.createBucket fresh form).perform state store).2.data = store.data := by
            rcases createBucket_cases state fresh form store with same | ⟨_, _, _, _, _, _, written⟩
            · rw [same]
            · rw [written]
              rfl
          have before : ((Request.createBucket fresh form).perform state store).2.data[storageKey]? = some bytes :=
            present
          rw [data] at before
          exact .inl before

theorem foldl_sound {state : AppState} (events : List Event) {store : Store} (sound : Sound state.platform store) :
    Sound state.platform (events.foldl (Event.perform state) store) := by
  induction events generalizing store with
  | nil => exact sound
  | cons event rest ih => exact ih (event.perform_sound sound)

/-- The invariant of every run. -/
theorem storeAfter_sound (state : AppState) (events : List Event) : Sound state.platform (storeAfter state events) :=
  foldl_sound events Sound.empty

end Keydock
