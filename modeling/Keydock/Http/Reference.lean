import Keydock.Foundation.Simulation
import Keydock.Http.Entitlement
import Keydock.Http.Isolation
import Keydock.Http.KeyListing

/-!
# What the service is for

The reference service has no bytes, no index and no locks: a policy for each
bucket, and for each bucket an ordered map from its keys to their entries.  A
sweep drops the entries that have expired.

The service over the flat keyspaces of the database refines it.  For every run
of requests and sweeps from an empty database the responses are those of the
reference, and requests that interleave at their storage calls go through the
same phases on both sides.
-/

namespace Keydock

open Effect

/-! ## The reference service -/

instance : Ord Key := ⟨compareOn Key.asBytes⟩

instance : Std.TransOrd Key := inferInstanceAs (Std.TransCmp (compareOn Key.asBytes))

instance : Std.LawfulEqOrd Key where
  eq_of_compare := fun same => Key.ext_bytes (Std.compare_eq_iff_eq.mp same)

/-- The entries of a bucket, in the order of their keys. -/
abbrev Entries := Std.ExtTreeMap Key StoredEntry

structure Reference where
  policies : BucketId -> Option BucketPolicy
  entries : BucketId -> Entries

/-- An entry as it is read back: its expiry in whole seconds. -/
def StoredEntry.kept (value : StoredValue) (expiresAt : Option OffsetDateTime) : StoredEntry :=
  ⟨value, expiresAt.map OffsetDateTime.floorSecond⟩

namespace Reference

def empty : Reference := ⟨fun _ => none, fun _ => ∅⟩

def setPolicy (service : Reference) (bucket : BucketId) (policy : Option BucketPolicy) : Reference :=
  { service with policies := Function.update service.policies bucket policy }

def setEntries (service : Reference) (bucket : BucketId) (entries : Entries) : Reference :=
  { service with entries := Function.update service.entries bucket entries }

def applyTxnOp (bucket : BucketId) (service : Reference) : TxnOp -> Reference
  | .set key value expiresAt =>
      service.setEntries bucket ((service.entries bucket).insert key (StoredEntry.kept value expiresAt))
  | .delete key => service.setEntries bucket ((service.entries bucket).erase key)

theorem entries_applyTxnOp (service : Reference) (bucket : BucketId) (op : TxnOp) (key : Key) :
    ((applyTxnOp bucket service op).entries bucket)[key]? =
      if op.key = key then
        match op with
        | .set _ value expiresAt => some (StoredEntry.kept value expiresAt)
        | .delete _ => none
      else (service.entries bucket)[key]? := by
  cases op with
  | set written value expiresAt =>
      simp only [applyTxnOp, setEntries, Function.update_self, Std.ExtTreeMap.getElem?_insert, Std.compare_eq_iff_eq]
      rfl
  | delete removed =>
      simp only [applyTxnOp, setEntries, Function.update_self, Std.ExtTreeMap.getElem?_erase, Std.compare_eq_iff_eq]
      rfl

theorem entries_applyTxnOp_of_ne {bucket other : BucketId} (different : other ≠ bucket) (service : Reference)
    (op : TxnOp) : (applyTxnOp bucket service op).entries other = service.entries other := by
  cases op <;> exact Function.update_of_ne different _ _

/-- The number an increment starts from: zero when there is no live entry. -/
def currentValue (now : OffsetDateTime) : Option StoredEntry -> Except UseCaseError CounterValue
  | none => .ok (.int 0)
  | some entry =>
      if entry.expiredAt now then .ok (.int 0)
      else (CounterValue.fromStored entry.value).mapError UseCaseError.domain

def mergedValue (now : OffsetDateTime) (found : Option StoredEntry) (op : CounterOp) :
    Except UseCaseError StoredValue :=
  match currentValue now found with
  | .error error => .error error
  | .ok current =>
      match op.apply current with
      | .error error => .error (.domain error)
      | .ok merged => merged.intoStored.mapError UseCaseError.domain

/-- The row of an entry in a listing, unless the prefix or the expiry leaves it
out. -/
def row (opts : ListOpts) (key : Key) (entry : StoredEntry) : Option ListEntry :=
  if (opts.keyPrefix.getD []).isPrefixOf key.asBytes && !opts.expiresBefore.any entry.expiredAt then
    some ⟨key, if opts.includeValues then some entry.value else none⟩
  else none

def rows (opts : ListOpts) (entries : Entries) : List ListEntry :=
  entries.toList.filterMap (fun entry => row opts entry.1 entry.2)

/-- Drop the entries that have expired. -/
def sweep (service : Reference) (now : OffsetDateTime) : Reference :=
  { service with entries := fun bucket => (service.entries bucket).filter (fun _ entry => !entry.expiredAt now) }

end Reference

/-- The meaning of the storage calls in the reference service.  A policy that
has no record form is refused, and a reverse listing whose buffer is not
granted fails. -/
def reference (platform : Platform) : Semantics storageOps Reference where
  exec
    | .getPolicy bucket, service => (.ok (service.policies bucket), service)
    | .createBucket bucket policy, service =>
        match encodePolicy platform policy with
        | .error error => (.error (.useCase error), service)
        | .ok _ => (.ok (), service.setPolicy bucket (some policy))
    | .deleteBucket bucket, service => (.ok (), service.setPolicy bucket none)
    | .get bucket key, service => (.ok (service.entries bucket)[key]?, service)
    | .set bucket key value expiresAt, service =>
        (.ok (), Reference.applyTxnOp bucket service (.set key value expiresAt))
    | .delete bucket key, service =>
        (.ok ((service.entries bucket)[key]?).isSome, Reference.applyTxnOp bucket service (.delete key))
    | .list bucket opts, service =>
        ((bufferOf platform opts).map (fun _ => selected opts (Reference.rows opts (service.entries bucket))), service)
    | .increment now bucket key op expiresAt, service =>
        match Reference.mergedValue now (service.entries bucket)[key]? op with
        | .error error => (.error (.useCase error), service)
        | .ok value => (.ok value, Reference.applyTxnOp bucket service (.set key value expiresAt))
    | .applyBatch bucket ops, service => (.ok (), ops.foldl (Reference.applyTxnOp bucket) service)

/-! ## Representation -/

/-- The database holds the policies and entries of the reference service. -/
structure Represents (platform : Platform) (store : Store) (service : Reference) : Prop where
  sound : Sound platform store
  policies : forall bucket, store.lookupPolicy platform bucket = .ok (service.policies bucket)
  entries : forall (id : Uuid) (key : Key),
    (store.data[dataStorageKey id.bucketId key]?).map decodeEntry = ((service.entries id.bucketId)[key]?).map .ok

namespace Represents

variable {platform : Platform} {store : Store} {service : Reference}

theorem empty : Represents platform Store.empty Reference.empty where
  sound := Sound.empty
  policies := fun bucket => by simp [Store.lookupPolicy, Store.empty, Reference.empty]
  entries := fun id key => by simp [Store.empty, Reference.empty]

/-- Both sides of an entry. -/
theorem entry_cases (linked : Represents platform store service) (id : Uuid) (key : Key) :
    (store.data[dataStorageKey id.bucketId key]? = none ∧ (service.entries id.bucketId)[key]? = none) ∨
    Exists fun value => Exists fun expiresAt =>
      store.data[dataStorageKey id.bucketId key]? = some (entryBytes value expiresAt) ∧
        (service.entries id.bucketId)[key]? = some (StoredEntry.kept value expiresAt) := by
  have same := linked.entries id key
  cases stored : store.data[dataStorageKey id.bucketId key]? with
  | none =>
      rw [stored, Option.map_none] at same
      exact .inl ⟨rfl, Option.map_eq_none_iff.mp same.symm⟩
  | some bytes =>
      rcases linked.sound.indexed.isEntry _ _ stored with ⟨value, expiresAt, rfl⟩
      rw [stored, Option.map_some, decodeEntry_entryBytes] at same
      rcases Option.map_eq_some_iff.mp same.symm with ⟨entry, found, equal⟩
      cases equal
      exact .inr ⟨value, expiresAt, rfl, found⟩

theorem applyTxnOp (linked : Represents platform store service) (id : Uuid) (op : TxnOp) :
    Represents platform (Store.applyTxnOp id.bucketId store op) (Reference.applyTxnOp id.bucketId service op) where
  sound := linked.sound.applyTxnOps id [op]
  policies := by
    intro bucket
    cases op <;> exact linked.policies bucket
  entries := by
    intro other key
    rw [applyTxnOp_data]
    by_cases here : other.bucketId = id.bucketId
    · rw [here, Reference.entries_applyTxnOp]
      by_cases same : op.key = key
      · rw [same, if_pos rfl, if_pos rfl]
        cases op with
        | set written value expiresAt => exact congrArg some (decodeEntry_entryBytes value expiresAt)
        | delete removed => rfl
      · rw [if_neg (fun equal => same (dataStorageKey_key_injective equal)), if_neg same]
        exact linked.entries id key
    · have apart : dataStorageKey id.bucketId op.key ≠ dataStorageKey other.bucketId key :=
        fun same => here (dataStorageKey_injective same).1.symm
      rw [if_neg apart, Reference.entries_applyTxnOp_of_ne here]
      exact linked.entries other key

theorem applyTxnOps (linked : Represents platform store service) (id : Uuid) (ops : List TxnOp) :
    Represents platform (ops.foldl (Store.applyTxnOp id.bucketId) store)
      (ops.foldl (Reference.applyTxnOp id.bucketId) service) := by
  induction ops generalizing store service with
  | nil => exact linked
  | cons op rest ih => exact ih (linked.applyTxnOp id op)

theorem setPolicy (linked : Represents platform store service) (id : Uuid) {policy : BucketPolicy} {bytes : Bytes}
    (encoded : encodePolicy platform policy = .ok bytes) :
    Represents platform (store.writePolicy id.bucketId bytes) (service.setPolicy id.bucketId (some policy)) where
  sound := linked.sound.writePolicy id encoded
  policies := by
    intro bucket
    by_cases here : bucket = id.bucketId
    · subst here
      rw [Store.lookupPolicy_writePolicy encoded]
      simp only [Reference.setPolicy, Function.update_self]
    · have apart : Bytes.utf8 id.bucketId.asStr ≠ Bytes.utf8 bucket.asStr :=
        fun same => here (BucketId.ext_str (Bytes.utf8_injective same)).symm
      have before := linked.policies bucket
      simp only [Reference.setPolicy, Function.update_of_ne here]
      simp only [Store.lookupPolicy, Store.writePolicy, Keyspace.get_insert, if_neg apart] at before ⊢
      exact before
  entries := linked.entries

theorem dropPolicy (linked : Represents platform store service) (bucket : BucketId) :
    Represents platform (store.dropPolicy bucket) (service.setPolicy bucket none) where
  sound := linked.sound.dropPolicy bucket
  policies := by
    intro other
    by_cases here : other = bucket
    · subst here
      simp only [Reference.setPolicy, Function.update_self, Store.lookupPolicy, Store.dropPolicy, Keyspace.get_remove,
        if_true]
    · have apart : Bytes.utf8 bucket.asStr ≠ Bytes.utf8 other.asStr :=
        fun same => here (BucketId.ext_str (Bytes.utf8_injective same)).symm
      have before := linked.policies other
      simp only [Reference.setPolicy, Function.update_of_ne here]
      simp only [Store.lookupPolicy, Store.dropPolicy, Keyspace.get_remove, if_neg apart] at before ⊢
      exact before
  entries := linked.entries

theorem sweep (linked : Represents platform store service) (now : OffsetDateTime) :
    Represents platform (store.sweep now) (service.sweep now) where
  sound := linked.sound.sweep now
  policies := by
    intro bucket
    have before := linked.policies bucket
    simp only [Store.lookupPolicy, linked.sound.indexed.sweep_metadata now] at before ⊢
    exact before
  entries := by
    intro id key
    rw [linked.sound.indexed.sweep_data now]
    simp only [Reference.sweep, Std.ExtTreeMap.getElem?_filter']
    rcases linked.entry_cases id key with ⟨missing, absent⟩ | ⟨value, expiresAt, stored, found⟩
    · rw [missing, absent]
      rfl
    · rw [stored, found, Option.filter_some, Option.filter_some, StoredEntry.kept, expiredAt_read]
      split
      · exact congrArg some (decodeEntry_entryBytes value expiresAt)
      · rfl

/-! ## Answers -/

theorem mergedValue (linked : Represents platform store service) (now : OffsetDateTime) (id : Uuid) (key : Key)
    (op : CounterOp) :
    Keydock.mergedValue now store.data[dataStorageKey id.bucketId key]? op =
      Reference.mergedValue now (service.entries id.bucketId)[key]? op := by
  have current : FjallStore.currentValue now store.data[dataStorageKey id.bucketId key]? =
      Reference.currentValue now (service.entries id.bucketId)[key]? := by
    rcases linked.entry_cases id key with ⟨missing, absent⟩ | ⟨value, expiresAt, stored, found⟩
    · rw [missing, absent]
      rfl
    · rw [stored, found]
      simp only [FjallStore.currentValue, decodeEntry_entryBytes]
      rfl
  unfold Keydock.mergedValue Reference.mergedValue
  rewrite [current]
  rfl

/-- Both listings as rows with the bytes of their keys. -/
theorem rows_eq (linked : Represents platform store service) (id : Uuid) (opts : ListOpts) :
    listed id.bucketId opts store.data = Reference.rows opts (service.entries id.bucketId) := by
  -- Each stored row stands for an entry and shows what the reference shows.
  have shown : forall storageKey bytes, (storageKey, bytes) ∈ store.data.scan (dataKeyPrefix id.bucketId opts.keyPrefix) ->
      Exists fun key => storageKey = dataStorageKey id.bucketId key ∧ Exists fun entry =>
        (service.entries id.bucketId)[key]? = some entry ∧
          FjallStore.visible id.bucketId opts storageKey bytes = Reference.row opts key entry := by
    intro storageKey bytes scanned
    rcases store.data.mem_scan.mp scanned with ⟨present, starts⟩
    rcases linked.sound.key_of_prefix present starts with ⟨key, rfl⟩
    refine ⟨key, rfl, ?_⟩
    rcases linked.entry_cases id key with ⟨missing, _⟩ | ⟨value, expiresAt, stored, found⟩
    · rw [missing] at present
      cases present
    · have coded : bytes = entryBytes value expiresAt := Option.some.inj (present.symm.trans stored)
      subst coded
      refine ⟨_, found, ?_⟩
      have inside : (opts.keyPrefix.getD []).isPrefixOf key.asBytes = true :=
        List.isPrefixOf_iff_prefix.mpr (prefix_dataStorageKey.mp starts)
      have hides : opts.hides (entryBytes value expiresAt) =
          opts.expiresBefore.any (StoredEntry.kept value expiresAt).expiredAt := by
        unfold ListOpts.hides StoredEntry.kept
        cases opts.expiresBefore with
        | none => rfl
        | some cutoff => exact (expiredAt_read cutoff value expiresAt).symm
      rw [visible_entryBytes, userKeyFromStorageKey_dataStorageKey, Option.bind_some, hides, Reference.row, inside]
      cases opts.expiresBefore.any (StoredEntry.kept value expiresAt).expiredAt <;> rfl
  let paired (row : ListEntry) : Bytes × ListEntry := (row.key.asBytes, row)
  have keyed : forall {key entry row}, Reference.row opts key entry = some row -> row.key = key := by
    intro key entry row made
    unfold Reference.row at made
    split at made
    · cases made
      rfl
    · cases made
  have storedSorted : ((listed id.bucketId opts store.data).map paired).Pairwise
      (fun first second => compare first.1 second.1 = .lt) := by
    rw [List.pairwise_map]
    have sorted := List.Pairwise.and_mem.mp (store.data.scan_ascending (dataKeyPrefix id.bucketId opts.keyPrefix))
    refine List.Pairwise.filterMap _ ?_ sorted
    rintro ⟨leftKey, leftBytes⟩ ⟨rightKey, rightBytes⟩ ⟨leftScanned, rightScanned, less⟩ first firstShown second
      secondShown
    rcases shown _ _ leftScanned with ⟨left, rfl, _, _, leftRow⟩
    rcases shown _ _ rightScanned with ⟨right, rfl, _, _, rightRow⟩
    simp only [dataStorageKey, Bytes.compare_append_left, List.compare_cons_cons, Std.compare_self] at less
    simp only [paired, keyed (leftRow.symm.trans firstShown), keyed (rightRow.symm.trans secondShown)]
    exact less
  have keptSorted : ((Reference.rows opts (service.entries id.bucketId)).map paired).Pairwise
      (fun first second => compare first.1 second.1 = .lt) := by
    rw [List.pairwise_map]
    refine List.Pairwise.filterMap _ ?_ (Std.ExtTreeMap.ordered_keys_toList (t := service.entries id.bucketId))
    intro left right less first firstShown second secondShown
    simp only [paired, keyed firstShown, keyed secondShown]
    exact less
  have same : (listed id.bucketId opts store.data).map paired =
      (Reference.rows opts (service.entries id.bucketId)).map paired := by
    refine Keyspace.ascending_unique storedSorted keptSorted (fun row => ?_)
    simp only [List.mem_map, listed, Reference.rows, List.mem_filterMap]
    refine exists_congr (fun listedRow => and_congr_left (fun _ => ?_))
    constructor
    · rintro ⟨⟨storageKey, bytes⟩, scanned, visible⟩
      rcases shown _ _ scanned with ⟨key, _, entry, found, same⟩
      exact ⟨(key, entry), Std.ExtTreeMap.mem_toList_iff_getElem?_eq_some.mpr found, same.symm.trans visible⟩
    · rintro ⟨⟨key, entry⟩, member, visible⟩
      have found := Std.ExtTreeMap.mem_toList_iff_getElem?_eq_some.mp member
      rcases linked.entry_cases id key with ⟨_, absent⟩ | ⟨value, expiresAt, stored, kept⟩
      · rw [absent] at found
        cases found
      · have starts : opts.keyPrefix.getD [] <+: key.asBytes := by
          unfold Reference.row at visible
          split at visible
          next both =>
            rw [Bool.and_eq_true] at both
            exact List.isPrefixOf_iff_prefix.mp both.1
          next => cases visible
        have scanned : (dataStorageKey id.bucketId key, entryBytes value expiresAt) ∈
            store.data.scan (dataKeyPrefix id.bucketId opts.keyPrefix) :=
          store.data.mem_scan.mpr ⟨stored, prefix_dataStorageKey.mpr starts⟩
        refine ⟨_, scanned, ?_⟩
        rcases shown _ _ scanned with ⟨other, named, otherEntry, otherFound, same⟩
        cases dataStorageKey_key_injective named
        rw [found] at otherFound
        cases otherFound
        exact same.trans visible
  exact List.map_injective_iff.mpr (fun _ _ equal => (Prod.mk.inj equal).2) same

end Represents

/-! ## Refinement -/

theorem reference_matches_getPolicy (platform : Platform) (bucket : BucketId) :
    (service platform).Matches (reference platform) (Represents platform) (.getPolicy bucket) := by
  intro store image linked
  rw [exec_getPolicy, linked.policies bucket]
  exact ⟨rfl, linked⟩

/-- Storage calls on a bucket of the service are matched by the reference. -/
theorem reference_matches (platform : Platform) {op : StorageOp} {id : Uuid} (named : op.bucket = id.bucketId) :
    (service platform).Matches (reference platform) (Represents platform) op := by
  intro store image linked
  cases op with
  | getPolicy bucket => exact reference_matches_getPolicy platform bucket store image linked
  | createBucket bucket policy =>
      have same : bucket = id.bucketId := named
      subst same
      rw [exec_createBucket]
      simp only [reference]
      cases encoded : encodePolicy platform policy with
      | error error => exact ⟨rfl, linked⟩
      | ok bytes => exact ⟨rfl, linked.setPolicy id encoded⟩
  | deleteBucket bucket =>
      rw [exec_deleteBucket]
      exact ⟨rfl, linked.dropPolicy bucket⟩
  | get bucket key =>
      have same : bucket = id.bucketId := named
      subst same
      change (joined (Adapter.eval (FjallStore.get id.bucketId key) store)).1 = Except.ok (image.entries id.bucketId)[key]? ∧
        Represents platform (Adapter.eval (FjallStore.get id.bucketId key) store).2 image
      rw [FjallStore.eval_get]
      rcases linked.entry_cases id key with ⟨missing, absent⟩ | ⟨value, expiresAt, stored, found⟩
      · rw [missing, absent]
        exact ⟨rfl, linked⟩
      · rw [stored, found]
        simp only [decodeEntry_entryBytes]
        exact ⟨rfl, linked⟩
  | set bucket key value expiresAt =>
      have same : bucket = id.bucketId := named
      subst same
      change (joined (Adapter.eval (FjallStore.set id.bucketId key value expiresAt) store)).1 = Except.ok () ∧
        Represents platform (Adapter.eval (FjallStore.set id.bucketId key value expiresAt) store).2 _
      rw [FjallStore.eval_set]
      exact ⟨rfl, linked.applyTxnOp id (.set key value expiresAt)⟩
  | delete bucket key =>
      have same : bucket = id.bucketId := named
      subst same
      change (joined (Adapter.eval (FjallStore.delete id.bucketId key) store)).1 =
          Except.ok ((image.entries id.bucketId)[key]?).isSome ∧
        Represents platform (Adapter.eval (FjallStore.delete id.bucketId key) store).2 _
      rw [FjallStore.eval_delete]
      refine ⟨?_, linked.applyTxnOp id (.delete key)⟩
      rcases linked.entry_cases id key with ⟨missing, absent⟩ | ⟨value, expiresAt, stored, found⟩
      · rw [missing, absent]
        rfl
      · rw [stored, found]
        rfl
  | list bucket opts =>
      have same : bucket = id.bucketId := named
      subst same
      refine ⟨?_, linked⟩
      change FjallStore.listRows platform id.bucketId opts
        ((store.data.scan (dataKeyPrefix id.bucketId opts.keyPrefix)).map .ok) = Except.map _ _
      rw [listRows_eq platform id.bucketId opts linked.sound.indexed.isEntry, linked.rows_eq id opts]
  | increment now bucket key op expiresAt =>
      have same : bucket = id.bucketId := named
      subst same
      change (joined (Adapter.eval (FjallStore.increment now id.bucketId key op expiresAt) store)).1 = _ ∧
        Represents platform (Adapter.eval (FjallStore.increment now id.bucketId key op expiresAt) store).2 _
      rw [FjallStore.eval_increment, linked.mergedValue now id key op]
      simp only [reference]
      cases Reference.mergedValue now (image.entries id.bucketId)[key]? op with
      | error error => exact ⟨rfl, linked⟩
      | ok value => exact ⟨rfl, linked.applyTxnOp id (.set key value expiresAt)⟩
  | applyBatch bucket ops =>
      have same : bucket = id.bucketId := named
      subst same
      change (joined (Adapter.eval (FjallStore.applyBatch id.bucketId ops) store)).1 = Except.ok () ∧
        Represents platform (Adapter.eval (FjallStore.applyBatch id.bucketId ops) store).2 _
      rw [FjallStore.eval_applyBatch]
      exact ⟨rfl, linked.applyTxnOps id ops⟩

/-- Every request is simulated: past its first lookup it asks only about a
bucket that has a policy, which is one the service created. -/
theorem Request.simulated (state : AppState) (request : Request) :
    (service state.platform).Simulated (reference state.platform) (Represents state.platform)
      (request.program state) := by
  cases request with
  | createBucket id form =>
      refine Semantics.Simulated.of_every (Program.Every.mono (program_rule state (.createBucket id form)) ?_)
      rintro op rest ⟨policy, rfl⟩
      exact reference_matches state.platform rfl
  | bucket request =>
      rw [BucketRequest.program_eq]
      intro store image linked
      rcases reference_matches_getPolicy state.platform request.bucketId store image linked with ⟨same, after⟩
      refine ⟨same, after, ?_⟩
      simp only [BucketRequest.admitted_lookup]
      cases accepted : request.authenticated state store with
      | error response => trivial
      | ok auth =>
          rcases request.authenticated_eq_ok accepted with ⟨policy, identity, found, _, rfl⟩
          rcases linked.sound.bucket_of_lookupPolicy found with ⟨id, named⟩
          have asks := serve_asks state request.clock request.bucket
            (BucketAuth.ofPolicy request.bucketId policy identity) request.route
          refine Semantics.Simulated.of_every (Program.Every.mono asks.respond ?_)
          intro op rest entitled
          exact reference_matches state.platform (entitled.bucket_eq.trans named)

namespace Reference

def perform (state : AppState) (service : Reference) (request : Request) : Response × Reference :=
  (reference state.platform).run (request.program state) service

/-- The responses of a run of the reference service, in order. -/
def responses (state : AppState) : Reference -> List Event -> List Response
  | _, [] => []
  | service, .sweep now :: rest => responses state (service.sweep now) rest
  | service, .request incoming :: rest =>
      (service.perform state incoming).1 :: responses state (service.perform state incoming).2 rest

/-- The reference service after a run. -/
def after (state : AppState) : Reference -> List Event -> Reference
  | service, [] => service
  | service, .sweep now :: rest => after state (service.sweep now) rest
  | service, .request incoming :: rest => after state (service.perform state incoming).2 rest

end Reference

theorem Represents.run {state : AppState} (events : List Event) {store : Store} {image : Reference}
    (linked : Represents state.platform store image) :
    responses state store events = Reference.responses state image events ∧
      Represents state.platform (events.foldl (Event.perform state) store) (Reference.after state image events) := by
  induction events generalizing store image with
  | nil => exact ⟨rfl, linked⟩
  | cons event rest ih =>
      cases event with
      | sweep now => exact ih (linked.sweep now)
      | request incoming =>
          rcases (incoming.simulated state).run linked with ⟨same, later⟩
          rcases ih later with ⟨others, final⟩
          refine ⟨?_, final⟩
          simp only [Keydock.responses, Reference.responses, Reference.perform, Request.perform, same]
          exact congrArg (List.cons _) others

/-- The service refines the reference.  In every run of requests and sweeps
from an empty database the responses are those of the reference service, and
the database ends up holding its policies and entries. -/
theorem service_refines_reference (state : AppState) (events : List Event) :
    responses state Store.empty events = Reference.responses state Reference.empty events ∧
      Represents state.platform (storeAfter state events) (Reference.after state Reference.empty events) :=
  Represents.empty.run events

/-- Refinement under interleaving.  From a database that represents a state of
the reference service, every schedule of concurrent requests goes through the
same phases over the reference: the same requests finish, with the same
responses, and the states correspond. -/
theorem interleaved_requests_refine_reference {ι : Type} [DecidableEq ι] (state : AppState) (requests : ι -> Request)
    (start : Store) (image : Reference) (linked : Represents state.platform start image) (schedule : List ι)
    (config : Config storageOps Store ι Empty Response)
    (run : Config.execute (service state.platform) (requestCalls state requests) (Config.initial start) schedule =
      some config) :
    Exists fun final => Config.execute (reference state.platform) (requestCalls state requests) (Config.initial image)
        schedule = some final ∧
      (forall i response, final.phase i = .finished response ↔ config.phase i = .finished response) ∧
      Represents state.platform config.shared final.shared := by
  rcases Config.execute_simulated (fun i => (requests i).simulated state) linked run with ⟨after, ended, related⟩
  exact ⟨_, ended, fun _ _ => Iff.rfl, related⟩

namespace OvertakenWrite

/-- The reference service after the creation of the bucket. -/
def image : Reference :=
  Reference.after Rotation.state Reference.empty
    [.request (.createBucket Rotation.id (.ok ⟨"a@b.c", some "s3cret", none, none, some "old", none⟩))]

theorem start_represents : Represents Rotation.state.platform Rotation.start image :=
  (Represents.empty.run [.request (.createBucket Rotation.id (.ok ⟨"a@b.c", some "s3cret", none, none, some "old",
    none⟩))]).2

end OvertakenWrite

open OvertakenWrite in
open Rotation (state start answer finished_of_answer) in
/-- The deletion that overtakes a write is acknowledged on both sides. -/
theorem overtaken_write_refines :
    Exists fun final => Config.execute (reference state.platform) (requestCalls state requests) (Config.initial image)
        schedule = some final ∧ final.phase true = .finished (Response.ofStatus 204) := by
  have ended : reached.map (fun config => answer (config.phase true)) = some (some (Response.ofStatus 204)) := by
    decide +kernel
  rcases Option.map_eq_some_iff.mp ended with ⟨config, arrived, answered⟩
  rcases interleaved_requests_refine_reference state requests start image start_represents schedule config arrived with
    ⟨final, moved, phases, _⟩
  exact ⟨final, moved, (phases true _).mpr (finished_of_answer answered)⟩

end Keydock
