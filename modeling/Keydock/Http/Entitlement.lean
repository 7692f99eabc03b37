import Keydock.Http.Deletion
import Keydock.Http.ScopedListing

/-!
# Every storage call is entitled

A handler asks the store only for what the identity that its authentication
resolved may do, on the bucket its path names.  This is a property of the
program of a request and not of a run of it, so it holds at every point of
every interleaving.  What it refers to is the policy that the request itself
found when it authenticated, an earlier state of the same run.
-/

namespace Keydock

open Effect Handler

/-- A listing stays inside the scope of the identity. -/
def ListOpts.Inside (opts : ListOpts) : ResolvedIdentity -> Prop
  | .scoped _ scope => forall key : Key, opts.keyPrefix.getD [] <+: key.asBytes -> scope <+: key.asBytes
  | .anonymous | .admin => True

/-- The identity may ask this of the store. -/
def StorageOp.Entitled (auth : BucketAuth) : StorageOp -> Prop
  | .getPolicy bucket => bucket = auth.bucketId
  | .createBucket bucket _ | .deleteBucket bucket => bucket = auth.bucketId ∧ auth.requireAdmin = .ok ()
  | .get bucket key => bucket = auth.bucketId ∧ auth.requireReadOn key = .ok ()
  | .set bucket key _ _ | .increment _ bucket key _ _ => bucket = auth.bucketId ∧ auth.requireWriteOn key = .ok ()
  | .delete bucket key => bucket = auth.bucketId ∧ auth.requireDeleteOn key = .ok ()
  | .list bucket opts => bucket = auth.bucketId ∧ auth.requireEnumerate = .ok () ∧ opts.Inside auth.identity
  | .applyBatch bucket ops => bucket = auth.bucketId ∧ forall op, op ∈ ops -> op.Allowed auth

/-! ## Handlers -/

/-- The task makes only allowed storage calls. -/
def Task.Asks {α : Type} (allowed : StorageOp -> Prop) (task : Task α) : Prop :=
  task.run.Every (fun op _ => allowed op)

namespace Handler

variable {α β : Type} {allowed : StorageOp -> Prop}

/-- The handler makes only allowed storage calls. -/
def Asks (allowed : StorageOp -> Prop) (handler : Handler α) : Prop :=
  handler.run.Every (fun op _ => allowed op)

theorem asks_known (outcome : Except Response α) : (known outcome).Asks allowed := trivial

theorem asks_pure (value : α) : Asks allowed (pure value) := trivial

/-- What follows a check may rely on it. -/
theorem asks_check {outcome : Except Response α} {next : α -> Handler β}
    (rest : forall value, outcome = .ok value -> (next value).Asks allowed) : Asks allowed (known outcome >>= next) := by
  cases outcome with
  | error response => trivial
  | ok value => exact rest value rfl

theorem asks_orReject {response : Response} {found : Option α} {next : α -> Handler β}
    (rest : forall value, found = some value -> (next value).Asks allowed) :
    Asks allowed (orReject response found >>= next) := by
  cases found with
  | none => trivial
  | some value => exact rest value rfl

theorem asks_spawn {task : Task α} {next : α -> Handler β} (asks : task.Asks allowed)
    (rest : forall value, (next value).Asks allowed) : Asks allowed (spawnUsecase task >>= next) := by
  unfold Asks spawnUsecase
  rw [ExceptT.run_bind, ExceptT.run_mk, bind_assoc]
  refine Program.Every.bind asks (fun _ _ entitled => entitled) (fun outcome => ?_)
  cases outcome with
  | error error => trivial
  | ok value => exact rest value

theorem Asks.respond {handler : Handler Response} (asks : handler.Asks allowed) :
    handler.respond.Every (fun op _ => allowed op) := by
  refine Program.Every.bind asks (fun _ _ entitled => entitled) (fun outcome => ?_)
  cases outcome <;> trivial

end Handler

namespace Task

variable {allowed : StorageOp -> Prop}

theorem asks_get {now : OffsetDateTime} {bucket : BucketId} {key : Key} (entitled : allowed (.get bucket key)) :
    (KeyService.get now bucket key).Asks allowed := by
  refine ⟨entitled, fun found => ?_⟩
  cases found with
  | error error => trivial
  | ok found =>
      cases found with
      | none => trivial
      | some entry =>
          change Program.Every _ (ExceptT.run (if entry.expiredAt now then _ else _))
          split <;> trivial

theorem asks_set {platform : Platform} {now : OffsetDateTime} {bucket : BucketId} {key : Key} {body : Bytes}
    {contentType : Option String} {ttlOverride defaultTtl : Option UInt64}
    (entitled : forall value expiresAt, allowed (.set bucket key value expiresAt)) :
    (KeyService.set platform now bucket key body contentType ttlOverride defaultTtl).Asks allowed := by
  unfold KeyService.set
  cases KeyService.inferStoredValue platform body contentType with
  | error error => trivial
  | ok value =>
      cases KeyService.resolveTtl now ttlOverride defaultTtl with
      | error error => trivial
      | ok expiresAt =>
          refine ⟨entitled value expiresAt, fun outcome => ?_⟩
          cases outcome <;> trivial

theorem asks_increment {now storeNow : OffsetDateTime} {bucket : BucketId} {key : Key} {op : CounterOp}
    {ttlOverride defaultTtl : Option UInt64}
    (entitled : forall expiresAt, allowed (.increment storeNow bucket key op expiresAt)) :
    (KeyService.increment now storeNow bucket key op ttlOverride defaultTtl).Asks allowed := by
  unfold KeyService.increment
  cases KeyService.resolveTtl now ttlOverride defaultTtl with
  | error error => trivial
  | ok expiresAt => exact ⟨entitled expiresAt, fun _ => trivial⟩

theorem asks_delete {bucket : BucketId} {key : Key} (entitled : allowed (.delete bucket key)) :
    (KeyService.delete bucket key).Asks allowed := by
  refine ⟨entitled, fun outcome => ?_⟩
  cases outcome with
  | error error => trivial
  | ok present => cases present <;> trivial

end Task

/-- A narrowed prefix stays inside the scope. -/
theorem inside_of_prefixForRepo {identity : ResolvedIdentity} {requested : Option String} {keyPrefix : Option Bytes}
    (narrowed : prefixForRepo identity requested = some keyPrefix) {opts : ListOpts} (same : opts.keyPrefix = keyPrefix) :
    opts.Inside identity := by
  cases identity with
  | anonymous | admin => trivial
  | «scoped» permissions scope =>
      intro key starts
      rw [same] at starts
      exact ((prefix_iff_of_prefixForRepo narrowed key.asBytes).mp starts).1

/-- Every route makes only storage calls that its identity is entitled to. -/
theorem serve_asks (state : AppState) (clock : Clock) (bucket : Segment) (auth : BucketAuth) (route : Route) :
    (route.serve state clock bucket auth).Asks (StorageOp.Entitled auth) := by
  cases route with
  | getKey key | headKey key =>
      refine asks_check (fun raw _ => asks_check (fun key _ => asks_check (fun _ readable => ?_)))
      exact asks_spawn (Task.asks_get ⟨rfl, readable⟩) (fun entry => asks_pure _)
  | putKey key ttl contentType body =>
      refine asks_check (fun raw _ => asks_check (fun ttl _ => asks_check (fun body _ => ?_)))
      refine asks_check (fun key _ => asks_check (fun _ writable => ?_))
      exact asks_spawn (Task.asks_set (fun _ _ => ⟨rfl, writable⟩)) (fun value => asks_pure _)
  | deleteKey key =>
      refine asks_check (fun raw _ => asks_check (fun key _ => asks_check (fun _ deletable => ?_)))
      exact asks_spawn (Task.asks_delete ⟨rfl, deletable⟩) (fun _ => asks_pure _)
  | patchKey key ttl body =>
      refine asks_check (fun raw _ => asks_check (fun ttl _ => asks_check (fun body _ => ?_)))
      refine asks_check (fun key _ => asks_check (fun _ writable => asks_check (fun op _ => ?_)))
      exact asks_spawn (Task.asks_increment (fun _ => ⟨rfl, writable⟩)) (fun value => asks_pure _)
  | executeTxn body =>
      refine asks_check (fun body _ => asks_orReject (fun txn _ => ?_))
      by_cases nothing : txn.isEmpty = true
      · rw [if_pos nothing]
        exact asks_known _
      · rw [if_neg nothing]
        refine asks_check (fun ops prepared => ?_)
        exact asks_spawn ⟨⟨rfl, prepareItems_allowed prepared⟩, fun _ => trivial⟩ (fun _ => asks_pure _)
  | listBucket params accept =>
      refine asks_check (fun params _ => asks_check (fun _ enumerable => asks_check (fun format _ => ?_)))
      cases narrowed : prefixForRepo auth.identity params.keyPrefix with
      | none => exact asks_known _
      | some keyPrefix =>
          have inside : ListOpts.Inside (KeyService.listOpts (clock 1) ⟨keyPrefix, params.limit, params.skip,
              params.reverse, some (params.values.getD false)⟩) auth.identity := inside_of_prefixForRepo narrowed rfl
          exact asks_spawn ⟨⟨rfl, enumerable, inside⟩, fun _ => trivial⟩ (fun entries => asks_known _)
  | createToken form =>
      refine asks_check (fun form _ => asks_check (fun _ _ => asks_spawn ⟨rfl, fun _ => trivial⟩ (fun found => ?_)))
      refine asks_orReject (fun policy _ => asks_orReject (fun signingKey _ => asks_check (fun claims _ => ?_)))
      exact asks_check (fun accessToken _ => asks_pure _)
  | updatePolicy body =>
      refine asks_check (fun body _ => asks_check (fun _ admin => asks_orReject (fun patch _ => ?_)))
      refine asks_spawn ⟨rfl, fun _ => trivial⟩ (fun found => asks_orReject (fun policy _ => ?_))
      exact asks_check (fun policy _ => asks_spawn ⟨⟨rfl, admin⟩, fun _ => trivial⟩ (fun _ => asks_pure _))
  | deleteBucket slash =>
      exact asks_check (fun _ admin => asks_spawn ⟨⟨rfl, admin⟩, fun _ => trivial⟩ (fun _ => asks_pure _))
  | getBucketPolicy =>
      refine asks_check (fun _ _ => asks_spawn ⟨rfl, fun _ => trivial⟩ (fun found => ?_))
      exact asks_orReject (fun policy _ => asks_pure _)
  | headBucket => exact asks_check (fun _ _ => asks_pure _)

/-! ## Storage calls on a bucket of the service -/

namespace StorageOp

/-- The bucket a storage call is about. -/
def bucket : StorageOp -> BucketId
  | .getPolicy bucket | .createBucket bucket _ | .deleteBucket bucket | .get bucket _ | .set bucket _ _ _
  | .delete bucket _ | .list bucket _ | .increment _ bucket _ _ _ | .applyBatch bucket _ => bucket

theorem Entitled.bucket_eq {auth : BucketAuth} {op : StorageOp} (entitled : op.Entitled auth) :
    op.bucket = auth.bucketId := by
  cases op with
  | getPolicy bucket => exact entitled
  | _ => exact entitled.1

end StorageOp

/-- What a storage call does to the store. -/
inductive Exec (platform : Platform) (store : Store) : StorageOp -> Store -> Prop
  | unchanged (op : StorageOp) : Exec platform store op store
  | writePolicy {bucket : BucketId} {policy : BucketPolicy} {bytes : Bytes}
      (encoded : encodePolicy platform policy = .ok bytes) :
      Exec platform store (.createBucket bucket policy) (store.writePolicy bucket bytes)
  | dropPolicy (bucket : BucketId) : Exec platform store (.deleteBucket bucket) (store.dropPolicy bucket)
  | set (bucket : BucketId) (key : Key) (value : StoredValue) (expiresAt : Option OffsetDateTime) :
      Exec platform store (.set bucket key value expiresAt) (Store.applyTxnOp bucket store (.set key value expiresAt))
  | delete (bucket : BucketId) (key : Key) :
      Exec platform store (.delete bucket key) (Store.applyTxnOp bucket store (.delete key))
  | increment (now : OffsetDateTime) (bucket : BucketId) (key : Key) (op : CounterOp)
      (expiresAt : Option OffsetDateTime) (value : StoredValue) :
      Exec platform store (.increment now bucket key op expiresAt)
        (Store.applyTxnOp bucket store (.set key value expiresAt))
  | applyBatch (bucket : BucketId) (ops : List TxnOp) :
      Exec platform store (.applyBatch bucket ops) (ops.foldl (Store.applyTxnOp bucket) store)

theorem exec_cases (platform : Platform) (store : Store) (op : StorageOp) :
    Exec platform store op ((service platform).exec op store).2 := by
  cases op with
  | getPolicy bucket =>
      rw [exec_getPolicy]
      exact .unchanged _
  | createBucket bucket policy =>
      rw [exec_createBucket]
      split
      next => exact .unchanged _
      next bytes encoded => exact .writePolicy encoded
  | deleteBucket bucket => exact .dropPolicy bucket
  | get bucket key =>
      change Exec platform store _ (Adapter.eval (FjallStore.get bucket key) store).2
      rw [FjallStore.eval_get]
      split <;> exact .unchanged _
  | set bucket key value expiresAt =>
      change Exec platform store _ (Adapter.eval (FjallStore.set bucket key value expiresAt) store).2
      rw [FjallStore.eval_set]
      exact .set bucket key value expiresAt
  | delete bucket key =>
      change Exec platform store _ (Adapter.eval (FjallStore.delete bucket key) store).2
      rw [FjallStore.eval_delete]
      exact .delete bucket key
  | list bucket opts => exact .unchanged _
  | increment now bucket key op expiresAt =>
      change Exec platform store _ (Adapter.eval (FjallStore.increment now bucket key op expiresAt) store).2
      rw [FjallStore.eval_increment]
      split
      · exact .unchanged _
      · exact .increment now bucket key op expiresAt _
  | applyBatch bucket ops =>
      change Exec platform store _ (Adapter.eval (FjallStore.applyBatch bucket ops) store).2
      rw [FjallStore.eval_applyBatch]
      exact .applyBatch bucket ops

/-- A storage call on a bucket of the service keeps the invariant. -/
theorem Sound.exec {platform : Platform} {store : Store} (sound : Sound platform store) {op : StorageOp} {id : Uuid}
    (named : op.bucket = id.bucketId) : Sound platform ((service platform).exec op store).2 := by
  have made := exec_cases platform store op
  generalize ((service platform).exec op store).2 = after at made
  cases made with
  | unchanged => exact sound
  | writePolicy encoded =>
      cases named
      exact sound.writePolicy id encoded
  | dropPolicy bucket => exact sound.dropPolicy bucket
  | set bucket key value expiresAt =>
      cases named
      exact sound.applyTxnOps id [.set key value expiresAt]
  | delete bucket key =>
      cases named
      exact sound.applyTxnOps id [.delete key]
  | increment now bucket key op expiresAt value =>
      cases named
      exact sound.applyTxnOps id [.set key value expiresAt]
  | applyBatch bucket ops =>
      cases named
      exact sound.applyTxnOps id ops

/-- An entry that an entitled storage call changes is one of the bucket, and
the identity may write or remove it. -/
theorem StorageOp.Entitled.entry_changed {platform : Platform} {store : Store} {auth : BucketAuth} {op : StorageOp}
    (entitled : op.Entitled auth) {id bucket : Uuid} (named : auth.bucketId = id.bucketId) {key : Key}
    (changed : ((service platform).exec op store).2.data[dataStorageKey bucket.bucketId key]? ≠
      store.data[dataStorageKey bucket.bucketId key]?) :
    auth.bucketId = bucket.bucketId ∧
      match ((service platform).exec op store).2.data[dataStorageKey bucket.bucketId key]? with
      | some _ => auth.requireWriteOn key = .ok ()
      | none => auth.requireDeleteOn key = .ok () := by
  -- All changes of entries are batches of allowed operations.
  have batch : forall ops : List TxnOp, (forall op, op ∈ ops -> op.Allowed auth) ->
      (ops.foldl (Store.applyTxnOp auth.bucketId) store).data[dataStorageKey bucket.bucketId key]? ≠
        store.data[dataStorageKey bucket.bucketId key]? ->
      auth.bucketId = bucket.bucketId ∧
        match (ops.foldl (Store.applyTxnOp auth.bucketId) store).data[dataStorageKey bucket.bucketId key]? with
        | some _ => auth.requireWriteOn key = .ok ()
        | none => auth.requireDeleteOn key = .ok () := by
    intro ops allowed differs
    rcases applyTxnOps_changed ops store differs with ⟨op, member, addressed, result⟩
    rw [named] at addressed
    rcases dataStorageKey_injective addressed with ⟨sameBucket, sameKey⟩
    refine ⟨named.trans sameBucket, ?_⟩
    have permitted := allowed op member
    rw [result]
    cases op with
    | set written value expiresAt =>
        cases sameKey
        exact permitted
    | delete removed =>
        cases sameKey
        exact permitted
  have made := exec_cases platform store op
  generalize ((service platform).exec op store).2 = after at made changed
  cases made with
  | unchanged => exact False.elim (changed rfl)
  | writePolicy encoded => exact False.elim (changed rfl)
  | dropPolicy bucket => exact False.elim (changed rfl)
  | set written key value expiresAt =>
      cases entitled.1
      exact batch [.set key value expiresAt] (List.forall_mem_singleton.mpr entitled.2) changed
  | delete written key =>
      cases entitled.1
      exact batch [.delete key] (List.forall_mem_singleton.mpr entitled.2) changed
  | increment now written key op expiresAt value =>
      cases entitled.1
      exact batch [.set key value expiresAt] (List.forall_mem_singleton.mpr entitled.2) changed
  | applyBatch written ops =>
      cases entitled.1
      exact batch ops entitled.2 changed

/-- Records change only under an administrator. -/
theorem StorageOp.Entitled.record_changed {platform : Platform} {store : Store} {auth : BucketAuth} {op : StorageOp}
    (entitled : op.Entitled auth) {name : Bytes}
    (changed : ((service platform).exec op store).2.metadata[name]? ≠ store.metadata[name]?) :
    name = Bytes.utf8 auth.bucketId.asStr ∧ auth.requireAdmin = .ok () := by
  have made := exec_cases platform store op
  generalize ((service platform).exec op store).2 = after at made changed
  cases made with
  | unchanged => exact False.elim (changed rfl)
  | writePolicy encoded =>
      rcases entitled with ⟨rfl, admin⟩
      refine ⟨?_, admin⟩
      by_contra different
      exact changed (by simp only [Store.writePolicy, Keyspace.get_insert, if_neg (Ne.symm different)])
  | dropPolicy bucket =>
      rcases entitled with ⟨rfl, admin⟩
      refine ⟨?_, admin⟩
      by_contra different
      exact changed (by simp only [Store.dropPolicy, Keyspace.get_remove, if_neg (Ne.symm different)])
  | set | delete | increment => exact False.elim (changed rfl)
  | applyBatch bucket ops => exact False.elim (changed (by rw [applyTxnOps_metadata]))

/-! ## Interleaved requests -/

theorem BucketRequest.admitted_lookup (state : AppState) (request : BucketRequest) (store : Store) :
    request.admitted state ((service state.platform).exec (.getPolicy request.bucketId) store).1 =
      request.authenticated state store := by
  rw [exec_getPolicy]
  unfold BucketRequest.admitted BucketRequest.authenticated
  rcases store.lookupPolicy state.platform request.bucketId with error | _ | policy <;> rfl

section Interleaved

variable {ι : Type} [DecidableEq ι] (state : AppState) (requests : ι -> Request) (start : Store)

/-- In its own lookup, during the schedule, the caller was admitted: its step is
the call for the policy, and what the call finds admits it. -/
def AdmittedDuring (schedule : List ι) (i : ι) (request : BucketRequest) (auth : BucketAuth) : Prop :=
  Exists fun before => Exists fun later => Exists fun middle => schedule = before ++ i :: later ∧
    Config.execute (service state.platform) (requestCalls state requests) (Config.initial start) before = some middle ∧
    (Exists fun next => middle.phase i = .running (.call (.getPolicy request.bucketId) next)) ∧
    request.authenticated state middle.shared = .ok auth

/-- What remains of a request: all of it, or what an identity that was admitted
during the schedule is entitled to, or nothing. -/
def Mediated (schedule : List ι) (i : ι) (rest : Program storageOps Response) : Prop :=
  match requests i with
  | .createBucket id _ => rest.Every (fun op _ => Exists fun policy => op = StorageOp.createBucket id.bucketId policy)
  | .bucket request =>
      rest = (Request.bucket request).program state ∨
      (Exists fun auth => Exists fun id : Uuid => AdmittedDuring state requests start schedule i request auth ∧
        auth.bucketId = request.bucketId ∧ request.bucketId = id.bucketId ∧
        rest.Every (fun op _ => StorageOp.Entitled auth op)) ∨
      Exists fun response => rest = .done response

/-- The run invariant. -/
structure MediatedRun (schedule : List ι) (config : Config storageOps Store ι Empty Response) : Prop where
  reached : Config.execute (service state.platform) (requestCalls state requests) (Config.initial start) schedule =
    some config
  sound : Sound state.platform config.shared
  mediated : forall i, Mediated state requests start schedule i (config.remaining (requestCalls state requests) i)

variable {state requests start} {schedule : List ι} {config after : Config storageOps Store ι Empty Response} {i j : ι}

theorem AdmittedDuring.append {request : BucketRequest} {auth : BucketAuth}
    (admitted : AdmittedDuring state requests start schedule i request auth) (more : List ι) :
    AdmittedDuring state requests start (schedule ++ more) i request auth := by
  rcases admitted with ⟨before, later, middle, rfl, reached, looking, accepted⟩
  exact ⟨before, later ++ more, middle, by simp, reached, looking, accepted⟩

theorem Mediated.append {rest : Program storageOps Response} (mediated : Mediated state requests start schedule i rest)
    (more : List ι) : Mediated state requests start (schedule ++ more) i rest := by
  unfold Mediated at mediated ⊢
  split at mediated
  next => exact mediated
  next request asked =>
    rcases mediated with whole | ⟨auth, id, admitted, addressed, named, entitled⟩ | ended
    · exact .inl whole
    · exact .inr (.inl ⟨auth, id, admitted.append more, addressed, named, entitled⟩)
    · exact .inr (.inr ended)

theorem MediatedRun.initial (sound : Sound state.platform start) :
    MediatedRun state requests start [] (Config.initial start) where
  reached := rfl
  sound := sound
  mediated := by
    intro i
    have rules := program_rule state (requests i)
    change Mediated state requests start [] i ((requests i).program state)
    unfold Mediated
    cases asked : requests i with
    | createBucket id form =>
        rw [asked] at rules
        exact rules
    | bucket request => exact .inl rfl

/-- What a mediated request asks next, and what it may ask after that. -/
theorem MediatedRun.operation (inv : MediatedRun state requests start schedule config) {op : StorageOp}
    {next : op.Result -> Program storageOps Response} (running : config.phase i = .running (.call op next)) :
    (op = .getPolicy op.bucket ∨ Exists fun id : Uuid => op.bucket = id.bucketId) ∧
    (forall id form, requests i = .createBucket id form -> Exists fun policy => op = .createBucket id.bucketId policy) ∧
    (forall request, requests i = .bucket request -> op = .getPolicy request.bucketId ∨
      Exists fun auth => Exists fun id : Uuid => AdmittedDuring state requests start schedule i request auth ∧
        auth.bucketId = request.bucketId ∧ request.bucketId = id.bucketId ∧ op.Entitled auth) ∧
    Mediated state requests start (schedule ++ [i]) i (next ((service state.platform).exec op config.shared).1) := by
  have mine := inv.mediated i
  rw [Config.remaining_running running] at mine
  unfold Mediated at mine ⊢
  cases asked : requests i with
  | createBucket id form =>
      simp only [asked] at mine ⊢
      rcases mine.1 with ⟨policy, same⟩
      refine ⟨.inr ⟨id, by rw [same]; rfl⟩, ?_, (fun _ impossible => by cases impossible), mine.2 _⟩
      intro other otherForm equal
      cases equal
      exact ⟨policy, same⟩
  | bucket request =>
      simp only [asked] at mine ⊢
      rcases mine with whole | ⟨auth, id, admitted, addressed, named, entitled⟩ | ⟨response, ended⟩
      · rw [BucketRequest.program_eq] at whole
        cases whole
        refine ⟨.inl rfl, (fun _ _ impossible => by cases impossible), ?_, ?_⟩
        · intro other equal
          cases equal
          exact .inl rfl
        · right
          simp only [BucketRequest.admitted_lookup]
          cases accepted : request.authenticated state config.shared with
          | error response => exact .inr ⟨response, rfl⟩
          | ok auth =>
              rcases request.authenticated_eq_ok accepted with ⟨policy, identity, found, _, rfl⟩
              rcases inv.sound.bucket_of_lookupPolicy found with ⟨id, named⟩
              refine .inl ⟨_, id, ⟨schedule, [], config, rfl, inv.reached, ⟨_, running⟩, accepted⟩, rfl, named, ?_⟩
              exact (serve_asks state request.clock request.bucket _ request.route).respond
      · refine ⟨.inr ⟨id, entitled.1.bucket_eq.trans (addressed.trans named)⟩,
          (fun _ _ impossible => by cases impossible), ?_, ?_⟩
        · intro other equal
          cases equal
          exact .inr ⟨auth, id, admitted, addressed, named, entitled.1⟩
        · exact .inr (.inl ⟨auth, id, admitted.append [i], addressed, named, entitled.2 _⟩)
      · cases ended

theorem MediatedRun.step (inv : MediatedRun state requests start schedule config)
    (stepped : config.step (service state.platform) (requestCalls state requests) i = some after) :
    MediatedRun state requests start (schedule ++ [i]) after := by
  have reached : Config.execute (service state.platform) (requestCalls state requests) (Config.initial start)
      (schedule ++ [i]) = some after := by
    rw [Config.execute_append, inv.reached]
    simp only [Option.bind_some, Config.execute, stepped]
  rcases Config.step_cases stepped with ⟨shared, same, _⟩ | ⟨op, next, running, shared, rest, others⟩
  · refine ⟨reached, shared ▸ inv.sound, fun j => ?_⟩
    rw [same]
    exact (inv.mediated j).append [i]
  · have operation := inv.operation running
    refine ⟨reached, ?_, fun j => ?_⟩
    · rw [shared]
      rcases operation.1 with lookup | ⟨id, named⟩
      · rw [lookup, exec_getPolicy]
        exact inv.sound
      · exact inv.sound.exec named
    · by_cases here : j = i
      · subst here
        rw [rest]
        exact operation.2.2.2
      · rw [others j here]
        exact (inv.mediated j).append [i]

theorem mediatedRun (sound : Sound state.platform start)
    (run : Config.execute (service state.platform) (requestCalls state requests) (Config.initial start) schedule =
      some config) : MediatedRun state requests start schedule config := by
  induction schedule using List.reverseRecOn generalizing config with
  | nil =>
      cases run
      exact .initial sound
  | append_singleton schedule i ih =>
      rw [Config.execute_append] at run
      rcases Option.bind_eq_some_iff.mp run with ⟨middle, reached, last⟩
      simp only [Config.execute] at last
      cases stepped : middle.step (service state.platform) (requestCalls state requests) i with
      | none => rw [stepped] at last; cases last
      | some final =>
          rw [stepped] at last
          cases last
          exact (ih reached).step stepped

end Interleaved

/-- Authorization holds in every interleaving.  A request on a bucket asks the
store for nothing but the policy of its bucket and what an identity that its
own lookup admitted during the run is entitled to.  Hence a step changes an
entry only under such an identity, entitled to write the key or, when the entry
is gone, to remove it; and a record changes only by the creation of its bucket
or under an administrator. -/
theorem interleaved_requests_entitled {ι : Type} [DecidableEq ι] (state : AppState) (requests : ι -> Request)
    (start : Store) (sound : Sound state.platform start) (schedule : List ι)
    (config after : Config storageOps Store ι Empty Response) (i : ι)
    (run : Config.execute (service state.platform) (requestCalls state requests) (Config.initial start) schedule =
      some config)
    (stepped : config.step (service state.platform) (requestCalls state requests) i = some after) :
    (forall request op next, requests i = .bucket request -> config.phase i = .running (.call op next) ->
      op = StorageOp.getPolicy request.bucketId ∨ Exists fun auth =>
        AdmittedDuring state requests start schedule i request auth ∧ StorageOp.Entitled auth op) ∧
    (forall (bucket : Uuid) (key : Key), after.shared.data[dataStorageKey bucket.bucketId key]? ≠
        config.shared.data[dataStorageKey bucket.bucketId key]? ->
      Exists fun request => Exists fun auth => requests i = .bucket request ∧
        request.bucketId = bucket.bucketId ∧ AdmittedDuring state requests start schedule i request auth ∧
        match after.shared.data[dataStorageKey bucket.bucketId key]? with
        | some _ => auth.requireWriteOn key = .ok ()
        | none => auth.requireDeleteOn key = .ok ()) ∧
    (forall name : Bytes, after.shared.metadata[name]? ≠ config.shared.metadata[name]? ->
      (Exists fun id => Exists fun form => requests i = .createBucket id form ∧ name = Bytes.utf8 id.bucketId.asStr) ∨
      Exists fun request => Exists fun auth => requests i = .bucket request ∧
        name = Bytes.utf8 request.bucketId.asStr ∧ AdmittedDuring state requests start schedule i request auth ∧
        auth.requireAdmin = .ok ()) := by
  have inv := mediatedRun sound run
  refine ⟨?_, ?_, ?_⟩
  · intro request op next asked running
    refine ((inv.operation running).2.2.1 request asked).imp id ?_
    rintro ⟨auth, _, admitted, _, _, entitled⟩
    exact ⟨auth, admitted, entitled⟩
  · intro bucket key changed
    rcases Config.step_cases stepped with ⟨same, _, _⟩ | ⟨op, next, running, shared, _, _⟩
    · exact False.elim (changed (by rw [same]))
    · rw [shared] at changed ⊢
      rcases inv.operation running with ⟨_, creation, asks, _⟩
      cases asked : requests i with
      | createBucket id form =>
          rcases creation id form asked with ⟨policy, rfl⟩
          refine False.elim (changed ?_)
          rw [exec_createBucket]
          split <;> rfl
      | bucket request =>
          rcases asks request asked with rfl | ⟨auth, id, admitted, addressed, named, entitled⟩
          · exact False.elim (changed (by rw [exec_getPolicy]))
          · rcases entitled.entry_changed (addressed.trans named) changed with ⟨same, permitted⟩
            exact ⟨request, auth, rfl, addressed.symm.trans same, admitted, permitted⟩
  · intro name changed
    rcases Config.step_cases stepped with ⟨same, _, _⟩ | ⟨op, next, running, shared, _, _⟩
    · exact False.elim (changed (by rw [same]))
    · rw [shared] at changed
      rcases inv.operation running with ⟨_, creation, asks, _⟩
      cases asked : requests i with
      | createBucket id form =>
          rcases creation id form asked with ⟨policy, rfl⟩
          refine .inl ⟨id, form, rfl, ?_⟩
          by_contra different
          refine changed ?_
          rw [exec_createBucket]
          split
          · rfl
          · simp only [Store.writePolicy, Keyspace.get_insert, if_neg (Ne.symm different)]
      | bucket request =>
          rcases asks request asked with rfl | ⟨auth, id, admitted, addressed, named, entitled⟩
          · exact False.elim (changed (by rw [exec_getPolicy]))
          · rcases entitled.record_changed changed with ⟨same, admin⟩
            exact .inr ⟨request, auth, rfl, by rw [same, addressed], admitted, admin⟩

/-! A write that was admitted before the bucket was deleted and reaches the
store after. -/

namespace OvertakenWrite

open Rotation (state start bucket)

theorem segment_nonempty : "k".toList ≠ [] := by decide

theorem segment_whole : '/' ∉ "k".toList := by decide

def segment : Segment := ⟨"k", segment_nonempty, segment_whole⟩

theorem key_short : (Bytes.utf8 "k").length ≤ maxKeyBytes := by decide

def key : Key := ⟨Bytes.utf8 "k", key_short⟩

def requests : Bool -> Request
  | false => .bucket ⟨bucket, none, none, fun _ => OffsetDateTime.unixEpoch,
      .putKey segment (.ok none) none (.ok (Bytes.utf8 "5"))⟩
  | true => Resurrection.request (.deleteBucket false)

/-- The write authenticates, then the deletion completes. -/
def schedule : List Bool := [false, false, false, true, true, true, true, true, true]

def reached : Option (Config storageOps Store Bool Empty Response) :=
  Config.execute (service state.platform) (requestCalls state requests) (Config.initial start) schedule

/-- The configuration then and the one after the storage call of the write. -/
def around : Option (Config storageOps Store Bool Empty Response × Config storageOps Store Bool Empty Response) :=
  reached.bind (fun config =>
    (config.step (service state.platform) (requestCalls state requests) false).map (fun after => (config, after)))

theorem execute_of_around {config after : Config storageOps Store Bool Empty Response}
    (both : around = some (config, after)) :
    reached = some config ∧
      config.step (service state.platform) (requestCalls state requests) false = some after := by
  rcases Option.bind_eq_some_iff.mp both with ⟨first, arrived, ended⟩
  rcases Option.map_eq_some_iff.mp ended with ⟨second, went, same⟩
  cases same
  exact ⟨arrived, went⟩

theorem start_sound : Sound state.platform start := Request.perform_sound Sound.empty _

end OvertakenWrite

open OvertakenWrite in
open Rotation (state start bucket) in
/-- The record of the bucket is gone and the write still stores its entry: it
was admitted while the policy stood. -/
theorem overtaken_write_admitted :
    Exists fun config => Exists fun after => around = some (config, after) ∧
      Gone ⟨bucket.text⟩ config.shared ∧
      Exists fun request => Exists fun auth => requests false = .bucket request ∧
        AdmittedDuring state requests start schedule false request auth ∧ auth.requireWriteOn key = .ok () := by
  have ended : around.map (fun both => (decide (Gone ⟨bucket.text⟩ both.1.shared),
        (both.1.shared.data[dataStorageKey Rotation.id.bucketId key]?).isSome,
        (both.2.shared.data[dataStorageKey Rotation.id.bucketId key]?).isSome)) = some (true, false, true) := by
    decide +kernel
  rcases Option.map_eq_some_iff.mp ended with ⟨⟨config, after⟩, both, values⟩
  have gone : Gone ⟨bucket.text⟩ config.shared := of_decide_eq_true (congrArg Prod.fst values)
  have missing := congrArg (fun all => all.2.1) values
  have present := congrArg (fun all => all.2.2) values
  rcases Option.isSome_iff_exists.mp present with ⟨bytes, found⟩
  have changed : after.shared.data[dataStorageKey Rotation.id.bucketId key]? ≠
      config.shared.data[dataStorageKey Rotation.id.bucketId key]? := by
    intro same
    rw [same] at found
    simp only [found, Option.isSome_some] at missing
    cases missing
  rcases (interleaved_requests_entitled state requests start start_sound schedule config after false
    (execute_of_around both).1 (execute_of_around both).2).2.1 Rotation.id key changed with
    ⟨request, auth, asked, _, admitted, permitted⟩
  rw [found] at permitted
  exact ⟨config, after, both, gone, request, auth, asked, admitted, permitted⟩

end Keydock
