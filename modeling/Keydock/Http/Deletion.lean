import Keydock.Http.PolicyUpdates
import Keydock.Http.Runs

/-!
# Deletion of buckets

A deletion removes the record of a bucket in one storage call.  No lookup
finds the bucket afterwards unless some caller stores a record for it again.
Creations draw fresh identifiers; only an update that looked the policy up
before the deletion can still write it back after.
-/

namespace Keydock

open Effect Handler

/-! ## Lookups of a missing policy -/

namespace StorageOp

def isLookup : StorageOp -> Bool
  | .getPolicy _ => true
  | _ => false

/-- After a lookup that finds nothing the program ends with the refusal. -/
def RefusesAt {α : Type} (refusal : α) : (op : StorageOp) -> (op.Result -> Program storageOps α) -> Prop
  | .getPolicy _, next => next (.ok none) = .done refusal
  | _, _ => True

theorem refusesAt_of_other {α : Type} (refusal : α) {op : StorageOp} (other : op.isLookup = false)
    (next : op.Result -> Program storageOps α) : RefusesAt refusal op next := by
  cases op with
  | getPolicy bucket => cases other
  | _ => trivial

end StorageOp

/-- A task without policy lookups. -/
def Task.SkipsLookup {α : Type} (task : Task α) : Prop :=
  task.run.Every (fun op _ => StorageOp.isLookup op = false)

namespace Handler

variable {α β : Type}

/-- Every lookup of the handler that finds no policy ends it with not found. -/
def Refuses (handler : Handler α) : Prop :=
  handler.run.Every (StorageOp.RefusesAt (.error notFound))

theorem refuses_known (outcome : Except Response α) : (known outcome).Refuses := trivial

theorem refuses_orReject (response : Response) (found : Option α) : (orReject response found).Refuses := by
  cases found <;> trivial

theorem refuses_pure (value : α) : Refuses (pure value) := trivial

theorem refuses_bind {handler : Handler α} {next : α -> Handler β} (first : handler.Refuses)
    (rest : forall value, (next value).Refuses) : Refuses (handler >>= next) := by
  unfold Refuses
  rw [ExceptT.run_bind]
  refine Program.Every.bind first ?_ ?_
  · intro op later refuses
    cases op with
    | getPolicy bucket =>
        have ended : later (.ok none) = .done (.error notFound) := refuses
        exact congrArg (fun program => program >>= _) ended
    | _ => trivial
  · intro outcome
    cases outcome with
    | ok value => exact rest value
    | error response => trivial

theorem refuses_spawn {task : Task α} (skips : task.SkipsLookup) : (spawnUsecase task).Refuses :=
  Program.Every.bind skips (fun _ _ other => StorageOp.refusesAt_of_other _ other _) (fun _ => trivial)

/-- The pattern of every lookup in the handlers. -/
theorem refuses_lookup (bucket : BucketId) {next : BucketPolicy -> Handler β}
    (rest : forall policy, (next policy).Refuses) :
    Refuses (spawnUsecase (Repo.getPolicy bucket) >>= fun found => orReject notFound found >>= next) := by
  refine ⟨rfl, fun found => ?_⟩
  cases found with
  | error error => trivial
  | ok found => exact refuses_bind (refuses_orReject notFound found) rest

theorem Refuses.respond {handler : Handler Response} (refuses : handler.Refuses) :
    handler.respond.Every (StorageOp.RefusesAt notFound) := by
  refine Program.Every.bind refuses ?_ ?_
  · intro op later refuses
    cases op with
    | getPolicy bucket =>
        have ended : later (.ok none) = .done (.error notFound) := refuses
        exact congrArg (fun program => program >>= _) ended
    | _ => trivial
  · intro outcome
    cases outcome <;> trivial

end Handler

namespace Task

theorem skipsLookup_get (now : OffsetDateTime) (bucket : BucketId) (key : Key) :
    (KeyService.get now bucket key).SkipsLookup := by
  refine ⟨rfl, fun found => ?_⟩
  cases found with
  | error error => trivial
  | ok found =>
      cases found with
      | none => trivial
      | some entry =>
          change Program.Every _ (ExceptT.run (if entry.expiredAt now then _ else _))
          split <;> trivial

theorem skipsLookup_set (platform : Platform) (now : OffsetDateTime) (bucket : BucketId) (key : Key) (body : Bytes)
    (contentType : Option String) (ttlOverride defaultTtl : Option UInt64) :
    (KeyService.set platform now bucket key body contentType ttlOverride defaultTtl).SkipsLookup := by
  unfold KeyService.set
  cases KeyService.inferStoredValue platform body contentType with
  | error error => trivial
  | ok value =>
      cases KeyService.resolveTtl now ttlOverride defaultTtl with
      | error error => trivial
      | ok expiresAt =>
          refine ⟨rfl, fun outcome => ?_⟩
          cases outcome <;> trivial

theorem skipsLookup_increment (now storeNow : OffsetDateTime) (bucket : BucketId) (key : Key) (op : CounterOp)
    (ttlOverride defaultTtl : Option UInt64) :
    (KeyService.increment now storeNow bucket key op ttlOverride defaultTtl).SkipsLookup := by
  unfold KeyService.increment
  cases KeyService.resolveTtl now ttlOverride defaultTtl with
  | error error => trivial
  | ok expiresAt => exact ⟨rfl, fun _ => trivial⟩

theorem skipsLookup_delete (bucket : BucketId) (key : Key) : (KeyService.delete bucket key).SkipsLookup := by
  refine ⟨rfl, fun outcome => ?_⟩
  cases outcome with
  | error error => trivial
  | ok present => cases present <;> trivial

end Task

/-- Every route answers not found when a lookup of its policy finds nothing. -/
theorem serve_refuses (state : AppState) (clock : Clock) (bucket : Segment) (auth : BucketAuth) (route : Route) :
    (route.serve state clock bucket auth).Refuses := by
  cases route with
  | getKey key | headKey key =>
      refine refuses_bind (refuses_known _) (fun raw => ?_)
      refine refuses_bind (refuses_known _) (fun key => ?_)
      refine refuses_bind (refuses_known _) (fun _ => ?_)
      exact refuses_bind (refuses_spawn (Task.skipsLookup_get _ _ _)) (fun entry => refuses_pure _)
  | putKey key ttl contentType body =>
      refine refuses_bind (refuses_known _) (fun raw => ?_)
      refine refuses_bind (refuses_known _) (fun ttl => ?_)
      refine refuses_bind (refuses_known _) (fun body => ?_)
      refine refuses_bind (refuses_known _) (fun key => ?_)
      refine refuses_bind (refuses_known _) (fun _ => ?_)
      exact refuses_bind (refuses_spawn (Task.skipsLookup_set _ _ _ _ _ _ _ _)) (fun value => refuses_pure _)
  | deleteKey key =>
      refine refuses_bind (refuses_known _) (fun raw => ?_)
      refine refuses_bind (refuses_known _) (fun key => ?_)
      refine refuses_bind (refuses_known _) (fun _ => ?_)
      exact refuses_bind (refuses_spawn (Task.skipsLookup_delete _ _)) (fun _ => refuses_pure _)
  | patchKey key ttl body =>
      refine refuses_bind (refuses_known _) (fun raw => ?_)
      refine refuses_bind (refuses_known _) (fun ttl => ?_)
      refine refuses_bind (refuses_known _) (fun body => ?_)
      refine refuses_bind (refuses_known _) (fun key => ?_)
      refine refuses_bind (refuses_known _) (fun _ => ?_)
      refine refuses_bind (refuses_known _) (fun op => ?_)
      exact refuses_bind (refuses_spawn (Task.skipsLookup_increment _ _ _ _ _ _ _)) (fun value => refuses_pure _)
  | executeTxn body =>
      refine refuses_bind (refuses_known _) (fun body => ?_)
      refine refuses_bind (refuses_orReject _ _) (fun txn => ?_)
      by_cases nothing : txn.isEmpty = true
      · rw [if_pos nothing]
        exact refuses_known _
      · rw [if_neg nothing]
        refine refuses_bind (refuses_known _) (fun ops => ?_)
        exact refuses_bind (refuses_spawn ⟨rfl, fun _ => trivial⟩) (fun _ => refuses_pure _)
  | listBucket params accept =>
      refine refuses_bind (refuses_known _) (fun params => ?_)
      refine refuses_bind (refuses_known _) (fun _ => ?_)
      refine refuses_bind (refuses_known _) (fun format => ?_)
      cases prefixForRepo auth.identity params.keyPrefix with
      | none => exact refuses_known _
      | some keyPrefix =>
          exact refuses_bind (refuses_spawn ⟨rfl, fun _ => trivial⟩) (fun entries => refuses_known _)
  | createToken form =>
      refine refuses_bind (refuses_known _) (fun form => ?_)
      refine refuses_bind (refuses_known _) (fun _ => ?_)
      refine refuses_lookup _ (fun policy => ?_)
      refine refuses_bind (refuses_orReject _ _) (fun signingKey => ?_)
      refine refuses_bind (refuses_known _) (fun claims => ?_)
      exact refuses_bind (refuses_known _) (fun accessToken => refuses_pure _)
  | updatePolicy body =>
      refine refuses_bind (refuses_known _) (fun body => ?_)
      refine refuses_bind (refuses_known _) (fun _ => ?_)
      refine refuses_bind (refuses_orReject _ _) (fun patch => ?_)
      refine refuses_lookup _ (fun policy => ?_)
      refine refuses_bind (refuses_known _) (fun policy => ?_)
      exact refuses_bind (refuses_spawn ⟨rfl, fun _ => trivial⟩) (fun _ => refuses_pure _)
  | deleteBucket slash =>
      refine refuses_bind (refuses_known _) (fun _ => ?_)
      exact refuses_bind (refuses_spawn ⟨rfl, fun _ => trivial⟩) (fun _ => refuses_pure _)
  | getBucketPolicy =>
      refine refuses_bind (refuses_known _) (fun _ => ?_)
      exact refuses_lookup _ (fun policy => refuses_pure _)
  | headBucket => exact refuses_bind (refuses_known _) (fun _ => refuses_pure _)

theorem BucketRequest.program_refuses (state : AppState) (request : BucketRequest) :
    ((Request.bucket request).program state).Every (StorageOp.RefusesAt notFound) := by
  refine Refuses.respond (refuses_bind ?_ (fun auth => serve_refuses _ _ _ _ _))
  refine refuses_bind (refuses_orReject _ _) (fun bucketId => ?_)
  exact refuses_lookup _ (fun policy => refuses_known _)

/-! ## Records of a bucket -/

section Records

variable (platform : Platform) (bucket : BucketId)

/-- No record of the bucket is stored. -/
def Gone (store : Store) : Prop := store.metadata[Bytes.utf8 bucket.asStr]? = none

instance (store : Store) : Decidable (Gone bucket store) :=
  inferInstanceAs (Decidable (_ = none))

variable {bucket}

theorem Gone.lookup {store : Store} (gone : Gone bucket store) : store.lookupPolicy platform bucket = .ok none := by
  unfold Gone at gone
  rw [Store.lookupPolicy, gone]

theorem gone_dropPolicy (store : Store) : Gone bucket (store.dropPolicy bucket) := by
  simp only [Gone, Store.dropPolicy, Keyspace.get_remove, if_true]

/-- Key operations leave the records alone. -/
theorem exec_metadata (store : Store) {op : StorageOp} (keyed : forall id policy, op ≠ .createBucket id policy)
    (kept : forall id, op ≠ .deleteBucket id) :
    ((service platform).exec op store).2.metadata = store.metadata := by
  cases op with
  | getPolicy bucket => rw [exec_getPolicy]
  | createBucket id policy => exact False.elim (keyed id policy rfl)
  | deleteBucket id => exact False.elim (kept id rfl)
  | get bucket key =>
      change (Adapter.eval (FjallStore.get bucket key) store).2.metadata = _
      rw [FjallStore.eval_get]
      split <;> rfl
  | set bucket key value expiresAt =>
      change (Adapter.eval (FjallStore.set bucket key value expiresAt) store).2.metadata = _
      rw [FjallStore.eval_set]
      rfl
  | delete bucket key =>
      change (Adapter.eval (FjallStore.delete bucket key) store).2.metadata = _
      rw [FjallStore.eval_delete]
      rfl
  | list bucket opts => rfl
  | increment now bucket key op expiresAt =>
      change (Adapter.eval (FjallStore.increment now bucket key op expiresAt) store).2.metadata = _
      rw [FjallStore.eval_increment]
      split <;> rfl
  | applyBatch bucket ops =>
      change (Adapter.eval (FjallStore.applyBatch bucket ops) store).2.metadata = _
      rw [FjallStore.eval_applyBatch, applyTxnOps_metadata]

/-- Only the storage of a record for this very bucket brings it back. -/
theorem Gone.exec {store : Store} (gone : Gone bucket store) {op : StorageOp}
    (other : forall policy, op ≠ .createBucket bucket policy) : Gone bucket ((service platform).exec op store).2 := by
  cases op with
  | createBucket id policy =>
      have different : Bytes.utf8 id.asStr ≠ Bytes.utf8 bucket.asStr := by
        intro same
        exact other policy (by rw [BucketId.ext_str (Bytes.utf8_injective same)])
      rw [exec_createBucket]
      cases encodePolicy platform policy with
      | error error => exact gone
      | ok bytes =>
          simp only [Gone, Store.writePolicy, Keyspace.get_insert, if_neg different]
          exact gone
  | deleteBucket id =>
      rw [exec_deleteBucket]
      simp only [Gone, Store.dropPolicy, Keyspace.get_remove]
      split
      · rfl
      · exact gone
  | _ =>
      unfold Gone at gone ⊢
      rw [exec_metadata platform store (fun _ _ impossible => by cases impossible)
        (fun _ impossible => by cases impossible)]
      exact gone

end Records

/-! ## Runs with deletions -/

/-- What the callers may do: a creation stores a record under its own
identifier, and other requests are refused when a lookup finds nothing. -/
def rule : Request -> (op : StorageOp) -> (op.Result -> Program storageOps Response) -> Prop
  | .createBucket id _, op, _ => Exists fun policy => op = .createBucket id.bucketId policy
  | .bucket _, op, next => StorageOp.RefusesAt notFound op next

theorem program_rule (state : AppState) (request : Request) : (request.program state).Every (rule request) := by
  cases request with
  | bucket request => exact request.program_refuses state
  | createBucket id form =>
      simp only [Request.program, Request.handler, createBucket, respond_known_bind, respond_createBucket_bind,
        respond_pure]
      cases form with
      | error response => trivial
      | ok form =>
          simp only
          cases newBucketPolicy state form with
          | error response => trivial
          | ok policy =>
              refine ⟨⟨policy, rfl⟩, fun made => ?_⟩
              cases made <;> trivial

/-- A deletion is acknowledged only after its storage call. -/
theorem deletion_through (state : AppState) {request : BucketRequest} {slash : Bool}
    (asked : request.route = .deleteBucket slash) :
    ((Request.bucket request).program state).Through (fun op => op = StorageOp.deleteBucket request.bucketId)
      (fun response => response = Response.ofStatus 204) := by
  rw [BucketRequest.program_eq]
  refine .inr (fun found => ?_)
  cases accepted : request.admitted state found with
  | error response =>
      simp only [accepted]
      exact ne_acknowledgement (BucketRequest.admitted_error accepted)
  | ok auth =>
      simp only [accepted, asked, Route.serve, deleteBucket_respond]
      cases admin : auth.requireAdmin with
      | error response =>
          unfold BucketAuth.requireAdmin at admin
          split at admin
          · cases admin
          · cases admin
            exact ne_acknowledgement rfl
      | ok passed => exact .inl (by rw [BucketRequest.admitted_bucketId accepted])

section Runs

variable {ι : Type} (state : AppState) (bucket : BucketId) (requests : ι -> Request)

def requestCalls (i : ι) : Call storageOps Empty Response := (requests i).call state

/-- A request on an existing bucket, that is an update, writes the policy of
the bucket only while a record of it is stored. -/
def WritesBackStored (config : Config storageOps Store ι Empty Response) (i : ι) (_ : Store) : Prop :=
  match requests i with
  | .createBucket _ _ => True
  | .bucket _ => writeTarget (config.phase i) = some bucket -> ¬ Gone bucket config.shared

instance (config : Config storageOps Store ι Empty Response) (i : ι) (seen : Store) :
    Decidable (WritesBackStored bucket requests config i seen) :=
  match asked : requests i with
  | .createBucket _ _ => .isTrue (by simp only [WritesBackStored, asked])
  | .bucket _ =>
      decidable_of_iff (writeTarget (config.phase i) = some bucket -> ¬ Gone bucket config.shared)
        (by simp only [WritesBackStored, asked])

/-- The request deletes the bucket. -/
def IsDeletion (request : Request) : Prop :=
  Exists fun removal : BucketRequest => Exists fun slash =>
    request = .bucket removal ∧ removal.bucketId = bucket ∧ removal.route = .deleteBucket slash

/-- The invariant: everyone keeps to the rule, and a deletion has its storage
call still before it or has removed the record for good. -/
structure Removing (config : Config storageOps Store ι Empty Response) : Prop where
  rules : forall i, (config.remaining (requestCalls state requests) i).Every (rule (requests i))
  removed : forall i, IsDeletion bucket (requests i) ->
    (config.remaining (requestCalls state requests) i).Through (fun op => op = StorageOp.deleteBucket bucket)
      (fun response => response = Response.ofStatus 204) ∨ Gone bucket config.shared

variable {state bucket requests}
variable {config after : Config storageOps Store ι Empty Response} {i : ι} {seen : Store}

theorem Removing.initial (start : Store) : Removing state bucket requests (Config.initial start) where
  rules := fun i => program_rule state (requests i)
  removed := by
    rintro i ⟨removal, slash, asked, rfl, route⟩
    have through := deletion_through state route
    rw [← asked] at through
    exact .inl through

variable [DecidableEq ι]

/-- Once removed, a record stays removed. -/
theorem Removing.stays_gone (removing : Removing state bucket requests config)
    (fresh : forall i id form, requests i = .createBucket id form -> id.bucketId ≠ bucket)
    (stored : WritesBackStored bucket requests config i seen)
    (stepped : config.step (service state.platform) (requestCalls state requests) i = some after)
    (gone : Gone bucket config.shared) : Gone bucket after.shared := by
  rcases Config.step_cases stepped with ⟨shared, _, _⟩ | ⟨op, next, running, shared, _, _⟩
  · rw [shared]
    exact gone
  · rw [shared]
    apply gone.exec
    have mine := removing.rules i
    rw [Config.remaining_running running] at mine
    cases asked : requests i with
    | createBucket id form =>
        rw [asked] at mine
        rcases mine.1 with ⟨policy, rfl⟩
        intro other same
        exact fresh i id form asked (StorageOp.createBucket.inj same).1
    | bucket request =>
        rintro policy rfl
        simp only [WritesBackStored, asked] at stored
        exact stored (by rw [running]; rfl) gone

theorem Removing.step (removing : Removing state bucket requests config)
    (fresh : forall i id form, requests i = .createBucket id form -> id.bucketId ≠ bucket)
    (stored : WritesBackStored bucket requests config i seen)
    (stepped : config.step (service state.platform) (requestCalls state requests) i = some after) :
    Removing state bucket requests after where
  rules := Config.step_every removing.rules stepped
  removed := by
    intro j deletion
    rcases removing.removed j deletion with pending | gone
    · rcases Config.step_cases stepped with ⟨_, same, _⟩ | ⟨op, next, running, shared, rest, others⟩
      · rw [same j]
        exact .inl pending
      · by_cases here : j = i
        · subst here
          rw [Config.remaining_running running] at pending
          rcases pending with removes | later
          · cases removes
            rw [shared, exec_deleteBucket]
            exact .inr (gone_dropPolicy _)
          · rw [rest]
            exact .inl (later _)
        · rw [others j here]
          exact .inl pending
    · exact .inr (removing.stays_gone fresh stored stepped gone)

/-- A caller about to look a missing policy up is refused. -/
theorem Removing.refuses (removing : Removing state bucket requests config) (gone : Gone bucket config.shared) {j : ι}
    {next : Except TaskError (Option BucketPolicy) -> Program storageOps Response}
    (waiting : config.remaining (requestCalls state requests) j = .call (.getPolicy bucket) next)
    (stepped : config.step (service state.platform) (requestCalls state requests) i = some after) :
    after.remaining (requestCalls state requests) j = .call (.getPolicy bucket) next ∨
      after.remaining (requestCalls state requests) j = .done notFound := by
  have mine := removing.rules j
  rw [waiting] at mine
  rcases Config.step_cases stepped with ⟨_, same, _⟩ | ⟨op, rest, running, _, remains, others⟩
  · rw [same j]
    exact .inl waiting
  · by_cases here : j = i
    · subst here
      rw [Config.remaining_running running] at waiting
      cases waiting
      rw [remains, exec_getPolicy, gone.lookup]
      cases asked : requests j with
      | createBucket id form =>
          rw [asked] at mine
          rcases mine.1 with ⟨policy, impossible⟩
          cases impossible
      | bucket request =>
          rw [asked] at mine
          exact .inr mine.1
    · rw [others j here]
      exact .inl waiting

/-- In a run in which every update writes back while a record of the bucket is
stored, an acknowledged deletion is final. -/
theorem deletion_final (state : AppState) (bucket : BucketId) (requests : ι -> Request)
    (fresh : forall i id form, requests i = .createBucket id form -> id.bucketId ≠ bucket) (start : Store)
    (before rest : List ι) (middle last : Config storageOps Store ι Empty Response)
    (reached : Config.execute (service state.platform) (requestCalls state requests) (Config.initial start) before =
      some middle)
    (run : Config.execute (service state.platform) (requestCalls state requests) middle rest = some last)
    (stored : Config.Along (service state.platform) (requestCalls state requests) (WritesBackStored bucket requests)
      (fun _ => start) (Config.initial start) (before ++ rest))
    (i : ι) (deletion : IsDeletion bucket (requests i))
    (answered : middle.phase i = .finished (Response.ofStatus 204)) :
    last.shared.metadata[Bytes.utf8 bucket.asStr]? = none ∧
      forall j next response, middle.remaining (requestCalls state requests) j = .call (.getPolicy bucket) next ->
        last.phase j = .finished response -> response = notFound := by
  rcases Config.Along.preserves (fun _ config => Removing state bucket requests config)
    (fun _ _ _ _ removing met stepped => removing.step fresh met stepped) stored.left
    (Removing.initial start) reached with ⟨_, removing⟩
  rcases stored.right reached with ⟨seen, later⟩
  have gone : Gone bucket middle.shared := by
    rcases removing.removed i deletion with pending | gone
    · rw [Config.remaining_finished answered] at pending
      exact False.elim (pending rfl)
    · exact gone
  constructor
  · rcases Config.Along.preserves
      (fun _ config => Removing state bucket requests config ∧ Gone bucket config.shared)
      (fun _ _ _ _ both met stepped =>
        ⟨both.1.step fresh met stepped, both.1.stays_gone fresh met stepped both.2⟩)
      later ⟨removing, gone⟩ run with ⟨_, _, atEnd⟩
    exact atEnd
  · intro j next response waiting finished
    rcases Config.Along.preserves
      (fun _ config => Removing state bucket requests config ∧ Gone bucket config.shared ∧
        (config.remaining (requestCalls state requests) j = .call (.getPolicy bucket) next ∨
          config.remaining (requestCalls state requests) j = .done notFound))
      (fun _ config k after all met stepped =>
        ⟨all.1.step fresh met stepped, all.1.stays_gone fresh met stepped all.2.1,
          all.2.2.elim (fun still => all.1.refuses all.2.1 still stepped)
            (fun done => .inr (Config.remaining_done done stepped))⟩)
      later ⟨removing, gone, .inl waiting⟩ run with ⟨_, _, _, outcome⟩
    rw [Config.remaining_finished finished] at outcome
    rcases outcome with impossible | done
    · cases impossible
    · exact Program.done.inj done

end Runs

/-! ## A deletion and a policy update -/

namespace Resurrection

open Rotation (state start bucket answer finished_of_answer)

/-- A request with the secret key. -/
def request (route : Route) : Request :=
  .bucket ⟨bucket, none, some (Bytes.utf8 "Bearer s3cret"), fun _ => OffsetDateTime.unixEpoch, route⟩

def requests : Fin 3 -> Request
  | 0 => request (.updatePolicy (.ok Rotation.ttlBody))
  | 1 => request (.deleteBucket false)
  | 2 => request .headBucket

/-- The update looks the policy up, then the bucket is deleted. -/
def overtaken : List (Fin 3) := [0, 0, 0, 0, 1, 1, 1, 1, 1, 1]

/-- The update completes, then the bucket is deleted. -/
def inTurn : List (Fin 3) := [0, 0, 0, 0, 0, 0, 0, 1, 1, 1, 1, 1, 1]

/-- The update completes if it has not, then the bucket is asked for. -/
def afterwards (update : List (Fin 3)) : List (Fin 3) := update ++ [2, 2, 2, 2, 2]

/-- The run up to the deletion and the rest of it. -/
def run (before rest : List (Fin 3)) :
    Option (Config storageOps Store (Fin 3) Empty Response × Config storageOps Store (Fin 3) Empty Response) :=
  (Config.execute (service state.platform) (requestCalls state requests) (Config.initial start) before).bind
    (fun middle =>
      (Config.execute (service state.platform) (requestCalls state requests) middle rest).map
        (fun last => (middle, last)))

theorem execute_of_run {before rest : List (Fin 3)} {middle last : Config storageOps Store (Fin 3) Empty Response}
    (ran : run before rest = some (middle, last)) :
    Config.execute (service state.platform) (requestCalls state requests) (Config.initial start) before = some middle ∧
      Config.execute (service state.platform) (requestCalls state requests) middle rest = some last := by
  rcases Option.bind_eq_some_iff.mp ran with ⟨first, reached, ended⟩
  rcases Option.map_eq_some_iff.mp ended with ⟨second, went, same⟩
  cases same
  exact ⟨reached, went⟩

def isIdle : Phase storageOps Empty Response -> Bool
  | .idle => true
  | _ => false

theorem idle_of_isIdle {phase : Phase storageOps Empty Response} (idle : isIdle phase = true) : phase = .idle := by
  cases phase with
  | idle => rfl
  | acquiring _ | running _ | releasing _ _ | finished _ => cases idle

theorem isDeletion : IsDeletion ⟨bucket.text⟩ (requests 1) := ⟨_, false, rfl, rfl, rfl⟩

theorem fresh (i : Fin 3) (id : Uuid) (form : Except Response CreateBucketForm)
    (asked : requests i = .createBucket id form) : id.bucketId ≠ ⟨bucket.text⟩ := by
  match i with
  | 0 | 1 | 2 => cases asked

end Resurrection

open Rotation (state start bucket answer finished_of_answer) in
open Resurrection in
/-- An update that looked the policy up before the deletion brings the bucket
back. -/
theorem update_resurrects_bucket :
    Exists fun middle => Exists fun last =>
      Config.execute (service state.platform) (requestCalls state requests) (Config.initial start) overtaken =
        some middle ∧
      Config.execute (service state.platform) (requestCalls state requests) middle (afterwards [0, 0, 0]) =
        some last ∧
      IsDeletion ⟨bucket.text⟩ (requests 1) ∧ middle.phase 1 = .finished (Response.ofStatus 204) ∧
      middle.phase 2 = .idle ∧
      last.shared.metadata[Bytes.utf8 bucket.text]? ≠ none ∧ last.phase 2 = .finished (Response.ofStatus 200) := by
  have ended : (run overtaken (afterwards [0, 0, 0])).map (fun ends => (answer (ends.1.phase 1),
        isIdle (ends.1.phase 2), decide (Gone ⟨bucket.text⟩ ends.2.shared), answer (ends.2.phase 2))) =
      some (some (Response.ofStatus 204), true, false, some (Response.ofStatus 200)) := by
    decide +kernel
  rcases Option.map_eq_some_iff.mp ended with ⟨⟨middle, last⟩, ran, values⟩
  have stored : ¬ Gone ⟨bucket.text⟩ last.shared := of_decide_eq_false (congrArg (fun all => all.2.2.1) values)
  exact ⟨middle, last, (execute_of_run ran).1, (execute_of_run ran).2, isDeletion,
    finished_of_answer (congrArg Prod.fst values), idle_of_isIdle (congrArg (fun all => all.2.1) values), stored,
    finished_of_answer (congrArg (fun all => all.2.2.2) values)⟩

open Rotation (state start bucket answer finished_of_answer) in
open Resurrection in
/-- A deletion after the update is final, and the bucket is not found. -/
theorem deletion_in_turn_final :
    Exists fun middle => Exists fun last => run inTurn (afterwards []) = some (middle, last) ∧
      middle.phase 1 = .finished (Response.ofStatus 204) ∧
      (last.shared.metadata[Bytes.utf8 bucket.text]? = none ∧
        forall j next response, middle.remaining (requestCalls state requests) j = .call (.getPolicy ⟨bucket.text⟩) next ->
          last.phase j = .finished response -> response = notFound) := by
  have ended : (run inTurn (afterwards [])).map (fun ends => answer (ends.1.phase 1)) =
      some (some (Response.ofStatus 204)) := by
    decide +kernel
  rcases Option.map_eq_some_iff.mp ended with ⟨⟨middle, last⟩, ran, values⟩
  have answered := finished_of_answer values
  exact ⟨middle, last, ran, answered, deletion_final state ⟨bucket.text⟩ requests fresh start inTurn (afterwards [])
    middle last (execute_of_run ran).1 (execute_of_run ran).2 (by decide +kernel) 1 isDeletion answered⟩

end Keydock
