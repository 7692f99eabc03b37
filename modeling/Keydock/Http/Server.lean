import Keydock.Fjall.Listing
import Keydock.Http.Txn
import Keydock.Http.Tokens
import Keydock.Http.Buckets
import Keydock.Http.Listing

/-!
# The server

Requests, the handlers the router sends them to, and the meaning of a handler:
the storage calls are served by the store, with no backend call failing.  Run
without interruption a request is one transition of the server; the points at
which requests interleave are the storage calls of its program.
-/

namespace Keydock

open Effect Handler

/-! ## Requests -/

/-- What a request to a bucket route asks for. -/
inductive Route
  | getKey (key : Segment)
  | headKey (key : Segment)
  | putKey (key : Segment) (ttl : Except Response (Option UInt64)) (contentType : Option Bytes)
      (body : Except Response Bytes)
  | deleteKey (key : Segment)
  | patchKey (key : Segment) (ttl : Except Response (Option UInt64)) (body : Except Response Bytes)
  | executeTxn (body : Except Response Bytes)
  | listBucket (params : Except Response ListBucketParams) (accept : Option Bytes)
  | createToken (form : Except Response CreateTokenForm)
  | updatePolicy (body : Except Response Bytes)
  | deleteBucket (slash : Bool)
  | getBucketPolicy
  | headBucket

namespace Route

/-- The path below the bucket. -/
def rest : Route -> String
  | .getKey key | .headKey key | .putKey key _ _ _ | .deleteKey key | .patchKey key _ _ => "/" ++ key.text
  | .listBucket _ _ => "/"
  | .createToken _ => "/tokens/"
  | .deleteBucket slash => if slash then "/" else ""
  | .executeTxn _ | .updatePolicy _ | .getBucketPolicy | .headBucket => ""

theorem rest_boundary (route : Route) :
    route.rest.toList = [] ∨ Exists fun tail => route.rest.toList = '/' :: tail := by
  cases route with
  | getKey key | headKey key | putKey key _ _ _ | deleteKey key | patchKey key _ _ =>
      exact .inr ⟨key.text.toList, by simp [rest]⟩
  | listBucket params accept => exact .inr ⟨[], by simp [rest]⟩
  | createToken form => exact .inr ⟨"tokens/".toList, by simp [rest]⟩
  | deleteBucket slash =>
      cases slash with
      | false => exact .inl rfl
      | true => exact .inr ⟨[], by decide⟩
  | executeTxn _ | updatePolicy _ | getBucketPolicy | headBucket => exact .inl rfl

/-- The handler of a route, after authentication. -/
def serve (state : AppState) (clock : Clock) (bucket : Segment) (auth : BucketAuth) : Route -> Handler Response
  | .getKey key => Keydock.getKey clock auth bucket key
  | .headKey key => Keydock.headKey clock auth bucket key
  | .putKey key ttl contentType body => Keydock.putKey state clock auth bucket key ttl contentType body
  | .deleteKey key => Keydock.deleteKey auth bucket key
  | .patchKey key ttl body => Keydock.patchKey clock auth bucket key ttl body
  | .executeTxn body => Keydock.executeTxn state clock auth body
  | .listBucket params accept => Keydock.listBucket state clock auth params accept
  | .createToken form => Keydock.createToken state clock auth form
  | .updatePolicy body => Keydock.updatePolicy state auth body
  | .deleteBucket _ => Keydock.deleteBucket auth
  | .getBucketPolicy => Keydock.getBucketPolicy auth
  | .headBucket => Keydock.headBucket auth

end Route

/-- A request to a route below a bucket.  Its path names the bucket. -/
structure BucketRequest where
  bucket : Segment
  query : Option String
  authorization : Option Bytes
  clock : Clock
  route : Route

namespace BucketRequest

def parts (request : BucketRequest) : RequestParts where
  path := bucketPath request.bucket request.route.rest
  query := request.query
  authorization := request.authorization

/-- The bucket the path names. -/
def bucketId (request : BucketRequest) : BucketId := ⟨request.bucket.text⟩

/-- The credential the request presents, if any. -/
def credential (request : BucketRequest) : Option String :=
  (extract request.authorization request.query).map RawCredential.asStr

def handler (state : AppState) (request : BucketRequest) : Handler Response := do
  let auth <- BucketAuth.fromRequestParts state (request.clock 0) request.parts
  request.route.serve state request.clock request.bucket auth

end BucketRequest

/-- A request to the service.  The identifier is the one drawn for the new
bucket. -/
inductive Request
  | createBucket (fresh : Uuid) (form : Except Response CreateBucketForm)
  | bucket (request : BucketRequest)

namespace Request

def handler (state : AppState) : Request -> Handler Response
  | .createBucket fresh form => Keydock.createBucket state fresh form
  | .bucket request => request.handler state

def program (state : AppState) (request : Request) : Program storageOps Response :=
  (request.handler state).respond

end Request

/-! ## The meaning of storage calls -/

/-- The outcome of a repository operation as that of its blocking task. -/
def joined {α : Type} (outcome : Except UseCaseError α × Store) : Except TaskError α × Store :=
  (outcome.1.mapError TaskError.useCase, outcome.2)

/-- The storage calls, served by the store. -/
def service (platform : Platform) : Semantics storageOps Store where
  exec
    | .getPolicy bucket, store => joined (Adapter.eval (FjallStore.getPolicy platform bucket) store)
    | .createBucket id policy, store => joined (Adapter.eval (FjallStore.createBucket platform id policy) store)
    | .deleteBucket id, store => joined (Adapter.eval (FjallStore.deleteBucket id) store)
    | .get bucket key, store => joined (Adapter.eval (FjallStore.get bucket key) store)
    | .set bucket key value expiresAt, store =>
        joined (Adapter.eval (FjallStore.set bucket key value expiresAt) store)
    | .delete bucket key, store => joined (Adapter.eval (FjallStore.delete bucket key) store)
    | .list bucket opts, store => storage.run (FjallStore.list platform bucket opts).run store
    | .increment now bucket key op expiresAt, store =>
        joined (Adapter.eval (FjallStore.increment now bucket key op expiresAt) store)
    | .applyBatch bucket ops, store => joined (Adapter.eval (FjallStore.applyBatch bucket ops) store)

/-- A request run without interruption: its response and the store after it. -/
def Request.perform (state : AppState) (request : Request) (store : Store) : Response × Store :=
  (service state.platform).run (request.program state) store

namespace Task

variable {α β : Type} (platform : Platform)

/-- Run a blocking task without interruption. -/
def eval (task : Task α) (store : Store) : Except TaskError α × Store :=
  (service platform).run task.run store

theorem eval_bind (task : Task α) (next : α -> Task β) (store : Store) :
    eval platform (task >>= next) store =
      match eval platform task store with
      | (.ok value, after) => eval platform (next value) after
      | (.error error, after) => (.error error, after) := by
  unfold eval
  rw [Semantics.run_exceptBind]
  rcases (service platform).run task.run store with ⟨outcome, after⟩
  cases outcome <;> rfl

@[simp] theorem eval_pure (value : α) (store : Store) : eval platform (pure value) store = (.ok value, store) := rfl

@[simp] theorem eval_known (outcome : Except UseCaseError α) (store : Store) :
    eval platform (KeyService.known outcome) store = (outcome.mapError TaskError.useCase, store) := rfl

end Task

namespace Handler

variable {α β : Type} (platform : Platform)

/-- Run a handler without interruption. -/
def eval (handler : Handler α) (store : Store) : Except Response α × Store :=
  (service platform).run handler.run store

theorem eval_bind (handler : Handler α) (next : α -> Handler β) (store : Store) :
    eval platform (handler >>= next) store =
      match eval platform handler store with
      | (.ok value, after) => eval platform (next value) after
      | (.error response, after) => (.error response, after) := by
  unfold eval
  rw [Semantics.run_exceptBind]
  rcases (service platform).run handler.run store with ⟨outcome, after⟩
  cases outcome <;> rfl

@[simp] theorem eval_pure (value : α) (store : Store) :
    eval platform (pure value) store = (.ok value, store) := rfl

@[simp] theorem eval_known (outcome : Except Response α) (store : Store) :
    eval platform (known outcome) store = (outcome, store) := rfl

@[simp] theorem eval_reject (response : Response) (store : Store) :
    eval platform (reject response : Handler α) store = (.error response, store) := rfl

@[simp] theorem eval_orReject (response : Response) (value : Option α) (store : Store) :
    eval platform (orReject response value) store =
      (match value with | none => .error response | some value => .ok value, store) := by
  cases value <;> rfl

theorem eval_spawnUsecase (task : Task α) (store : Store) :
    eval platform (spawnUsecase task) store =
      ((task.eval platform store).1.mapError TaskError.response, (task.eval platform store).2) := by
  unfold eval spawnUsecase
  rw [ExceptT.run_mk, Semantics.run_bind]
  rfl

/-- The response of a handler, whichever way it ends. -/
def outcome : Except Response Response -> Response
  | .ok response => response
  | .error response => response

theorem run_respond (handler : Handler Response) (store : Store) :
    (service platform).run handler.respond store =
      (outcome (eval platform handler store).1, (eval platform handler store).2) := by
  unfold respond eval
  rw [Semantics.run_bind]
  cases ((service platform).run handler.run store).1 <;> rfl

end Handler

theorem Request.perform_eq (state : AppState) (request : Request) (store : Store) :
    request.perform state store =
      (outcome (eval state.platform (request.handler state) store).1,
        (eval state.platform (request.handler state) store).2) :=
  run_respond state.platform (request.handler state) store

/-! ## Authentication -/

/-- What the lookup of a policy finds. -/
def Store.lookupPolicy (platform : Platform) (store : Store) (bucket : BucketId) :
    Except UseCaseError (Option BucketPolicy) :=
  match store.metadata[Bytes.utf8 bucket.asStr]? with
  | none => .ok none
  | some bytes => (decodePolicy platform bytes).map some

namespace Task

variable (platform : Platform) (store : Store)

theorem eval_getPolicy (bucket : BucketId) :
    eval platform (Repo.getPolicy bucket) store =
      ((store.lookupPolicy platform bucket).mapError TaskError.useCase, store) := by
  have served : eval platform (Repo.getPolicy bucket) store =
      joined (Adapter.eval (FjallStore.getPolicy platform bucket) store) := rfl
  rw [served, FjallStore.eval_getPolicy, Store.lookupPolicy]
  cases store.metadata[Bytes.utf8 bucket.asStr]? <;> rfl

end Task

theorem mapError_response {α : Type} (outcome : Except UseCaseError α) :
    (outcome.mapError TaskError.useCase).mapError TaskError.response = outcome.mapError mapUseCaseRepoErr := by
  cases outcome <;> rfl

theorem Handler.eval_spawnGetPolicy (platform : Platform) (bucket : BucketId) (store : Store) :
    eval platform (spawnUsecase (Repo.getPolicy bucket)) store =
      ((store.lookupPolicy platform bucket).mapError mapUseCaseRepoErr, store) := by
  rw [eval_spawnUsecase, Task.eval_getPolicy, mapError_response]

/-- Authentication looks the policy up and resolves the credential against
it. -/
def BucketRequest.authenticated (state : AppState) (request : BucketRequest) (store : Store) :
    Except Response BucketAuth :=
  match store.lookupPolicy state.platform request.bucketId with
  | .error error => .error (mapUseCaseRepoErr error)
  | .ok none => .error notFound
  | .ok (some policy) =>
      BucketAuth.authenticate state (request.clock 0) request.parts request.bucketId policy

theorem eval_fromRequestParts (state : AppState) (request : BucketRequest) (store : Store) :
    eval state.platform (BucketAuth.fromRequestParts state (request.clock 0) request.parts) store =
      (request.authenticated state store, store) := by
  have addressed : bucketIdFromPath request.parts.path = some request.bucketId :=
    bucketIdFromPath_bucketPath request.bucket request.route.rest request.route.rest_boundary
  simp only [BucketAuth.fromRequestParts, eval_bind, addressed, eval_orReject, eval_spawnGetPolicy]
  unfold BucketRequest.authenticated
  cases store.lookupPolicy state.platform request.bucketId with
  | error error => rfl
  | ok found => cases found <;> rfl

theorem BucketRequest.eval_handler (state : AppState) (request : BucketRequest) (store : Store) :
    eval state.platform (request.handler state) store =
      match request.authenticated state store with
      | .error response => (.error response, store)
      | .ok auth => eval state.platform (request.route.serve state request.clock request.bucket auth) store := by
  rw [BucketRequest.handler, eval_bind, eval_fromRequestParts]
  cases request.authenticated state store <;> rfl

end Keydock
