import Keydock.Foundation.Conditions
import Keydock.Http.Effects

/-!
# Concurrent requests

Requests interleave at their storage calls and hold no lock from one call to
the next.  The programs of the policy routes are written out here call by
call: authentication looks the policy up, an update looks it up once more,
patches a copy and writes the copy back, and a deletion removes the record.
-/

namespace Keydock

open Effect Handler

/-- A request as a caller. -/
def Request.call (state : AppState) (request : Request) : Call storageOps Empty Response where
  locks := []
  nodup := List.nodup_nil
  body := request.program state

/-! ## Handlers, call by call -/

namespace Handler

variable {α : Type}

theorem respond_bind (handler : Handler α) (next : α -> Handler Response) :
    (handler >>= next).respond = handler.run >>= fun outcome =>
      match outcome with
      | .ok value => (next value).respond
      | .error response => .done response := by
  unfold respond
  rw [ExceptT.run_bind, bind_assoc]
  congr 1
  funext outcome
  cases outcome <;> rfl

@[simp] theorem respond_known_bind (outcome : Except Response α) (next : α -> Handler Response) :
    (known outcome >>= next).respond =
      match outcome with
      | .ok value => (next value).respond
      | .error response => .done response := by
  rw [respond_bind]
  rfl

@[simp] theorem respond_orReject_bind (response : Response) (value : Option α) (next : α -> Handler Response) :
    (orReject response value >>= next).respond =
      match value with
      | some value => (next value).respond
      | none => .done response := by
  rw [respond_bind]
  cases value <;> rfl

@[simp] theorem respond_pure (response : Response) : respond (pure response) = .done response := rfl

theorem respond_getPolicy_bind (bucket : BucketId) (next : Option BucketPolicy -> Handler Response) :
    (spawnUsecase (Repo.getPolicy bucket) >>= next).respond =
      .call (.getPolicy bucket) (fun found : Except TaskError (Option BucketPolicy) =>
        match found with
        | .ok value => (next value).respond
        | .error error => .done error.response) := by
  rw [respond_bind]
  exact congrArg (Program.call _) (funext fun found => by cases found <;> rfl)

theorem respond_createBucket_bind (bucket : BucketId) (policy : BucketPolicy) (next : Unit -> Handler Response) :
    (spawnUsecase (Repo.createBucket bucket policy) >>= next).respond =
      .call (.createBucket bucket policy) (fun made : Except TaskError Unit =>
        match made with
        | .ok value => (next value).respond
        | .error error => .done error.response) := by
  rw [respond_bind]
  exact congrArg (Program.call _) (funext fun made => by cases made <;> rfl)

theorem respond_deleteBucket_bind (bucket : BucketId) (next : Unit -> Handler Response) :
    (spawnUsecase (Repo.deleteBucket bucket) >>= next).respond =
      .call (.deleteBucket bucket) (fun removed : Except TaskError Unit =>
        match removed with
        | .ok value => (next value).respond
        | .error error => .done error.response) := by
  rw [respond_bind]
  exact congrArg (Program.call _) (funext fun removed => by cases removed <;> rfl)

end Handler

/-! ## Single storage calls -/

section Calls

variable (platform : Platform) (store : Store)

theorem exec_getPolicy (bucket : BucketId) :
    (service platform).exec (.getPolicy bucket) store =
      ((store.lookupPolicy platform bucket).mapError TaskError.useCase, store) :=
  Task.eval_getPolicy platform store bucket

theorem exec_createBucket (bucket : BucketId) (policy : BucketPolicy) :
    (service platform).exec (.createBucket bucket policy) store =
      match encodePolicy platform policy with
      | .error error => (.error (.useCase error), store)
      | .ok bytes => (.ok (), store.writePolicy bucket bytes) :=
  Task.eval_createBucket platform store bucket policy

theorem exec_deleteBucket (bucket : BucketId) :
    (service platform).exec (.deleteBucket bucket) store = (.ok (), store.dropPolicy bucket) :=
  Task.eval_deleteBucket platform store bucket

end Calls

theorem Store.lookupPolicy_writePolicy {platform : Platform} {policy : BucketPolicy} {bytes : Bytes}
    (encoded : encodePolicy platform policy = .ok bytes) (store : Store) (bucket : BucketId) :
    (store.writePolicy bucket bytes).lookupPolicy platform bucket = .ok (some policy) := by
  have present : (store.writePolicy bucket bytes).metadata[Bytes.utf8 bucket.asStr]? = some bytes := by
    simp only [Store.writePolicy, Keyspace.get_insert, if_true]
  rw [Store.lookupPolicy, present]
  simp only [decodePolicy_encodePolicy encoded]
  rfl

/-! ## Programs of the policy routes -/

/-- The outcome of authentication, given what the lookup of the policy
returned. -/
def BucketRequest.admitted (state : AppState) (request : BucketRequest)
    (found : Except TaskError (Option BucketPolicy)) : Except Response BucketAuth :=
  match found with
  | .error error => .error error.response
  | .ok none => .error notFound
  | .ok (some policy) => BucketAuth.authenticate state (request.clock 0) request.parts request.bucketId policy

/-- A request on a bucket begins with the lookup of its policy. -/
theorem BucketRequest.program_eq (state : AppState) (request : BucketRequest) :
    (Request.bucket request).program state =
      .call (.getPolicy request.bucketId) (fun found : Except TaskError (Option BucketPolicy) =>
        match request.admitted state found with
        | .error response => .done response
        | .ok auth => (request.route.serve state request.clock request.bucket auth).respond) := by
  have addressed : bucketIdFromPath request.parts.path = some request.bucketId :=
    bucketIdFromPath_bucketPath request.bucket request.route.rest request.route.rest_boundary
  simp only [Request.program, Request.handler, BucketRequest.handler, BucketAuth.fromRequestParts, bind_assoc,
    addressed, respond_orReject_bind, respond_getPolicy_bind, respond_known_bind]
  refine congrArg (Program.call _) (funext fun found => ?_)
  cases found with
  | error error => rfl
  | ok policy =>
      cases policy with
      | none => rfl
      | some policy =>
          simp only [BucketRequest.admitted]
          cases BucketAuth.authenticate state (request.clock 0) request.parts request.bucketId policy <;> rfl

/-- The last step of an update: the patched copy is written back. -/
def writeBack (bucket : BucketId) (policy : BucketPolicy) : Program storageOps Response :=
  .call (.createBucket bucket policy) (fun made : Except TaskError Unit =>
    match made with
    | .ok _ => .done (Response.ofStatus 204)
    | .error error => .done error.response)

/-- An update after its second lookup. -/
def patchFound (state : AppState) (bucket : BucketId) (patch : UpdatePolicyJson) :
    Except TaskError (Option BucketPolicy) -> Program storageOps Response
  | .error error => .done error.response
  | .ok none => .done notFound
  | .ok (some policy) =>
      match patchedPolicy state patch policy with
      | .error response => .done response
      | .ok patched => writeBack bucket patched

/-- The patch of an update that passes the checks before its second lookup. -/
def checkedPatch (state : AppState) (auth : BucketAuth) (body : Except Response Bytes) :
    Except Response UpdatePolicyJson := do
  let body <- body
  auth.requireAdmin
  match parseUpdatePolicy state.platform body with
  | none => .error badRequest
  | some patch => .ok patch

theorem updatePolicy_respond (state : AppState) (auth : BucketAuth) (body : Except Response Bytes) :
    (updatePolicy state auth body).respond =
      match checkedPatch state auth body with
      | .error response => .done response
      | .ok patch => .call (.getPolicy auth.bucketId) (patchFound state auth.bucketId patch) := by
  simp only [updatePolicy, respond_known_bind, respond_orReject_bind, respond_getPolicy_bind,
    respond_createBucket_bind, respond_pure]
  unfold checkedPatch
  cases body with
  | error response => rfl
  | ok body =>
      cases auth.requireAdmin with
      | error response => rfl
      | ok admin =>
          simp only [bind, Except.bind]
          cases parseUpdatePolicy state.platform body with
          | none => rfl
          | some patch =>
              refine congrArg (Program.call _) (funext fun found => ?_)
              cases found with
              | error error => rfl
              | ok policy =>
                  cases policy with
                  | none => rfl
                  | some policy =>
                      simp only [patchFound]
                      cases patchedPolicy state patch policy <;> rfl

theorem deleteBucket_respond (auth : BucketAuth) :
    (deleteBucket auth).respond =
      match auth.requireAdmin with
      | .error response => .done response
      | .ok _ => .call (.deleteBucket auth.bucketId) (fun removed : Except TaskError Unit =>
          match removed with
          | .ok _ => .done (Response.ofStatus 204)
          | .error error => .done error.response) := by
  simp only [deleteBucket, respond_known_bind, respond_deleteBucket_bind, respond_pure]
  cases auth.requireAdmin <;> rfl

end Keydock
