import Keydock.Foundation.Json
import Keydock.Usecase.Keys

/-!
# Responses

The responses of the service and the programs that compute them.  A handler
is a program over storage calls that may end early with a response.
-/

namespace Keydock

open Effect

/-- A response body: bytes, or the compact text of a JSON tree. -/
inductive Body
  | bytes (content : Bytes)
  | json (content : Json)
  deriving DecidableEq

structure Response where
  status : Nat
  contentType : Option String
  body : Body
  deriving DecidableEq

namespace Response

/-- The request succeeded. -/
def isSuccess (response : Response) : Bool := 200 ≤ response.status && response.status < 300

/-- A status without a body. -/
def ofStatus (status : Nat) : Response := ⟨status, none, .bytes []⟩

def ofBytes (contentType : String) (content : Bytes) : Response := ⟨200, some contentType, .bytes content⟩

def ofJson (content : Json) : Response := ⟨200, some "application/json", .json content⟩

end Response

def jsonError (status : UInt64) (message : String) : Response where
  status := status.toNat
  contentType := some "application/json"
  body := .json (.obj [("error", .obj [("code", .posInt status), ("message", .str message)])])

def notImplemented (message : String) : Response := jsonError 501 message

def unauthorized : Response := jsonError 401 "unauthorized"

def forbidden : Response := jsonError 403 "forbidden"

def notFound : Response := jsonError 404 "not_found"

def badRequest : Response := jsonError 400 "bad_request"

def notAcceptable : Response := jsonError 406 "not_acceptable"

def serviceUnavailable : Response := jsonError 503 "service_unavailable"

def internalError : Response := jsonError 500 "internal_error"

def mapUseCaseRepoErr : UseCaseError -> Response
  | .storage _ => internalError
  | .notFound => notFound
  | .domain _ => badRequest
  | .notImplemented => notImplemented "not implemented"

namespace TaskError

/-- A task that panics does not join, which is reported like a failed one.  A
process that aborts sends nothing; the same response stands for the missing one. -/
def response : TaskError -> Response
  | .panicked | .aborted => internalError
  | .useCase error => mapUseCaseRepoErr error

theorem response_not_success (error : TaskError) : error.response.isSuccess = false := by
  cases error with
  | panicked | aborted => rfl
  | useCase error => cases error <;> rfl

end TaskError

/-! ## Handlers -/

/-- A computation of a handler; the error is the response it ends with. -/
abbrev Handler (α : Type) := ExceptT Response (Program storageOps) α

namespace Handler

variable {α : Type}

def known (outcome : Except Response α) : Handler α := ExceptT.mk (.done outcome)

def reject (response : Response) : Handler α := known (.error response)

/-- The value of an optional result, or an early response. -/
def orReject (response : Response) (value : Option α) : Handler α :=
  match value with
  | none => reject response
  | some value => known (.ok value)

def spawnUsecase (task : Task α) : Handler α :=
  ExceptT.mk (task.run >>= fun outcome => .done (outcome.mapError TaskError.response))

/-- The program of a handler, whichever way it ends. -/
def respond (handler : Handler Response) : Program storageOps Response :=
  handler.run >>= fun outcome =>
    match outcome with
    | .ok response => .done response
    | .error response => .done response

end Handler
end Keydock
