import Keydock.Http.Extract

/-!
# Key routes

The handlers of `/{bucket}/{key}`.  What a framework extractor produces, or
the response with which it refuses the request, is an argument; the extractors
run in the order of the handler's parameters.
-/

namespace Keydock

open Handler

/-- The clock readings of a request, in the order in which it makes them.  The
first one is made during authentication. -/
abbrev Clock := Nat -> OffsetDateTime

def contentTypeForKind : ValueKind -> String
  | .json => "application/json"
  | .int64 | .float64 | .utf8 => "text/plain; charset=utf-8"
  | .raw => "application/octet-stream"

def storedValueResponse (value : StoredValue) : Response :=
  Response.ofBytes (contentTypeForKind value.kind) value.payload

def getKey (clock : Clock) (auth : BucketAuth) (bucket key : Segment) : Handler Response := do
  let raw <- known (pathParams bucket key)
  let key <- known (parsePercentEncodedKey raw)
  known (auth.requireReadOn key)
  let entry <- spawnUsecase (KeyService.get (clock 1) auth.bucketId key)
  return storedValueResponse entry.value

def headKey (clock : Clock) (auth : BucketAuth) (bucket key : Segment) : Handler Response := do
  let raw <- known (pathParams bucket key)
  let key <- known (parsePercentEncodedKey raw)
  known (auth.requireReadOn key)
  let entry <- spawnUsecase (KeyService.get (clock 1) auth.bucketId key)
  return Response.ofBytes (contentTypeForKind entry.value.kind) []

def putKey (state : AppState) (clock : Clock) (auth : BucketAuth) (bucket key : Segment)
    (ttl : Except Response (Option UInt64)) (contentType : Option Bytes) (body : Except Response Bytes) :
    Handler Response := do
  let raw <- known (pathParams bucket key)
  let ttl <- known ttl
  let body <- known body
  let key <- known (parsePercentEncodedKey raw)
  known (auth.requireWriteOn key)
  let contentType := (contentType.bind headerToStr).map String.ofList
  let value <- spawnUsecase (KeyService.set state.platform (clock 1) auth.bucketId key body contentType ttl
    auth.defaultTtlSecs)
  return storedValueResponse value

def deleteKey (auth : BucketAuth) (bucket key : Segment) : Handler Response := do
  let raw <- known (pathParams bucket key)
  let key <- known (parsePercentEncodedKey raw)
  known (auth.requireDeleteOn key)
  spawnUsecase (KeyService.delete auth.bucketId key)
  return Response.ofStatus 204

def patchKey (clock : Clock) (auth : BucketAuth) (bucket key : Segment)
    (ttl : Except Response (Option UInt64)) (body : Except Response Bytes) : Handler Response := do
  let raw <- known (pathParams bucket key)
  let ttl <- known ttl
  let body <- known body
  let key <- known (parsePercentEncodedKey raw)
  known (auth.requireWriteOn key)
  let op <- known ((CounterOp.parse body).mapError (fun _ => badRequest))
  let value <- spawnUsecase (KeyService.increment (clock 1) (clock 2) auth.bucketId key op ttl
    auth.defaultTtlSecs)
  return storedValueResponse value

end Keydock
