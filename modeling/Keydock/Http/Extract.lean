import Keydock.Usecase.Auth
import Keydock.Http.Response
import Keydock.Http.Credential

/-!
# Bucket-scoped authentication

Before a handler of a bucket route runs, the bucket id is taken from the path,
the policy of the bucket is looked up, and the presented credential is
resolved against it.  The handlers then ask for what they need: administration
of the bucket, listing, or reading, writing or deleting one key.
-/

namespace Keydock

open Effect Handler

/-- What the handlers share: the platform and the root key of credential
hashes. -/
structure AppState where
  platform : Platform
  rootKey : Bytes

/-- A path segment that names a bucket or a key: not empty and without a slash. -/
structure Segment where
  text : String
  nonempty : text.toList ≠ []
  whole : '/' ∉ text.toList

/-- The parts of a request that every bucket route reads. -/
structure RequestParts where
  path : String
  query : Option String
  authorization : Option Bytes

/-! ## Keys and buckets named by a request -/

/-- A percent-encoded segment or JSON string as a key. -/
def parsePercentEncodedKey (raw : String) : Except Response Key :=
  match Key.fromBytes (PercentCoding.percentDecode (Bytes.utf8 raw)) with
  | .ok key => .ok key
  | .error _ => .error badRequest

/-- The path extractor decodes a captured segment once; the segment has to be
UTF-8 then. -/
def pathParam (name : String) (segment : Segment) : Except Response String :=
  match Bytes.fromUtf8 (PercentCoding.percentDecode (Bytes.utf8 segment.text)) with
  | some decoded => .ok decoded
  | none =>
      .error ⟨400, some "text/plain; charset=utf-8",
        .bytes (Bytes.utf8 ("Invalid URL: Invalid UTF-8 in `" ++ name ++ "`"))⟩

/-- The key text of a key route.  Both captured segments are decoded. -/
def pathParams (bucket key : Segment) : Except Response String := do
  let _ <- pathParam "bucket" bucket
  pathParam "key" key

/-- The key a path names: extracted, then parsed like any other key text. -/
def pathKey (bucket key : Segment) : Except Response Key := do
  let raw <- pathParams bucket key
  parsePercentEncodedKey raw

def firstPathSegment (path : List Char) : Option (List Char) :=
  (Text.split '/' (path.dropWhile (fun c => c = '/'))).find? (fun segment => !segment.isEmpty)

def bucketIdFromPath (path : String) : Option BucketId :=
  match firstPathSegment path.toList with
  | none => none
  | some segment => (BucketId.new (String.ofList segment)).toOption

theorem bucketIdFromPath_slash (path : String) : bucketIdFromPath ("/" ++ path) = bucketIdFromPath path := by
  have skipped : firstPathSegment ("/" ++ path).toList = firstPathSegment path.toList := by
    simp [firstPathSegment, String.toList_append]
  rw [bucketIdFromPath, skipped, bucketIdFromPath]

/-- The path of a route below a bucket. -/
def bucketPath (bucket : Segment) (rest : String) : String :=
  "/" ++ bucket.text ++ rest

private theorem split_whole {segment rest : List Char} (whole : '/' ∉ segment)
    (boundary : rest = [] ∨ Exists fun tail => rest = '/' :: tail) :
    (Text.split '/' (segment ++ rest)).head? = some segment := by
  induction segment with
  | nil =>
      rcases boundary with rfl | ⟨tail, rfl⟩
      · rfl
      · simp [Text.split]
  | cons c later ih =>
      have different : c ≠ '/' := fun same => whole (same ▸ List.mem_cons_self)
      have tail := ih (fun inside => whole (List.mem_cons_of_mem c inside))
      rw [List.cons_append, Text.split, if_neg different]
      cases shape : Text.split '/' (later ++ rest) with
      | nil => rw [shape] at tail; cases tail
      | cons first others =>
          rw [shape] at tail
          cases tail
          rfl

/-- A bucket route addresses the bucket its first segment names. -/
theorem bucketIdFromPath_bucketPath (bucket : Segment) (rest : String)
    (boundary : rest.toList = [] ∨ Exists fun tail => rest.toList = '/' :: tail) :
    bucketIdFromPath (bucketPath bucket rest) = some ⟨bucket.text⟩ := by
  have chars : (bucketPath bucket rest).toList = '/' :: (bucket.text.toList ++ rest.toList) := by
    simp [bucketPath]
  have start : ((bucketPath bucket rest).toList).dropWhile (fun c => c = '/') =
      bucket.text.toList ++ rest.toList := by
    rw [chars]
    cases shape : bucket.text.toList with
    | nil => exact False.elim (bucket.nonempty shape)
    | cons c later =>
        have different : c ≠ '/' := by
          intro same
          apply bucket.whole
          rw [shape, same]
          exact List.mem_cons_self
        simp [different]
  have head := split_whole bucket.whole boundary
  have found : firstPathSegment (bucketPath bucket rest).toList = some bucket.text.toList := by
    unfold firstPathSegment
    rw [start]
    cases shape : Text.split '/' (bucket.text.toList ++ rest.toList) with
    | nil => rw [shape] at head; cases head
    | cons first others =>
        rw [shape] at head
        cases head
        have occupied : (!bucket.text.toList.isEmpty) = true := by
          simpa using bucket.nonempty
        simp only [List.find?_cons, occupied]
  have text : bucket.text ≠ "" := by
    intro empty
    apply bucket.nonempty
    rw [empty]
    rfl
  simp only [bucketIdFromPath, found, String.ofList_toList, BucketId.new, if_neg text]
  rfl

/-! ## Authentication and authorization -/

/-- Which API keys a policy configures. -/
structure PolicyKeysPresence where
  hasReadKey : Bool
  hasWriteKey : Bool
  hasSecretKey : Bool
  deriving DecidableEq

def PolicyKeysPresence.of (policy : BucketPolicy) : PolicyKeysPresence where
  hasReadKey := policy.readKeyHash.isSome
  hasWriteKey := policy.writeKeyHash.isSome
  hasSecretKey := policy.secretKeyHash.isSome

/-- The resolved identity with what the permission checks read of the policy. -/
structure BucketAuth where
  identity : ResolvedIdentity
  bucketId : BucketId
  policyPresence : PolicyKeysPresence
  anonymousAccess : Permission
  defaultTtlSecs : Option UInt64

namespace BucketAuth

def requireAdmin (auth : BucketAuth) : Except Response Unit :=
  match auth.identity with
  | .admin => .ok ()
  | _ => .error forbidden

def requireEnumerate (auth : BucketAuth) : Except Response Unit :=
  match auth.identity with
  | .admin => .ok ()
  | .scoped permissions _ => if permissions.enumerate then .ok () else .error forbidden
  | .anonymous => if auth.policyPresence.hasReadKey then .error unauthorized else .ok ()

def isPrefixOk (keyPrefix : Bytes) (key : Key) : Bool :=
  keyPrefix.isEmpty || keyPrefix.isPrefixOf key.asBytes

/-- The check of a scoped identity for one key. -/
def requireScoped (granted : Bool) (keyPrefix : Bytes) (key : Key) : Except Response Unit :=
  if !granted then .error forbidden
  else if !isPrefixOk keyPrefix key then .error forbidden
  else .ok ()

def requireReadOn (auth : BucketAuth) (key : Key) : Except Response Unit :=
  match auth.identity with
  | .admin => .ok ()
  | .scoped permissions keyPrefix => requireScoped permissions.read keyPrefix key
  | .anonymous => if auth.policyPresence.hasReadKey then .error unauthorized else .ok ()

def requireWriteOn (auth : BucketAuth) (key : Key) : Except Response Unit :=
  match auth.identity with
  | .admin => .ok ()
  | .scoped permissions keyPrefix => requireScoped permissions.write keyPrefix key
  | .anonymous =>
      if auth.policyPresence.hasWriteKey then .error unauthorized
      else if auth.anonymousAccess.write then .ok ()
      else .error forbidden

def anyPolicyKeyPresent (auth : BucketAuth) : Bool :=
  auth.policyPresence.hasSecretKey || auth.policyPresence.hasWriteKey || auth.policyPresence.hasReadKey

def requireDeleteOn (auth : BucketAuth) (key : Key) : Except Response Unit :=
  match auth.identity with
  | .admin => .ok ()
  | .scoped permissions keyPrefix => requireScoped permissions.delete keyPrefix key
  | .anonymous =>
      if auth.anyPolicyKeyPresent then .error unauthorized
      else if auth.anonymousAccess.delete then .ok ()
      else .error forbidden

/-- The identity under a policy, as the handlers see it. -/
def ofPolicy (bucketId : BucketId) (policy : BucketPolicy) (identity : ResolvedIdentity) : BucketAuth where
  identity := identity
  bucketId := bucketId
  policyPresence := PolicyKeysPresence.of policy
  anonymousAccess := policy.anonymousAccess
  defaultTtlSecs := policy.defaultTtlSecs

/-- Resolve what the request presents against the policy found. -/
def authenticate (state : AppState) (now : OffsetDateTime) (parts : RequestParts) (bucketId : BucketId)
    (policy : BucketPolicy) : Except Response BucketAuth :=
  match resolve state.platform ((extract parts.authorization parts.query).map RawCredential.asStr) policy
      bucketId state.rootKey now with
  | .error _ => .error unauthorized
  | .ok identity => .ok (ofPolicy bucketId policy identity)

def fromRequestParts (state : AppState) (now : OffsetDateTime) (parts : RequestParts) : Handler BucketAuth := do
  let bucketId <- orReject badRequest (bucketIdFromPath parts.path)
  let policy <- spawnUsecase (Repo.getPolicy bucketId)
  let policy <- orReject notFound policy
  known (authenticate state now parts bucketId policy)

end BucketAuth
end Keydock
