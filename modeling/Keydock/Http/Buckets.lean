import Keydock.Http.Keys

/-!
# Bucket routes

Creation, policy updates, deletion and inspection of buckets.  An update reads
the policy, changes a copy and writes the copy back through the call that also
creates buckets.
-/

namespace Keydock

open Handler Json

def hashApiKeyOrFail (platform : Platform) (rootKey : Bytes) (raw : String) : Except Response Bytes :=
  (hashCredential platform raw rootKey).mapError (fun _ => internalError)

def recomputeAnonymousAccess (policy : BucketPolicy) : Permission :=
  let presence := PolicyKeysPresence.of policy
  Permission.anonymousFromKeys presence.hasSecretKey presence.hasReadKey presence.hasWriteKey

/-! ## Creation -/

structure CreateBucketForm where
  email : String
  secretKey : Option String
  readKey : Option String
  writeKey : Option String
  signingKey : Option String
  defaultTtl : Option UInt64

def defaultBucketTtlSecs : UInt64 := 604800

def noneIfEmpty (text : Option String) : Option String :=
  text.bind (fun value => if value = "" then none else some value)

/-- Exactly one `@`, something before it, and after it a dot that is not at
either end. -/
def isMinimallyValidEmail (raw : String) : Bool :=
  let trimmed := Text.trim raw.toList
  if trimmed.isEmpty then false
  else
    match Text.splitOnce '@' trimmed with
    | none => false
    | some (localPart, domain) =>
        if localPart.isEmpty || domain.contains '@' then false
        else if !domain.contains '.' || domain.head? == some '.' || domain.getLast? == some '.' then false
        else true

/-- Hash a key when it is given. -/
def hashOptional (state : AppState) : Option String -> Except Response (Option Bytes)
  | none => .ok none
  | some raw => (hashApiKeyOrFail state.platform state.rootKey raw).map some

/-- The policy of a new bucket. -/
def newBucketPolicy (state : AppState) (form : CreateBucketForm) : Except Response BucketPolicy := do
  if !isMinimallyValidEmail form.email then
    throw badRequest
  let secretKey := noneIfEmpty form.secretKey
  let readKey := noneIfEmpty form.readKey
  let writeKey := noneIfEmpty form.writeKey
  let signingKey := noneIfEmpty form.signingKey
  let anonymousAccess := Permission.anonymousFromKeys secretKey.isSome readKey.isSome writeKey.isSome
  let secretKeyHash <- hashOptional state secretKey
  let readKeyHash <- hashOptional state readKey
  let writeKeyHash <- hashOptional state writeKey
  return {
    defaultTtlSecs := some (form.defaultTtl.getD defaultBucketTtlSecs)
    anonymousAccess := anonymousAccess
    secretKeyHash := secretKeyHash
    readKeyHash := readKeyHash
    writeKeyHash := writeKeyHash
    signingKey := signingKey.map Bytes.utf8
    signingKeyGeneration := 0 }

/-- Create a bucket under a freshly drawn identifier and answer with its id. -/
def createBucket (state : AppState) (fresh : Uuid) (form : Except Response CreateBucketForm) : Handler Response := do
  let form <- known form
  let policy <- known (newBucketPolicy state form)
  spawnUsecase (Repo.createBucket fresh.bucketId policy)
  return Response.ofBytes "text/plain; charset=utf-8" (Bytes.utf8 fresh.bucketId.asStr)

/-! ## Policy updates -/

/-- A patch.  A field is absent, cleared by `null`, or given a value. -/
structure UpdatePolicyJson where
  secretKey : Option (Option String)
  readKey : Option (Option String)
  writeKey : Option (Option String)
  signingKey : Option (Option String)
  defaultTtl : Option (Option UInt64)
  deriving DecidableEq

namespace UpdatePolicyJson

/-- The patch of an empty body. -/
def none : UpdatePolicyJson := ⟨.none, .none, .none, .none, .none⟩

end UpdatePolicyJson

/-- A present field is wrapped once more, so that `null` differs from absent. -/
def deserializeDoubleOption {α : Type} (read : Json -> Option α) : Option Json -> Option (Option (Option α))
  | none => some none
  | some value => (asOption read value).map some

def updatePolicyFromJson (tree : Json) : Option UpdatePolicyJson :=
  match fields true 0 ["secret_key", "read_key", "write_key", "signing_key", "default_ttl"] tree with
  | some [secretKey, readKey, writeKey, signingKey, defaultTtl] => do
      return ⟨<- deserializeDoubleOption asString secretKey, <- deserializeDoubleOption asString readKey,
        <- deserializeDoubleOption asString writeKey, <- deserializeDoubleOption asString signingKey,
        <- deserializeDoubleOption asU64 defaultTtl⟩
  | _ => none

def parseUpdatePolicy (platform : Platform) (body : Bytes) : Option UpdatePolicyJson :=
  if body.isEmpty then some UpdatePolicyJson.none
  else (platform.json.fromSlice body).bind updatePolicyFromJson

def applyNullableHash (state : AppState) : Option String -> Except Response (Option Bytes)
  | none => .ok none
  | some value =>
      if value = "" then .error badRequest
      else (hashApiKeyOrFail state.platform state.rootKey value).map some

namespace BucketPolicy

/-- Install signing material.  The generation moves only when it changes. -/
def withSigningKey (policy : BucketPolicy) (newBytes : Option Bytes) : BucketPolicy :=
  { policy with
    signingKey := newBytes
    signingKeyGeneration :=
      if policy.signingKey ≠ newBytes then policy.signingKeyGeneration + 1 else policy.signingKeyGeneration }

end BucketPolicy

/-- The secret key may be rotated but not cleared. -/
def patchSecretKey (state : AppState) (policy : BucketPolicy) :
    Option (Option String) -> Except Response BucketPolicy
  | none => .ok policy
  | some none => .error badRequest
  | some (some value) =>
      if value = "" then .error badRequest
      else
        (hashApiKeyOrFail state.platform state.rootKey value).map
          (fun hash => { policy with secretKeyHash := some hash })

def patchReadKey (state : AppState) (policy : BucketPolicy) :
    Option (Option String) -> Except Response BucketPolicy
  | none => .ok policy
  | some inner => (applyNullableHash state inner).map (fun hash => { policy with readKeyHash := hash })

def patchWriteKey (state : AppState) (policy : BucketPolicy) :
    Option (Option String) -> Except Response BucketPolicy
  | none => .ok policy
  | some inner => (applyNullableHash state inner).map (fun hash => { policy with writeKeyHash := hash })

def patchSigningKey (policy : BucketPolicy) : Option (Option String) -> Except Response BucketPolicy
  | none => .ok policy
  | some none => .ok (policy.withSigningKey none)
  | some (some value) =>
      if value = "" then .error badRequest else .ok (policy.withSigningKey (some (Bytes.utf8 value)))

def patchDefaultTtl (policy : BucketPolicy) : Option (Option UInt64) -> BucketPolicy
  | none => policy
  | some inner => { policy with defaultTtlSecs := inner }

def applyPolicyPatch (state : AppState) (patch : UpdatePolicyJson) (policy : BucketPolicy) :
    Except Response BucketPolicy := do
  let policy <- patchSecretKey state policy patch.secretKey
  let policy <- patchReadKey state policy patch.readKey
  let policy <- patchWriteKey state policy patch.writeKey
  let policy <- patchSigningKey policy patch.signingKey
  return patchDefaultTtl policy patch.defaultTtl

/-- A patch with the anonymous defaults recomputed: what an update stores. -/
def patchedPolicy (state : AppState) (patch : UpdatePolicyJson) (policy : BucketPolicy) :
    Except Response BucketPolicy := do
  let policy <- applyPolicyPatch state patch policy
  return { policy with anonymousAccess := recomputeAnonymousAccess policy }

def updatePolicy (state : AppState) (auth : BucketAuth) (body : Except Response Bytes) : Handler Response := do
  let body <- known body
  known auth.requireAdmin
  let patch <- orReject badRequest (parseUpdatePolicy state.platform body)
  let policy <- spawnUsecase (Repo.getPolicy auth.bucketId)
  let policy <- orReject notFound policy
  let policy <- known (patchedPolicy state patch policy)
  spawnUsecase (Repo.createBucket auth.bucketId policy)
  return Response.ofStatus 204

/-! ## Deletion and inspection -/

def deleteBucket (auth : BucketAuth) : Handler Response := do
  known auth.requireAdmin
  spawnUsecase (Repo.deleteBucket auth.bucketId)
  return Response.ofStatus 204

/-- The public projection of a policy: which keys exist, but no key. -/
def publicPolicyView (policy : BucketPolicy) : Json :=
  let presence := PolicyKeysPresence.of policy
  .obj ((policy.defaultTtlSecs.map (fun seconds => ("default_ttl", Json.posInt seconds))).toList ++
    [("has_secret_key", .bool presence.hasSecretKey), ("has_read_key", .bool presence.hasReadKey),
      ("has_write_key", .bool presence.hasWriteKey), ("has_signing_key", .bool policy.signingKey.isSome),
      ("signing_key_generation", .posInt policy.signingKeyGeneration),
      ("anonymous_access", permissionToJson policy.anonymousAccess)])

def getBucketPolicy (auth : BucketAuth) : Handler Response := do
  known auth.requireAdmin
  let policy <- spawnUsecase (Repo.getPolicy auth.bucketId)
  let policy <- orReject notFound policy
  return Response.ofJson (publicPolicyView policy)

def headBucket (auth : BucketAuth) : Handler Response := do
  known auth.requireAdmin
  return Response.ofStatus 200

end Keydock
