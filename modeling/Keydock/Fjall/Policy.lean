import Keydock.Domain.Codec
import Keydock.Fjall.Layout

/-!
# The stored form of a policy

Policies are stored as JSON records.  Every policy is written to a tree that
reads back as the same policy, and the tree is within what the text form
preserves.
-/

namespace Keydock

open Json

def storedPolicyToJson (policy : BucketPolicy) : Json :=
  .obj [("secret_key_hash", ofOption ofBytes policy.secretKeyHash),
    ("read_key_hash", ofOption ofBytes policy.readKeyHash),
    ("write_key_hash", ofOption ofBytes policy.writeKeyHash),
    ("signing_key", ofOption ofBytes policy.signingKey),
    ("signing_key_generation", .posInt policy.signingKeyGeneration),
    ("default_ttl_secs", ofOption .posInt policy.defaultTtlSecs),
    ("anonymous_access", permissionToJson policy.anonymousAccess)]

def storedPolicyFromJson (tree : Json) : Option BucketPolicy :=
  match fields false 7 ["secret_key_hash", "read_key_hash", "write_key_hash", "signing_key",
      "signing_key_generation", "default_ttl_secs", "anonymous_access"] tree with
  | some [secretKeyHash, readKeyHash, writeKeyHash, signingKey, generation, defaultTtl, anonymous] => do
      let secretKeyHash <- optional asBytes secretKeyHash
      let readKeyHash <- optional asBytes readKeyHash
      let writeKeyHash <- optional asBytes writeKeyHash
      let signingKey <- optional asBytes signingKey
      let generation <- required asU64 generation
      let defaultTtl <- optional asU64 defaultTtl
      let anonymous <- required permissionFromJson anonymous
      return ⟨defaultTtl, anonymous, secretKeyHash, readKeyHash, writeKeyHash, signingKey, generation⟩
  | _ => none

def encodePolicy (platform : Platform) (policy : BucketPolicy) : Except UseCaseError Bytes :=
  match platform.json.toVec (storedPolicyToJson policy) with
  | some bytes => .ok bytes
  | none => .error (.storage "serde_json")

def decodePolicy (platform : Platform) (bytes : Bytes) : Except UseCaseError BucketPolicy :=
  match (platform.json.fromSlice bytes).bind storedPolicyFromJson with
  | some policy => .ok policy
  | none => .error (.storage "serde_json")

private theorem optional_bytes (value : Option Bytes) :
    optional asBytes (some (ofOption ofBytes value)) = some value :=
  asOption_ofOption asBytes_ofBytes (fun _ impossible => by cases impossible) value

private theorem optional_u64 (value : Option UInt64) :
    optional asU64 (some (ofOption .posInt value)) = some value := by
  cases value <;> rfl

@[simp] theorem storedPolicyFromJson_toJson (policy : BucketPolicy) :
    storedPolicyFromJson (storedPolicyToJson policy) = some policy := by
  have read : fields false 7 ["secret_key_hash", "read_key_hash", "write_key_hash", "signing_key",
      "signing_key_generation", "default_ttl_secs", "anonymous_access"] (storedPolicyToJson policy) =
      some [some (ofOption ofBytes policy.secretKeyHash), some (ofOption ofBytes policy.readKeyHash),
        some (ofOption ofBytes policy.writeKeyHash), some (ofOption ofBytes policy.signingKey),
        some (.posInt policy.signingKeyGeneration), some (ofOption .posInt policy.defaultTtlSecs),
        some (permissionToJson policy.anonymousAccess)] := rfl
  simp only [storedPolicyFromJson, read, optional_bytes, optional_u64, required, Option.bind_some, asU64,
    permissionFromJson_toJson, Option.pure_def, Option.bind_eq_bind]

private theorem all_ofOption_bytes (value : Option Bytes) : (ofOption ofBytes value).all isExact = true := by
  cases value with
  | none => rfl
  | some bytes => exact all_ofBytes bytes

private theorem depth_ofOption_bytes (value : Option Bytes) : (ofOption ofBytes value).depth ≤ 1 := by
  cases value with
  | none => exact Nat.zero_le 1
  | some bytes => exact Nat.le_of_eq (depth_ofBytes bytes)

theorem storedPolicyToJson_exact (policy : BucketPolicy) : (storedPolicyToJson policy).exact = true := by
  have ttl : (ofOption Json.posInt policy.defaultTtlSecs).all isExact = true := by
    cases policy.defaultTtlSecs <;> rfl
  have ttlDepth : (ofOption Json.posInt policy.defaultTtlSecs).depth = 0 := by
    cases policy.defaultTtlSecs <;> rfl
  have secret := depth_ofOption_bytes policy.secretKeyHash
  have read := depth_ofOption_bytes policy.readKeyHash
  have write := depth_ofOption_bytes policy.writeKeyHash
  have signing := depth_ofOption_bytes policy.signingKey
  simp only [Json.exact, storedPolicyToJson, permissionToJson, all, allMembers, isExact,
    all_ofOption_bytes, ttl, depth, depthMembers, ttlDepth, Bool.and_true, Bool.true_and,
    decide_eq_true_eq]
  omega

/-- A stored policy reads back as the policy that was written. -/
theorem decodePolicy_encodePolicy {platform : Platform} {policy : BucketPolicy} {bytes : Bytes}
    (encoded : encodePolicy platform policy = .ok bytes) : decodePolicy platform bytes = .ok policy := by
  unfold encodePolicy at encoded
  split at encoded
  next written text =>
    cases encoded
    have read := platform.json.fromSlice_toVec (storedPolicyToJson_exact policy) text
    simp only [decodePolicy, read, Option.bind_some, storedPolicyFromJson_toJson]
  next => cases encoded

end Keydock
