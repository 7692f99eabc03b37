import Keydock.Foundation.Base64
import Keydock.Domain.Codec
import Keydock.Usecase.Ports

/-!
# Temporary tokens

A token is the JSON text of its claims and a keyed hash of that text, both in
base64url and joined by a dot.  Verification checks, in this order: that the
bucket has a signing key, the format, the hash, the claims' expiry, their
bucket and their generation of the signing key.
-/

namespace Keydock

open Json

def claimsToJson (platform : Platform) (claims : TemporaryTokenClaims) : Option Json := do
  let iat <- platform.formatRfc3339 claims.iat
  let exp <- platform.formatRfc3339 claims.exp
  return .obj [("version", .posInt (UInt64.ofNat claims.version.toNat)), ("bucket", .str claims.bucket.asStr),
    ("bucket_generation", .posInt claims.bucketGeneration), ("allowed_prefix", ofBytes claims.allowedPrefix),
    ("permissions", permissionToJson claims.permissions), ("iat", .str iat), ("exp", .str exp)]

def asInstant (platform : Platform) (tree : Json) : Option OffsetDateTime :=
  (asString tree).bind platform.parseRfc3339

def claimsFromJson (platform : Platform) (tree : Json) : Option TemporaryTokenClaims :=
  match fields false 7 ["version", "bucket", "bucket_generation", "allowed_prefix", "permissions", "iat", "exp"]
      tree with
  | some [version, bucket, generation, allowedPrefix, permissions, iat, exp] => do
      let version <- required asU8 version
      let bucket <- required asString bucket
      let generation <- required asU64 generation
      let allowedPrefix <- required asBytes allowedPrefix
      let permissions <- required permissionFromJson permissions
      let iat <- required (asInstant platform) iat
      let exp <- required (asInstant platform) exp
      return ⟨version, ⟨bucket⟩, generation, allowedPrefix, permissions, iat, exp⟩
  | _ => none

/-- The text of a token with a given payload and signature. -/
def tokenText (json sig : Bytes) : String :=
  String.ofList (Base64.urlSafeNoPad.encode json ++ '.' :: Base64.urlSafeNoPad.encode sig)

def mint (platform : Platform) (claims : TemporaryTokenClaims) (signingKey : Bytes) : Except TokenError String :=
  match (claimsToJson platform claims).bind platform.json.toVec with
  | none => .error .serialize
  | some json =>
      match platform.hmacSha256 signingKey json with
      | none => .error .invalidFormat
      | some sig => .ok (tokenText json sig)

def verify (platform : Platform) (raw : String) (policy : BucketPolicy) (bucket : BucketId)
    (now : OffsetDateTime) : Except TokenError TemporaryTokenClaims :=
  match policy.signingKey with
  | none => .error .noSigningKey
  | some signingKey =>
      match Text.splitOnce '.' raw.toList with
      | none => .error .invalidFormat
      | some (payload, signature) =>
          match Base64.urlSafeNoPad.decode payload, Base64.urlSafeNoPad.decode signature with
          | some json, some expectedSig =>
              match platform.hmacSha256 signingKey json with
              | none => .error .invalidFormat
              | some computed =>
                  if computed ≠ expectedSig then .error .invalidSignature
                  else
                    match (platform.json.fromSlice json).bind (claimsFromJson platform) with
                    | none => .error .invalidFormat
                    | some claims =>
                        if claims.exp ≤ now then .error .expired
                        else if claims.bucket ≠ bucket then .error .bucketMismatch
                        else if claims.bucketGeneration ≠ policy.signingKeyGeneration then
                          .error .generationMismatch
                        else .ok claims
          | _, _ => .error .invalidFormat

/-! ## What tokens carry -/

theorem claimsFromJson_toJson {platform : Platform} {claims : TemporaryTokenClaims} {tree : Json}
    (written : claimsToJson platform claims = some tree) :
    claimsFromJson platform tree = some claims ∧ tree.exact = true := by
  simp only [claimsToJson, Option.bind_eq_bind, Option.bind_eq_some_iff, Option.pure_def] at written
  rcases written with ⟨iat, iatText, exp, expText, same⟩
  cases same
  constructor
  · have read : fields false 7
        ["version", "bucket", "bucket_generation", "allowed_prefix", "permissions", "iat", "exp"]
        (.obj [("version", .posInt (UInt64.ofNat claims.version.toNat)), ("bucket", .str claims.bucket.asStr),
          ("bucket_generation", .posInt claims.bucketGeneration), ("allowed_prefix", ofBytes claims.allowedPrefix),
          ("permissions", permissionToJson claims.permissions), ("iat", .str iat), ("exp", .str exp)]) =
        some [some (.posInt (UInt64.ofNat claims.version.toNat)), some (.str claims.bucket.asStr),
          some (.posInt claims.bucketGeneration), some (ofBytes claims.allowedPrefix),
          some (permissionToJson claims.permissions), some (.str iat), some (.str exp)] := rfl
    simp only [claimsFromJson, read, required, Option.bind_some, asU8_ofNat, asString, asU64, asBytes_ofBytes,
      permissionFromJson_toJson, asInstant, platform.parse_format iatText, platform.parse_format expText,
      Option.bind_eq_bind, Option.pure_def]
  · simp only [Json.exact, permissionToJson, all, allMembers, isExact, all_ofBytes, depth, depthMembers,
      depth_ofBytes, Bool.and_true, Bool.true_and]
    decide

theorem dot_not_mem_encode (bytes : Bytes) : '.' ∉ Base64.urlSafeNoPad.encode bytes := by
  intro member
  have outside : '.' ∉ Base64.urlSafeNoPad.digits := by decide +kernel
  rcases Base64.urlSafeNoPad.mem_encode member with digit | sign
  · exact outside digit
  · exact absurd sign (by decide)

/-- A token text determines its payload and signature. -/
theorem tokenText_injective {json otherJson sig otherSig : Bytes}
    (same : tokenText json sig = tokenText otherJson otherSig) : json = otherJson ∧ sig = otherSig := by
  have chars := congrArg String.toList same
  rw [tokenText, tokenText, String.toList_ofList, String.toList_ofList] at chars
  have left := Text.splitOnce_append (dot_not_mem_encode json) (Base64.urlSafeNoPad.encode sig)
  have right := Text.splitOnce_append (dot_not_mem_encode otherJson) (Base64.urlSafeNoPad.encode otherSig)
  rw [chars, right] at left
  have parts := Option.some.inj left
  have payload := congrArg Base64.urlSafeNoPad.decode (congrArg Prod.fst parts)
  have signature := congrArg Base64.urlSafeNoPad.decode (congrArg Prod.snd parts)
  simp only [Base64.decode_encode, Option.some.injEq] at payload signature
  exact ⟨payload.symm, signature.symm⟩

/-- Exactly what a verified token has to be. -/
theorem verify_eq_ok_iff {platform : Platform} {raw : String} {policy : BucketPolicy} {bucket : BucketId}
    {now : OffsetDateTime} {claims : TemporaryTokenClaims} :
    verify platform raw policy bucket now = .ok claims ↔
      Exists fun signingKey => Exists fun json => Exists fun sig =>
        policy.signingKey = some signingKey ∧ raw = tokenText json sig ∧
        platform.hmacSha256 signingKey json = some sig ∧
        (platform.json.fromSlice json).bind (claimsFromJson platform) = some claims ∧
        now < claims.exp ∧ claims.bucket = bucket ∧
        claims.bucketGeneration = policy.signingKeyGeneration := by
  constructor
  · intro verified
    unfold verify at verified
    split at verified
    next => cases verified
    next signingKey configured =>
      split at verified
      next => cases verified
      next payload signature parts =>
        split at verified
        next json sig payloadBytes signatureBytes =>
          split at verified
          next => cases verified
          next computed hashed =>
            split at verified
            next => cases verified
            next equal =>
              split at verified
              next => cases verified
              next decoded read =>
                split at verified
                next => cases verified
                next valid =>
                  split at verified
                  next => cases verified
                  next sameBucket =>
                    split at verified
                    next => cases verified
                    next sameGeneration =>
                      cases verified
                      have same : computed = sig := by simpa using equal
                      refine ⟨signingKey, json, sig, configured, ?_, same ▸ hashed, read,
                        Int.not_le.mp valid, by simpa using sameBucket, by simpa using sameGeneration⟩
                      rw [tokenText, Base64.encode_of_decode _ payloadBytes, Base64.encode_of_decode _ signatureBytes,
                        ← Text.append_of_splitOnce parts, String.ofList_toList]
        next => cases verified
  · rintro ⟨signingKey, json, sig, configured, rfl, hashed, read, valid, sameBucket, sameGeneration⟩
    have parts := Text.splitOnce_append (dot_not_mem_encode json) (Base64.urlSafeNoPad.encode sig)
    have live : ¬ claims.exp ≤ now := Int.not_le.mpr valid
    simp only [verify, configured, tokenText, String.toList_ofList, parts, Base64.decode_encode, hashed, read,
      ne_eq, not_true, if_false, if_neg live, sameBucket, sameGeneration]

/-- A minted token is the signed text of its claims. -/
theorem mint_eq_ok_iff {platform : Platform} {claims : TemporaryTokenClaims} {signingKey : Bytes} {raw : String} :
    mint platform claims signingKey = .ok raw ↔
      Exists fun json => Exists fun sig => (claimsToJson platform claims).bind platform.json.toVec = some json ∧
        platform.hmacSha256 signingKey json = some sig ∧ raw = tokenText json sig := by
  unfold mint
  constructor
  · intro minted
    split at minted
    next => cases minted
    next json written =>
      split at minted
      next => cases minted
      next sig hashed =>
        cases minted
        exact ⟨json, sig, written, hashed, rfl⟩
  · rintro ⟨json, sig, written, hashed, rfl⟩
    rw [written]
    simp only [hashed]

/-- The payload of a minted token decodes to its claims. -/
theorem read_of_written {platform : Platform} {claims : TemporaryTokenClaims} {json : Bytes}
    (written : (claimsToJson platform claims).bind platform.json.toVec = some json) :
    (platform.json.fromSlice json).bind (claimsFromJson platform) = some claims := by
  rcases Option.bind_eq_some_iff.mp written with ⟨tree, made, text⟩
  have inverse := claimsFromJson_toJson made
  rw [platform.json.fromSlice_toVec inverse.2 text, Option.bind_some, inverse.1]

end Keydock
