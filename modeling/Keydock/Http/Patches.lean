import Keydock.Http.Buckets

/-!
# What a patch changes

A patch is refused with an error status, or it yields a policy whose keys are
those it names and, where it names none, those of the policy it was applied
to.  The generation of the signing key moves exactly when the key does.
-/

namespace Keydock

/-- A computation of a policy: refused with an error status, or the policy has
a property. -/
def Yields (post : BucketPolicy -> Prop) : Except Response BucketPolicy -> Prop
  | .ok policy => post policy
  | .error response => response.isSuccess = false

namespace Yields

variable {post later : BucketPolicy -> Prop}

theorem bind {outcome : Except Response BucketPolicy} {next : BucketPolicy -> Except Response BucketPolicy}
    (first : Yields post outcome) (rest : forall policy, post policy -> Yields later (next policy)) :
    Yields later (outcome >>= next) := by
  cases outcome with
  | error response => exact first
  | ok policy => exact rest policy first

theorem map {outcome : Except Response (Option Bytes)} {store : Option Bytes -> BucketPolicy}
    (failing : forall response, outcome = .error response -> response.isSuccess = false)
    (holds : forall hash, outcome = .ok hash -> post (store hash)) : Yields post (outcome.map store) := by
  cases outcome with
  | error response => exact failing response rfl
  | ok hash => exact holds hash rfl

end Yields

section Fields

variable (state : AppState)

theorem hashApiKeyOrFail_error {raw : String} {response : Response}
    (failed : hashApiKeyOrFail state.platform state.rootKey raw = .error response) : response.isSuccess = false := by
  unfold hashApiKeyOrFail at failed
  cases hashed : hashCredential state.platform raw state.rootKey with
  | error error =>
      rw [hashed] at failed
      cases failed
      rfl
  | ok hash => rw [hashed] at failed; cases failed

theorem applyNullableHash_error {value : Option String} {response : Response}
    (failed : applyNullableHash state value = .error response) : response.isSuccess = false := by
  cases value with
  | none => cases failed
  | some raw =>
      simp only [applyNullableHash] at failed
      split at failed
      · cases failed
        rfl
      · cases hashed : hashApiKeyOrFail state.platform state.rootKey raw with
        | error other =>
            rw [hashed] at failed
            cases failed
            exact hashApiKeyOrFail_error state hashed
        | ok hash => rw [hashed] at failed; cases failed

/-- A patch of the secret key leaves all other fields alone. -/
theorem patchSecretKey_yields (policy : BucketPolicy) (field : Option (Option String)) :
    Yields (fun result => Exists fun hash => result = { policy with secretKeyHash := hash })
      (patchSecretKey state policy field) := by
  cases field with
  | none => exact ⟨policy.secretKeyHash, rfl⟩
  | some inner =>
      cases inner with
      | none => exact rfl
      | some value =>
          simp only [patchSecretKey]
          split
          · exact rfl
          · cases hashed : hashApiKeyOrFail state.platform state.rootKey value with
            | error response => exact hashApiKeyOrFail_error state hashed
            | ok hash => exact ⟨some hash, rfl⟩

/-- What a patch makes of a hash that may be cleared. -/
def NullableHash (field : Option (Option String)) (before after : Option Bytes) : Prop :=
  match field with
  | none => after = before
  | some inner => applyNullableHash state inner = .ok after

theorem patchReadKey_yields (policy : BucketPolicy) (field : Option (Option String)) :
    Yields (fun result => Exists fun hash => NullableHash state field policy.readKeyHash hash ∧
      result = { policy with readKeyHash := hash }) (patchReadKey state policy field) := by
  cases field with
  | none => exact ⟨policy.readKeyHash, rfl, rfl⟩
  | some inner =>
      exact Yields.map (fun response failed => applyNullableHash_error state failed)
        (fun hash made => ⟨hash, made, rfl⟩)

theorem patchWriteKey_yields (policy : BucketPolicy) (field : Option (Option String)) :
    Yields (fun result => Exists fun hash => NullableHash state field policy.writeKeyHash hash ∧
      result = { policy with writeKeyHash := hash }) (patchWriteKey state policy field) := by
  cases field with
  | none => exact ⟨policy.writeKeyHash, rfl, rfl⟩
  | some inner =>
      exact Yields.map (fun response failed => applyNullableHash_error state failed)
        (fun hash made => ⟨hash, made, rfl⟩)

end Fields

/-- The signing key after a patch. -/
def UpdatePolicyJson.signingKeyOn (patch : UpdatePolicyJson) (before : Option Bytes) : Option Bytes :=
  match patch.signingKey with
  | .none => before
  | .some inner => inner.map Bytes.utf8

theorem BucketPolicy.withSigningKey_self (policy : BucketPolicy) :
    policy.withSigningKey policy.signingKey = policy := by
  simp [withSigningKey]

theorem patchSigningKey_yields (policy : BucketPolicy) (patch : UpdatePolicyJson) :
    Yields (fun result => result = policy.withSigningKey (patch.signingKeyOn policy.signingKey))
      (patchSigningKey policy patch.signingKey) := by
  unfold UpdatePolicyJson.signingKeyOn
  cases patch.signingKey with
  | none => exact policy.withSigningKey_self.symm
  | some inner =>
      cases inner with
      | none => exact rfl
      | some value =>
          simp only [patchSigningKey]
          split
          · exact rfl
          · exact rfl

/-- What an update stores, field by field. -/
structure Patched (state : AppState) (patch : UpdatePolicyJson) (policy result : BucketPolicy) : Prop where
  readKey : NullableHash state patch.readKey policy.readKeyHash result.readKeyHash
  writeKey : NullableHash state patch.writeKey policy.writeKeyHash result.writeKeyHash
  signingKey : result.signingKey = patch.signingKeyOn policy.signingKey
  generation : result.signingKeyGeneration =
    if policy.signingKey ≠ result.signingKey then policy.signingKeyGeneration + 1 else policy.signingKeyGeneration
  anonymous : result.anonymousAccess = recomputeAnonymousAccess result

theorem patchedPolicy_yields (state : AppState) (patch : UpdatePolicyJson) (policy : BucketPolicy) :
    Yields (Patched state patch policy) (patchedPolicy state patch policy) := by
  unfold patchedPolicy applyPolicyPatch
  simp only [bind_assoc, pure_bind]
  refine (patchSecretKey_yields state policy patch.secretKey).bind ?_
  rintro _ ⟨secretHash, rfl⟩
  refine (patchReadKey_yields state _ patch.readKey).bind ?_
  rintro _ ⟨readHash, readMade, rfl⟩
  refine (patchWriteKey_yields state _ patch.writeKey).bind ?_
  rintro _ ⟨writeHash, writeMade, rfl⟩
  refine (patchSigningKey_yields _ patch).bind ?_
  rintro _ rfl
  unfold patchDefaultTtl
  cases patch.defaultTtl with
  | none => exact ⟨readMade, writeMade, rfl, rfl, rfl⟩
  | some ttl => exact ⟨readMade, writeMade, rfl, rfl, rfl⟩

end Keydock
