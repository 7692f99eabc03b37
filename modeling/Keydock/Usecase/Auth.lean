import Keydock.Usecase.Tokens

/-!
# Credential resolution

A presented credential is compared with the secret, write and read keys, in
this order, and is otherwise verified as a temporary token.  No credential is
the anonymous identity.
-/

namespace Keydock

/-- The identity a credential stands for under a policy. -/
inductive ResolvedIdentity
  | anonymous
  | admin
  | scoped (permissions : Permission) (keyPrefix : Bytes)
  deriving DecidableEq

def hashCredential (platform : Platform) (raw : String) (rootKey : Bytes) : Except AuthError Bytes :=
  match platform.hmacSha256 rootKey (Bytes.utf8 raw) with
  | none => .error .invalidKeyMaterial
  | some hash => .ok hash

def verifyCredential (platform : Platform) (presented : String) (storedHash rootKey : Bytes) : Bool :=
  match hashCredential platform presented rootKey with
  | .error _ => false
  | .ok computed => computed == storedHash

/-- A configured key hash matches the credential. -/
def matchesKey (platform : Platform) (credential : String) (rootKey : Bytes) : Option Bytes -> Bool
  | none => false
  | some hash => verifyCredential platform credential hash rootKey

def resolve (platform : Platform) (raw : Option String) (policy : BucketPolicy) (bucket : BucketId)
    (rootKey : Bytes) (now : OffsetDateTime) : Except AuthError ResolvedIdentity :=
  match raw with
  | none => .ok .anonymous
  | some credential =>
      if matchesKey platform credential rootKey policy.secretKeyHash then .ok .admin
      else if matchesKey platform credential rootKey policy.writeKeyHash then
        .ok (.scoped Permission.writeOnly [])
      else if matchesKey platform credential rootKey policy.readKeyHash then
        .ok (.scoped Permission.readEnumerate [])
      else
        match verify platform credential policy bucket now with
        | .error _ => .error .invalidCredential
        | .ok claims => .ok (.scoped claims.permissions claims.allowedPrefix)

/-- The anonymous identity is exactly the absence of a credential. -/
theorem resolve_eq_anonymous {platform : Platform} {raw : Option String} {policy : BucketPolicy}
    {bucket : BucketId} {rootKey : Bytes} {now : OffsetDateTime}
    (resolved : resolve platform raw policy bucket rootKey now = .ok .anonymous) : raw = none := by
  cases raw with
  | none => rfl
  | some credential =>
      simp only [resolve] at resolved
      repeat' split at resolved
      all_goals cases resolved

end Keydock
