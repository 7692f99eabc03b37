import Keydock.Http.Keys

/-!
# Issuing tokens

An administrator asks for a token with a prefix, permissions and a lifetime in
seconds.
-/

namespace Keydock

open Handler

structure CreateTokenForm where
  keyPrefix : String
  permissions : String
  ttl : Int64

/-- Add the permission a name stands for. -/
def Permission.grant (permission : Permission) (name : List Char) : Option Permission :=
  if name = "read".toList then some { permission with read := true }
  else if name = "write".toList then some { permission with write := true }
  else if name = "enumerate".toList then some { permission with enumerate := true }
  else if name = "delete".toList then some { permission with delete := true }
  else none

def parsePermissionParts : Permission -> List (List Char) -> Except Response Permission
  | permission, [] => .ok permission
  | permission, part :: rest =>
      let name := Text.trim part
      if name.isEmpty then parsePermissionParts permission rest
      else
        match permission.grant name with
        | none => .error badRequest
        | some permission => parsePermissionParts permission rest

def parsePermissions (raw : String) : Except Response Permission :=
  match parsePermissionParts Permission.none (Text.split ',' raw.toList) with
  | .error response => .error response
  | .ok permission => if permission = Permission.none then .error badRequest else .ok permission

/-- The claims a form asks for, under the policy found. -/
def requestedClaims (now : OffsetDateTime) (bucket : BucketId) (policy : BucketPolicy) (form : CreateTokenForm) :
    Except Response TemporaryTokenClaims :=
  if form.ttl ≤ 0 then .error badRequest
  else if form.keyPrefix = "" then .error badRequest
  else
    match now.checkedAddSeconds form.ttl with
    | none => .error badRequest
    | some exp =>
        match parsePermissions form.permissions with
        | .error response => .error response
        | .ok permissions =>
            .ok {
              version := 1
              bucket := bucket
              bucketGeneration := policy.signingKeyGeneration
              allowedPrefix := Bytes.utf8 form.keyPrefix
              permissions := permissions
              iat := now
              exp := exp }

def accessTokenResponse (accessToken : String) : Response :=
  Response.ofJson (.obj [("access_token", .str accessToken)])

def createToken (state : AppState) (clock : Clock) (auth : BucketAuth) (form : Except Response CreateTokenForm) :
    Handler Response := do
  let form <- known form
  known auth.requireAdmin
  let policy <- spawnUsecase (Repo.getPolicy auth.bucketId)
  let policy <- orReject notFound policy
  let signingKey <- orReject serviceUnavailable policy.signingKey
  let claims <- known (requestedClaims (clock 1) auth.bucketId policy form)
  let accessToken <- known ((mint state.platform claims signingKey).mapError (fun _ => serviceUnavailable))
  return accessTokenResponse accessToken

end Keydock
