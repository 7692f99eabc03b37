import Keydock.Http.Forms
import Keydock.Http.TokenRuns
import Keydock.Sdk.Client
import Keydock.Sdk.Deltas

/-!
# Tokens for others

The holder of the secret key asks for a token with a prefix, permissions and a
number of seconds.  The client checks the request and sends it as a form; the
server reads the form, and signs claims.  Whoever presents the token later is
identified by these claims.

What was asked for is what the token grants: for the seconds it was asked for,
and for as long as the signing key stays, its holder has exactly the permissions
of the list on exactly the keys under the prefix.
-/

namespace Keydock
namespace Sdk

open Handler PercentCoding

/-- A number that is an integer and is written with all its digits.  The client
accepts any finite integer; those from `2 ^ 53` on are left out. -/
structure SafeInteger where
  value : Int
  safe : value.natAbs < 2 ^ 53

def SafeInteger.toString (number : SafeInteger) : String := String.ofList (bigintToString number.value)

inductive TokenPermission
  | read
  | write
  | enumerate
  | delete
  deriving DecidableEq

def TokenPermission.text : TokenPermission -> String
  | .read => "read"
  | .write => "write"
  | .enumerate => "enumerate"
  | .delete => "delete"

structure CreateTokenInput where
  keyPrefix : String
  permissions : List TokenPermission
  ttlSeconds : SafeInteger

def validatePositiveInteger (name : String) (number : SafeInteger) : Except KeydockValidationError Unit :=
  if number.value ≤ 0 then .error ⟨name ++ " must be a positive integer"⟩ else .ok ()

/-- The permissions read so far, in the order in which they come. -/
def distinctPermissions (seen : List TokenPermission) :
    List TokenPermission -> Except KeydockValidationError (List TokenPermission)
  | [] => .ok seen
  | permission :: rest =>
      if permission ∈ seen then .error ⟨"Duplicate token permission: " ++ permission.text⟩
      else distinctPermissions (seen ++ [permission]) rest

/-- The texts of the permissions, with commas between them. -/
def permissionsText (permissions : List TokenPermission) : String :=
  String.ofList (Text.join ',' (permissions.map (fun permission => permission.text.toList)))

def createTokenForm (input : CreateTokenInput) : Except KeydockValidationError (List (String × String)) := do
  if input.keyPrefix = "" then
    throw ⟨"Token prefix must be non-empty"⟩
  validatePositiveInteger "ttlSeconds" input.ttlSeconds
  if input.permissions = [] then
    throw ⟨"Token permissions must be non-empty"⟩
  let permissions <- distinctPermissions [] input.permissions
  return [("prefix", input.keyPrefix), ("permissions", permissionsText permissions),
    ("ttl", input.ttlSeconds.toString)]

/-! ## The form -/

/-- An input that the client sends. -/
structure CreateTokenInput.Valid (input : CreateTokenInput) : Prop where
  confined : input.keyPrefix ≠ ""
  positive : 0 < input.ttlSeconds.value
  listed : input.permissions ≠ []
  distinct : input.permissions.Nodup

theorem distinctPermissions_eq {seen permissions : List TokenPermission} (distinct : (seen ++ permissions).Nodup) :
    distinctPermissions seen permissions = .ok (seen ++ permissions) := by
  induction permissions generalizing seen with
  | nil => rw [distinctPermissions, List.append_nil]
  | cons permission rest ih =>
      have absent : permission ∉ seen := by
        intro member
        exact (List.nodup_append.mp distinct).2.2 permission member permission List.mem_cons_self rfl
      have shifted : seen ++ permission :: rest = (seen ++ [permission]) ++ rest := by
        rw [List.append_assoc, List.singleton_append]
      rw [shifted] at distinct ⊢
      rw [distinctPermissions, if_neg absent, ih distinct]

theorem nodup_of_distinctPermissions {seen permissions kept : List TokenPermission} (before : seen.Nodup)
    (made : distinctPermissions seen permissions = .ok kept) : (seen ++ permissions).Nodup := by
  induction permissions generalizing seen with
  | nil => rwa [List.append_nil]
  | cons permission rest ih =>
      rw [distinctPermissions] at made
      split at made
      next => cases made
      next absent =>
        have longer : (seen ++ [permission]).Nodup := by
          rw [List.nodup_append]
          refine ⟨before, List.nodup_singleton permission, ?_⟩
          intro earlier member other last same
          rw [same, List.mem_singleton.mp last] at member
          exact absent member
        have whole := ih longer made
        rwa [List.append_assoc, List.singleton_append] at whole

theorem createTokenForm_eq {input : CreateTokenInput} (valid : input.Valid) :
    createTokenForm input = .ok [("prefix", input.keyPrefix), ("permissions", permissionsText input.permissions),
      ("ttl", input.ttlSeconds.toString)] := by
  have distinct : distinctPermissions [] input.permissions = .ok input.permissions :=
    distinctPermissions_eq valid.distinct
  simp only [createTokenForm, validatePositiveInteger, if_neg valid.confined, if_neg (Int.not_le.mpr valid.positive),
    if_neg valid.listed, distinct, bind, Except.bind]
  rfl

theorem valid_of_createTokenForm {input : CreateTokenInput} {pairs : List (String × String)}
    (sent : createTokenForm input = .ok pairs) : input.Valid := by
  simp only [createTokenForm, validatePositiveInteger, bind, Except.bind] at sent
  split at sent
  next => cases sent
  next confined =>
    split at sent
    next => cases sent
    next positive =>
      split at positive
      next => cases positive
      next notPositive =>
        split at sent
        next => cases sent
        next listed =>
          split at sent
          next => cases sent
          next kept made =>
            exact ⟨confined, Int.not_le.mp notPositive, listed, nodup_of_distinctPermissions List.nodup_nil made⟩

/-- The number of seconds, as the server reads it. -/
def SafeInteger.seconds (number : SafeInteger) : Int64 := Int64.ofInt number.value

theorem SafeInteger.toInt_seconds (number : SafeInteger) : number.seconds.toInt = number.value := by
  have safe := number.safe
  exact Int64.toInt_ofInt_of_le (by omega) (by omega)

theorem SafeInteger.parseI64_toString (number : SafeInteger) :
    Text.parseI64 number.toString.toList = some number.seconds := by
  have text : number.toString.toList = Text.displayI64 number.seconds := by
    rw [SafeInteger.toString, String.toList_ofList, bigintToString, Text.displayI64, number.toInt_seconds]
  rw [text, Text.parseI64_displayI64]

theorem createTokenFormOf_eq (input : CreateTokenInput) :
    createTokenFormOf [("prefix", input.keyPrefix), ("permissions", permissionsText input.permissions),
      ("ttl", input.ttlSeconds.toString)] =
      some ⟨input.keyPrefix, permissionsText input.permissions, input.ttlSeconds.seconds⟩ := by
  have fields : formField "prefix" [("prefix", input.keyPrefix), ("permissions", permissionsText input.permissions),
        ("ttl", input.ttlSeconds.toString)] = some (some input.keyPrefix) ∧
      formField "permissions" [("prefix", input.keyPrefix), ("permissions", permissionsText input.permissions),
        ("ttl", input.ttlSeconds.toString)] = some (some (permissionsText input.permissions)) ∧
      formField "ttl" [("prefix", input.keyPrefix), ("permissions", permissionsText input.permissions),
        ("ttl", input.ttlSeconds.toString)] = some (some input.ttlSeconds.toString) := ⟨rfl, rfl, rfl⟩
  simp only [createTokenFormOf, fields, Option.bind_eq_bind, Option.bind_some,
    input.ttlSeconds.parseI64_toString, Option.pure_def]

/-! ## Permissions -/

/-- The permissions of a list. -/
def permissionOf (permissions : List TokenPermission) : Permission where
  read := .read ∈ permissions
  write := .write ∈ permissions
  enumerate := .enumerate ∈ permissions
  delete := .delete ∈ permissions

/-- A permission with one more. -/
def grantAlso (permission : Permission) : TokenPermission -> Permission
  | .read => { permission with read := true }
  | .write => { permission with write := true }
  | .enumerate => { permission with enumerate := true }
  | .delete => { permission with delete := true }

theorem grant_text (permission : Permission) (added : TokenPermission) :
    permission.grant (Text.trim added.text.toList) = some (grantAlso permission added) := by
  cases added <;> rfl

theorem parsePermissionParts_texts (permission : Permission) (permissions : List TokenPermission) :
    parsePermissionParts permission (permissions.map (fun added => added.text.toList)) =
      .ok (permissions.foldl grantAlso permission) := by
  induction permissions generalizing permission with
  | nil => rfl
  | cons added rest ih =>
      have nonempty : (Text.trim added.text.toList).isEmpty = false := by cases added <;> decide
      rw [List.map_cons, parsePermissionParts]
      simp only [nonempty, grant_text, ih]
      rfl

theorem foldl_grantAlso (permissions : List TokenPermission) (permission : Permission) :
    permissions.foldl grantAlso permission =
      ⟨permission.read || decide (.read ∈ permissions), permission.write || decide (.write ∈ permissions),
        permission.enumerate || decide (.enumerate ∈ permissions),
        permission.delete || decide (.delete ∈ permissions)⟩ := by
  induction permissions generalizing permission with
  | nil => simp
  | cons added rest ih =>
      rw [List.foldl_cons, ih]
      cases added <;> simp [grantAlso]

theorem parsePermissions_text {permissions : List TokenPermission} (listed : permissions ≠ []) :
    parsePermissions (permissionsText permissions) = .ok (permissionOf permissions) := by
  have whole : forall piece, piece ∈ permissions.map (fun permission => permission.text.toList) -> ',' ∉ piece := by
    intro piece member
    rcases List.mem_map.mp member with ⟨permission, _, rfl⟩
    cases permission <;> decide
  have parts : Text.split ',' (permissionsText permissions).toList =
      permissions.map (fun permission => permission.text.toList) := by
    rw [permissionsText, String.toList_ofList]
    exact Text.split_join whole (fun empty => listed (List.map_eq_nil_iff.mp empty))
  have read : parsePermissionParts Permission.none (Text.split ',' (permissionsText permissions).toList) =
      .ok (permissionOf permissions) := by
    rw [parts, parsePermissionParts_texts, foldl_grantAlso]
    simp only [Permission.none, Bool.false_or, permissionOf]
  have granted : permissionOf permissions ≠ Permission.none := by
    rcases List.exists_mem_of_ne_nil _ listed with ⟨permission, member⟩
    intro none
    have flags : Permission.mk (decide (.read ∈ permissions)) (decide (.write ∈ permissions))
        (decide (.enumerate ∈ permissions)) (decide (.delete ∈ permissions)) = ⟨false, false, false, false⟩ := none
    cases permission <;> simp_all
  rw [parsePermissions, read]
  simp only [if_neg granted]

/-! ## The token -/

/-- The claims an input stands for. -/
def CreateTokenInput.claims (input : CreateTokenInput) (bucket : BucketId) (policy : BucketPolicy)
    (now exp : OffsetDateTime) : TemporaryTokenClaims where
  version := 1
  bucket := bucket
  bucketGeneration := policy.signingKeyGeneration
  allowedPrefix := Bytes.utf8 input.keyPrefix
  permissions := permissionOf input.permissions
  iat := now
  exp := exp

theorem requestedClaims_eq {input : CreateTokenInput} (valid : input.Valid) {now exp : OffsetDateTime}
    (expiry : now.checkedAddSeconds input.ttlSeconds.seconds = some exp) (bucket : BucketId) (policy : BucketPolicy) :
    requestedClaims now bucket policy ⟨input.keyPrefix, permissionsText input.permissions, input.ttlSeconds.seconds⟩ =
      .ok (input.claims bucket policy now exp) := by
  have positive : ¬ input.ttlSeconds.seconds ≤ 0 := by
    rw [Int64.le_iff_toInt_le, input.ttlSeconds.toInt_seconds]
    exact Int.not_le.mpr valid.positive
  simp only [requestedClaims, if_neg positive, if_neg valid.confined, expiry, parsePermissions_text valid.listed]
  rfl

/-- The request of the client for a token. -/
def tokenRequest (bucket : Name) (credential : String) (clock : Clock) (rejection : Response)
    (pairs : List (String × String)) : BucketRequest where
  bucket := bucket.segment
  query := none
  authorization := some (Bytes.utf8 ("Bearer " ++ credential))
  clock := clock
  route := .createToken (extractForm createTokenFormOf rejection (FormCoding.serialize pairs))

/-- A header carries every token. -/
theorem extract_tokenText (json sig : Bytes) (query : Option String) :
    extract (some (Bytes.utf8 ("Bearer " ++ tokenText json sig))) query = some (.bearer (tokenText json sig)) := by
  have checked : Base64.urlSafeNoPad.digits.all (fun c => isHeaderChar c && !Text.isWhitespace c) = true := by
    decide +kernel
  have digits : forall c, c ∈ Base64.urlSafeNoPad.digits -> isHeaderChar c = true ∧ Text.isWhitespace c = false := by
    intro c digit
    have both := List.all_eq_true.mp checked c digit
    rw [Bool.and_eq_true, Bool.not_eq_true'] at both
    exact both
  have coded : forall (bytes : Bytes) (c : Char), c ∈ Base64.urlSafeNoPad.encode bytes ->
      isHeaderChar c = true ∧ Text.isWhitespace c = false := by
    intro bytes c member
    rcases Base64.urlSafeNoPad.mem_encode member with digit | rfl
    · exact digits c digit
    · decide
  have plain : forall c, c ∈ (tokenText json sig).toList -> isHeaderChar c = true ∧ Text.isWhitespace c = false := by
    intro c member
    rw [tokenText, String.toList_ofList] at member
    rcases List.mem_append.mp member with payload | rest
    · exact coded json c payload
    · rcases List.mem_cons.mp rest with rfl | signature
      · decide
      · exact coded sig c signature
  refine extract_carried ?_ (Text.trim_of_not_whitespace (fun c member => (plain c member).2)) ?_ query
  · exact List.all_eq_true.mpr (fun c member => (plain c member).1)
  · rw [tokenText, String.toList_ofList]
    exact List.append_ne_nil_of_right_ne_nil _ (List.cons_ne_nil _ _)

/-- A minted token verifies until it expires, under a policy that has kept the
signing key. -/
theorem verify_minted {platform : Platform} {claims : TemporaryTokenClaims} {signingKey : Bytes} {token : String}
    (minted : mint platform claims signingKey = .ok token) {current : BucketPolicy}
    (kept : current.signingKey = some signingKey) (generation : current.signingKeyGeneration = claims.bucketGeneration)
    (now : OffsetDateTime) :
    (now < claims.exp -> verify platform token current claims.bucket now = .ok claims) ∧
      (¬ now < claims.exp -> Exists fun error => verify platform token current claims.bucket now = .error error) := by
  rcases mint_eq_ok_iff.mp minted with ⟨json, sig, written, hashed, rfl⟩
  constructor
  · intro valid
    exact verify_eq_ok_iff.mpr ⟨signingKey, json, sig, kept, rfl, hashed, read_of_written written, valid, rfl,
      generation.symm⟩
  · intro expired
    cases verified : verify platform (tokenText json sig) current claims.bucket now with
    | error error => exact ⟨error, rfl⟩
    | ok other =>
        rcases verify_eq_ok_iff.mp verified with ⟨_, otherJson, otherSig, _, text, _, read, valid, _, _⟩
        rw [← (tokenText_injective text).1, read_of_written written] at read
        cases read
        exact absurd valid expired

/-- What the holder of a token may do, in terms of what was asked for. -/
structure CreateTokenInput.Grants (input : CreateTokenInput) (auth : BucketAuth) : Prop where
  read : forall key, auth.requireReadOn key = .ok () ↔
    .read ∈ input.permissions ∧ Bytes.utf8 input.keyPrefix <+: key.asBytes
  write : forall key, auth.requireWriteOn key = .ok () ↔
    .write ∈ input.permissions ∧ Bytes.utf8 input.keyPrefix <+: key.asBytes
  delete : forall key, auth.requireDeleteOn key = .ok () ↔
    .delete ∈ input.permissions ∧ Bytes.utf8 input.keyPrefix <+: key.asBytes
  enumerate : auth.requireEnumerate = .ok () ↔ .enumerate ∈ input.permissions
  admin : auth.requireAdmin ≠ .ok ()

theorem CreateTokenInput.grants {input : CreateTokenInput} (valid : input.Valid) (bucket : BucketId)
    (policy : BucketPolicy) :
    input.Grants (BucketAuth.ofPolicy bucket policy
      (.scoped (permissionOf input.permissions) (Bytes.utf8 input.keyPrefix))) := by
  have confined : (Bytes.utf8 input.keyPrefix).isEmpty = false := by
    rw [List.isEmpty_eq_false_iff]
    exact fun empty => valid.confined (Bytes.utf8_injective (empty.trans rfl))
  have onKey : forall (granted : Bool) (key : Key),
      BucketAuth.requireScoped granted (Bytes.utf8 input.keyPrefix) key = .ok () ↔
        granted = true ∧ Bytes.utf8 input.keyPrefix <+: key.asBytes := by
    intro granted key
    rw [← List.isPrefixOf_iff_prefix]
    cases granted <;> cases within : (Bytes.utf8 input.keyPrefix).isPrefixOf key.asBytes <;>
      simp [BucketAuth.requireScoped, BucketAuth.isPrefixOk, confined, within]
  refine ⟨fun key => ?_, fun key => ?_, fun key => ?_, ?_, fun admin => ?_⟩
  · exact (onKey _ key).trans (by simp [permissionOf])
  · exact (onKey _ key).trans (by simp [permissionOf])
  · exact (onKey _ key).trans (by simp [permissionOf])
  · simp [BucketAuth.requireEnumerate, BucketAuth.ofPolicy, permissionOf]
  · cases admin

/-- A token grants what the client asked for.  When the client sends a request
for a token with the secret key of the bucket, in a form that the server
buffers, and the signing key signs the claims of the request, the answer is the
token.  Whoever presents the token
from then on, under a policy that has kept the signing key and to which the
token is not one of the other keys, has exactly the permissions of the request
on exactly the keys under its prefix until its seconds are over, and is refused
afterwards. -/
theorem client_tokens_grant_as_asked (state : AppState) (history : List Event) (bucket : Name) (policy : BucketPolicy)
    (found : (storeAfter state history).lookupPolicy state.platform bucket.bucketId = .ok (some policy))
    (credential : String) (admits : Admits state policy credential) (input : CreateTokenInput)
    (pairs : List (String × String)) (sent : createTokenForm input = .ok pairs)
    (short : (FormCoding.serialize pairs).length ≤ bodyLimit) (clock : Clock) (rejection : Response)
    (exp : OffsetDateTime) (expiry : (clock 1).checkedAddSeconds input.ttlSeconds.seconds = some exp)
    (signingKey : Bytes) (configured : policy.signingKey = some signingKey) (token : String)
    (minted : mint state.platform (input.claims bucket.bucketId policy (clock 1) exp) signingKey = .ok token) :
    (Request.bucket (tokenRequest bucket credential clock rejection pairs)).perform state (storeAfter state history) =
        (accessTokenResponse token, storeAfter state history) ∧
      forall (after : Store) (current : BucketPolicy),
        after.lookupPolicy state.platform bucket.bucketId = .ok (some current) ->
        current.signingKey = policy.signingKey -> current.signingKeyGeneration = policy.signingKeyGeneration ->
        (forall hash, hash ∈ [current.secretKeyHash, current.writeKeyHash, current.readKeyHash] ->
          matchesKey state.platform token state.rootKey hash = false) ->
        forall request : BucketRequest, request.bucketId = bucket.bucketId ->
          request.authorization = some (Bytes.utf8 ("Bearer " ++ token)) ->
          (request.clock 0 < exp -> Exists fun auth => request.authenticated state after = .ok auth ∧ input.Grants auth) ∧
          (¬ request.clock 0 < exp -> request.authenticated state after = .error unauthorized) := by
  have valid := valid_of_createTokenForm sent
  constructor
  · rw [createTokenForm_eq valid] at sent
    cases sent
    have read := extractForm_serialize (createTokenFormOf_eq input) short rejection
    have accepted : (tokenRequest bucket credential clock rejection [("prefix", input.keyPrefix),
        ("permissions", permissionsText input.permissions), ("ttl", input.ttlSeconds.toString)]).authenticated state
        (storeAfter state history) = .ok (administrator bucket policy) := admits.authenticated found rfl
    have signed : tokenAnswer state clock (administrator bucket policy)
        ⟨input.keyPrefix, permissionsText input.permissions, input.ttlSeconds.seconds⟩ (storeAfter state history) =
        .ok (accessTokenResponse token) := by
      have admin : (administrator bucket policy).requireAdmin = .ok () := rfl
      have looked : (storeAfter state history).lookupPolicy state.platform (administrator bucket policy).bucketId =
          .ok (some policy) := found
      have claims := requestedClaims_eq valid expiry (administrator bucket policy).bucketId policy
      have made : mint state.platform (input.claims (administrator bucket policy).bucketId policy (clock 1) exp)
          signingKey = .ok token := minted
      simp only [tokenAnswer, admin, looked, tokenFor, configured, claims, made]
      rfl
    rw [Request.perform_eq, Request.handler, BucketRequest.eval_handler, accepted]
    simp only [tokenRequest, Route.serve, read, eval_createToken, signed]
    rfl
  · intro after current looked sameKey sameGeneration unmatched request addressed presented
    have secret := unmatched _ List.mem_cons_self
    have write := unmatched _ (List.mem_cons_of_mem _ List.mem_cons_self)
    have reading := unmatched _ (List.mem_cons_of_mem _ (List.mem_cons_of_mem _ List.mem_cons_self))
    have arrived : extract request.parts.authorization request.parts.query = some (.bearer token) := by
      rcases mint_eq_ok_iff.mp minted with ⟨json, sig, _, _, rfl⟩
      rw [BucketRequest.parts, presented]
      exact extract_tokenText json sig _
    have verified := verify_minted minted (sameKey.trans configured) sameGeneration (request.clock 0)
    have outcome : request.authenticated state after =
        BucketAuth.authenticate state (request.clock 0) request.parts bucket.bucketId current := by
      rw [BucketRequest.authenticated, addressed, looked]
    rw [outcome, BucketAuth.authenticate, arrived]
    simp only [Option.map_some, RawCredential.asStr, resolve, secret, write, reading, Bool.false_eq_true, if_false]
    constructor
    · intro early
      have accepted : verify state.platform token current bucket.bucketId (request.clock 0) =
          .ok (input.claims bucket.bucketId policy (clock 1) exp) := verified.1 early
      rw [accepted]
      exact ⟨_, rfl, CreateTokenInput.grants valid bucket.bucketId current⟩
    · intro late
      rcases verified.2 late with ⟨error, refused⟩
      have expired : verify state.platform token current bucket.bucketId (request.clock 0) = .error error := refused
      rw [expired]

namespace TokenForAnother

open FreshToken (state token issuedAt expiresAt creation)
open ShelfRun (bucket)

theorem minute_safe : (60 : Int).natAbs < 2 ^ 53 := by decide

def input : CreateTokenInput := ⟨"a", [.read], ⟨60, minute_safe⟩⟩

def pairs : List (String × String) := [("prefix", "a"), ("permissions", "read"), ("ttl", "60")]

theorem admits : Admits state (Rotation.policy "old" 0 604800) "s3cret" where
  carried := by decide
  trimmed := by decide
  nonempty := by decide
  matched := by decide +kernel

theorem found : (storeAfter state [creation]).lookupPolicy state.platform bucket.bucketId =
    .ok (some (Rotation.policy "old" 0 604800)) := by
  decide +kernel

/-- A request of the other with the token. -/
def request : BucketRequest where
  bucket := bucket.segment
  query := none
  authorization := some (Bytes.utf8 ("Bearer " ++ token))
  clock := fun _ => issuedAt
  route := .headBucket

end TokenForAnother

open TokenForAnother in
open FreshToken (state token issuedAt expiresAt creation) in
theorem token_for_another_grants :
    ((Request.bucket (tokenRequest ShelfRun.bucket "s3cret" (fun _ => issuedAt) badRequest pairs)).perform state
        (storeAfter state [creation])).1 = accessTokenResponse token ∧
      Exists fun auth => request.authenticated state (storeAfter state [creation]) = .ok auth ∧ input.Grants auth := by
  rcases client_tokens_grant_as_asked state [creation] ShelfRun.bucket (Rotation.policy "old" 0 604800) found "s3cret"
    admits input pairs (by decide +kernel) (by decide +kernel) (fun _ => issuedAt) badRequest expiresAt (by decide) (Bytes.utf8 "old")
    (by decide) token (by decide +kernel) with ⟨answered, holds⟩
  refine ⟨congrArg Prod.fst answered, ?_⟩
  exact (holds (storeAfter state [creation]) (Rotation.policy "old" 0 604800) found rfl rfl (by decide +kernel) request
    rfl rfl).1 (by decide)

end Sdk
end Keydock
