import Keydock.Http.ConfiguredKeys
import Keydock.Sdk.Tokens

/-!
# Configuration by the client

The owner of a bucket creates it with a form, changes its policy with patches
and reads the policy back.  The three calls use three formats: a coded form, a
tree in which an absent field differs from `null`, and a tree that shows which
keys there are but no key.

The owner may keep an account of the configuration alone: start with what the
form says and go on with every patch that was accepted.  What is read back is
always what the account says.
-/

namespace Keydock
namespace Sdk

open Handler

/-! ## Calls -/

structure CreateBucketInput where
  email : String
  secretKey : Option String
  readKey : Option String
  writeKey : Option String
  signingKey : Option String
  defaultTtlSeconds : Option SafeInteger

/-- A patch.  A field is undefined, `null` or has a value. -/
structure UpdateBucketPolicyInput where
  secretKey : Option (Option String)
  readKey : Option (Option String)
  writeKey : Option (Option String)
  signingKey : Option (Option String)
  defaultTtlSeconds : Option (Option SafeInteger)

def validateNonNegativeInteger (name : String) (number : SafeInteger) : Except KeydockValidationError Unit :=
  if number.value < 0 then .error ⟨name ++ " must be a finite integer greater than or equal to 0"⟩ else .ok ()

def validateTtlSeconds (ttlSeconds : SafeInteger) : Except KeydockValidationError Unit :=
  validateNonNegativeInteger "ttlSeconds" ttlSeconds

def appendOptional (key : String) (value : Option String) : List (String × String) :=
  (value.map (fun text => (key, text))).toList

/-- The fields of a form that are always sent as they are. -/
def createBucketFields (input : CreateBucketInput) : List (String × String) :=
  ("email", input.email) :: appendOptional "secret_key" input.secretKey ++ appendOptional "read_key" input.readKey ++
    appendOptional "write_key" input.writeKey ++ appendOptional "signing_key" input.signingKey

def createBucketForm (input : CreateBucketInput) : Except KeydockValidationError (List (String × String)) :=
  match input.defaultTtlSeconds with
  | none => .ok (createBucketFields input)
  | some seconds => do
      validateTtlSeconds seconds
      return createBucketFields input ++ appendOptional "default_ttl" (some seconds.toString)

/-- The member of a field that is defined. -/
def appendPatch {α : Type} (write : α -> Json) (key : String) (value : Option (Option α)) : List (String × Json) :=
  (value.map (fun inner => (key, Json.ofOption write inner))).toList

/-- A number that is not negative, as a tree. -/
def SafeInteger.toJson (number : SafeInteger) : Json := .posInt (UInt64.ofNat number.value.toNat)

def updatePolicyMembers (patch : UpdateBucketPolicyInput) : List (String × Json) :=
  appendPatch .str "secret_key" patch.secretKey ++ appendPatch .str "read_key" patch.readKey ++
    appendPatch .str "write_key" patch.writeKey ++ appendPatch .str "signing_key" patch.signingKey ++
    appendPatch SafeInteger.toJson "default_ttl" patch.defaultTtlSeconds

def validatePatchTtl : Option (Option SafeInteger) -> Except KeydockValidationError Unit
  | some (some seconds) => validateTtlSeconds seconds
  | _ => .ok ()

def updatePolicyBody (patch : UpdateBucketPolicyInput) : Except KeydockValidationError Json :=
  if patch.secretKey = some none then .error ⟨"secretKey cannot be cleared"⟩
  else (validatePatchTtl patch.defaultTtlSeconds).map (fun _ => .obj (updatePolicyMembers patch))

/-- The policy as the client shows it. -/
structure PolicyView where
  defaultTtlSeconds : Option Nat
  hasSecretKey : Bool
  hasReadKey : Bool
  hasWriteKey : Bool
  hasSigningKey : Bool
  signingKeyGeneration : Nat
  anonymousAccess : Permission
  deriving DecidableEq

/-- A number of a tree, when it is one that is represented exactly. -/
def wireNumber (tree : Json) : Option Nat :=
  (Json.asU64 tree).bind (fun number => if number.toNat < 2 ^ 53 then some number.toNat else none)

/-- A number that may be missing. -/
def optionalWireNumber : Option Json -> Option (Option Nat)
  | none => some none
  | some tree => (wireNumber tree).map some

def fromWirePolicy : Json -> Option PolicyView
  | .obj members => do
      let defaultTtl <- optionalWireNumber (members.lookup "default_ttl")
      let secretKey <- (members.lookup "has_secret_key").bind Json.asBool
      let readKey <- (members.lookup "has_read_key").bind Json.asBool
      let writeKey <- (members.lookup "has_write_key").bind Json.asBool
      let signingKey <- (members.lookup "has_signing_key").bind Json.asBool
      let generation <- (members.lookup "signing_key_generation").bind wireNumber
      let anonymous <- (members.lookup "anonymous_access").bind permissionFromJson
      return ⟨defaultTtl, secretKey, readKey, writeKey, signingKey, generation, anonymous⟩
  | _ => none

/-! ## What arrives -/

/-- The form as the server reads it. -/
def CreateBucketInput.form (input : CreateBucketInput) : CreateBucketForm where
  email := input.email
  secretKey := input.secretKey
  readKey := input.readKey
  writeKey := input.writeKey
  signingKey := input.signingKey
  defaultTtl := input.defaultTtlSeconds.map (fun seconds => UInt64.ofNat seconds.value.toNat)

/-- The patch as the server reads it. -/
def UpdateBucketPolicyInput.patch (input : UpdateBucketPolicyInput) : UpdatePolicyJson where
  secretKey := input.secretKey
  readKey := input.readKey
  writeKey := input.writeKey
  signingKey := input.signingKey
  defaultTtl := input.defaultTtlSeconds.map (Option.map (fun seconds => UInt64.ofNat seconds.value.toNat))

theorem parseU64_toString {number : SafeInteger} (valid : 0 ≤ number.value) :
    parseU64 number.toString.toList = some (UInt64.ofNat number.value.toNat) := by
  have safe := number.safe
  have digits : number.value.natAbs = number.value.toNat := by omega
  rw [SafeInteger.toString, String.toList_ofList, bigintToString, if_neg (Int.not_lt.mpr valid), digits]
  exact parseU64_toDigits (by omega)

theorem filter_appendOptional (name key : String) (value : Option String) :
    (appendOptional key value).filter (fun pair => pair.1 = name) =
      if key = name then appendOptional key value else [] := by
  cases value <;> simp [appendOptional, List.filter_cons]

theorem formField_of_filter {name : String} {pairs : List (String × String)} {value : Option String}
    (found : pairs.filter (fun pair => pair.1 = name) = appendOptional name value) :
    formField name pairs = some value := by
  unfold formField
  rw [found]
  cases value <;> rfl

theorem createBucketFormOf_fields (input : CreateBucketInput) (seconds : Option String) :
    createBucketFormOf (createBucketFields input ++ appendOptional "default_ttl" seconds) =
      (optionalSeconds seconds).map (fun defaultTtl =>
        ⟨input.email, input.secretKey, input.readKey, input.writeKey, input.signingKey, defaultTtl⟩) := by
  generalize written : createBucketFields input ++ appendOptional "default_ttl" seconds = pairs
  have parts : forall name, pairs.filter (fun pair => pair.1 = name) =
      (if "email" = name then appendOptional "email" (some input.email) else []) ++
        (if "secret_key" = name then appendOptional "secret_key" input.secretKey else []) ++
        (if "read_key" = name then appendOptional "read_key" input.readKey else []) ++
        (if "write_key" = name then appendOptional "write_key" input.writeKey else []) ++
        (if "signing_key" = name then appendOptional "signing_key" input.signingKey else []) ++
        (if "default_ttl" = name then appendOptional "default_ttl" seconds else []) := by
    intro name
    rw [← written, createBucketFields]
    simp only [← filter_appendOptional, ← List.filter_append]
    rfl
  have email : formField "email" pairs = some (some input.email) := formField_of_filter (by rw [parts]; simp)
  have secretKey : formField "secret_key" pairs = some input.secretKey := formField_of_filter (by rw [parts]; simp)
  have readKey : formField "read_key" pairs = some input.readKey := formField_of_filter (by rw [parts]; simp)
  have writeKey : formField "write_key" pairs = some input.writeKey := formField_of_filter (by rw [parts]; simp)
  have signingKey : formField "signing_key" pairs = some input.signingKey := formField_of_filter (by rw [parts]; simp)
  have defaultTtl : formField "default_ttl" pairs = some seconds := formField_of_filter (by rw [parts]; simp)
  simp only [createBucketFormOf, email, secretKey, readKey, writeKey, signingKey, defaultTtl, Option.bind_eq_bind,
    Option.bind_some]
  cases optionalSeconds seconds <;> rfl

/-- The server reads from the fields what the client was given. -/
theorem createBucketFormOf_createBucketForm {input : CreateBucketInput} {pairs : List (String × String)}
    (sent : createBucketForm input = .ok pairs) :
    createBucketFormOf pairs = some input.form ∧
      forall seconds, input.defaultTtlSeconds = some seconds -> 0 ≤ seconds.value := by
  unfold createBucketForm at sent
  split at sent
  next absent =>
    cases sent
    have read := createBucketFormOf_fields input none
    rw [appendOptional, Option.map_none, Option.toList_none, List.append_nil] at read
    refine ⟨read.trans ?_, by simp [absent]⟩
    simp only [CreateBucketInput.form, absent, optionalSeconds, Option.map_some, Option.map_none]
  next seconds given =>
    rcases bind_eq_ok.mp sent with ⟨_, checked, same⟩
    cases same
    have valid : 0 ≤ seconds.value := by
      unfold validateTtlSeconds validateNonNegativeInteger at checked
      split at checked
      next => cases checked
      next notNegative => exact Int.not_lt.mp notNegative
    have read := createBucketFormOf_fields input (some seconds.toString)
    refine ⟨read.trans ?_, ?_⟩
    · simp only [CreateBucketInput.form, given, optionalSeconds, parseU64_toString valid, Option.map_some]
    · intro other same
      rw [given] at same
      cases same
      exact valid

theorem lookup_appendPatch {α : Type} (write : α -> Json) (name key : String) (value : Option (Option α)) :
    (appendPatch write key value).lookup name = if name = key then value.map (Json.ofOption write) else none := by
  cases value with
  | none => simp [appendPatch]
  | some inner =>
      by_cases same : name = key
      · simp [appendPatch, same]
      · have other : (name == key) = false := by simpa using same
        simp [appendPatch, List.lookup_cons, same, other]

theorem countP_appendPatch {α : Type} (write : α -> Json) (name key : String) (value : Option (Option α)) :
    (appendPatch write key value).countP (fun member => member.1 == name) ≤ if key = name then 1 else 0 := by
  cases value with
  | none => simp [appendPatch]
  | some inner => by_cases same : key = name <;> simp [appendPatch, same]

theorem mem_appendPatch {α : Type} {write : α -> Json} {key : String} {value : Option (Option α)}
    {member : String × Json} (listed : member ∈ appendPatch write key value) : member.1 = key := by
  cases value with
  | none => cases listed
  | some inner => rw [List.mem_singleton.mp listed]

theorem deserializeDoubleOption_map {α : Type} {write : α -> Json} {read : Json -> Option α}
    (inverse : forall value, read (write value) = some value) (notNull : forall value, write value ≠ .null)
    (field : Option (Option α)) :
    deserializeDoubleOption read (field.map (Json.ofOption write)) = some field := by
  cases field with
  | none => rfl
  | some inner => simp only [Option.map_some, deserializeDoubleOption, Json.asOption_ofOption inverse notNull inner]

/-- The members of a patch are known and not repeated. -/
theorem fields_updatePolicyMembers (input : UpdateBucketPolicyInput) :
    Json.fields true 0 ["secret_key", "read_key", "write_key", "signing_key", "default_ttl"]
      (.obj (updatePolicyMembers input)) =
      some [input.secretKey.map (Json.ofOption .str), input.readKey.map (Json.ofOption .str),
        input.writeKey.map (Json.ofOption .str), input.signingKey.map (Json.ofOption .str),
        input.defaultTtlSeconds.map (Json.ofOption SafeInteger.toJson)] := by
  have single : forall name, (updatePolicyMembers input).countP (fun member => member.1 == name) ≤ 1 := by
    intro name
    have secretKey := countP_appendPatch .str name "secret_key" input.secretKey
    have readKey := countP_appendPatch .str name "read_key" input.readKey
    have writeKey := countP_appendPatch .str name "write_key" input.writeKey
    have signingKey := countP_appendPatch .str name "signing_key" input.signingKey
    have defaultTtl := countP_appendPatch SafeInteger.toJson name "default_ttl" input.defaultTtlSeconds
    simp only [updatePolicyMembers, List.countP_append]
    have apart : (if "secret_key" = name then 1 else 0) + (if "read_key" = name then 1 else 0) +
        (if "write_key" = name then 1 else 0) + (if "signing_key" = name then 1 else 0) +
        (if "default_ttl" = name then 1 else 0) ≤ 1 := by
      by_cases first : "secret_key" = name
      · subst first
        decide
      · by_cases second : "read_key" = name
        · subst second
          decide
        · by_cases third : "write_key" = name
          · subst third
            decide
          · by_cases fourth : "signing_key" = name
            · subst fourth
              decide
            · simp only [if_neg first, if_neg second, if_neg third, if_neg fourth]
              split <;> omega
    omega
  have named : forall member, member ∈ updatePolicyMembers input ->
      member.1 ∈ ["secret_key", "read_key", "write_key", "signing_key", "default_ttl"] := by
    intro member listed
    simp only [updatePolicyMembers, List.mem_append] at listed
    rcases listed with (((listed | listed) | listed) | listed) | listed <;> rw [mem_appendPatch listed] <;> decide
  have distinct : (["secret_key", "read_key", "write_key", "signing_key", "default_ttl"].any (fun name =>
      1 < (updatePolicyMembers input).countP (fun member => member.1 == name))) = false := by
    rw [List.any_eq_false]
    intro name _ repeated
    exact absurd (single name) (Nat.not_le_of_lt (of_decide_eq_true repeated))
  have known : ((updatePolicyMembers input).any (fun member =>
      !(["secret_key", "read_key", "write_key", "signing_key", "default_ttl"].contains member.1))) = false := by
    rw [List.any_eq_false]
    intro member listed unknown
    rw [Bool.not_eq_true', ← Bool.not_eq_true, List.contains_iff_mem] at unknown
    exact unknown (named member listed)
  simp only [Json.fields, distinct, known, Bool.and_false, Bool.false_eq_true, if_false]
  simp [updatePolicyMembers, List.lookup_append, lookup_appendPatch]

/-- The server reads from the tree what the client was given. -/
theorem updatePolicyFromJson_body {input : UpdateBucketPolicyInput} {tree : Json}
    (sent : updatePolicyBody input = .ok tree) : updatePolicyFromJson tree = some input.patch := by
  have made : tree = .obj (updatePolicyMembers input) := by
    unfold updatePolicyBody at sent
    split at sent
    next => cases sent
    next =>
      cases checked : validatePatchTtl input.defaultTtlSeconds with
      | error refusal => rw [checked] at sent; cases sent
      | ok _ => rw [checked] at sent; cases sent; rfl
  have seconds : deserializeDoubleOption Json.asU64 (input.defaultTtlSeconds.map (Json.ofOption SafeInteger.toJson)) =
      some (input.defaultTtlSeconds.map (Option.map (fun seconds => UInt64.ofNat seconds.value.toNat))) := by
    cases input.defaultTtlSeconds with
    | none => rfl
    | some inner => cases inner <;> rfl
  have text : forall field : Option (Option String),
      deserializeDoubleOption Json.asString (field.map (Json.ofOption .str)) = some field :=
    deserializeDoubleOption_map (fun _ => rfl) (fun _ impossible => by cases impossible)
  rw [made, updatePolicyFromJson, fields_updatePolicyMembers]
  simp only [text, seconds]
  rfl

/-! ## The account of the owner -/

/-- The configuration of a bucket as its owner keeps it. -/
structure Account where
  secretKey : Option String
  readKey : Option String
  writeKey : Option String
  signingKey : Option String
  rotations : Nat
  defaultTtlSeconds : Option Nat

namespace Account

/-- A bucket is created.  An empty text is no key, and a time to live that is
not given is a week. -/
def opened (input : CreateBucketInput) : Account where
  secretKey := noneIfEmpty input.secretKey
  readKey := noneIfEmpty input.readKey
  writeKey := noneIfEmpty input.writeKey
  signingKey := noneIfEmpty input.signingKey
  rotations := 0
  defaultTtlSeconds := some ((input.defaultTtlSeconds.map (fun seconds => seconds.value.toNat)).getD 604800)

/-- A patch is accepted. -/
def patched (account : Account) (input : UpdateBucketPolicyInput) : Account where
  secretKey := input.secretKey.getD account.secretKey
  readKey := input.readKey.getD account.readKey
  writeKey := input.writeKey.getD account.writeKey
  signingKey := input.signingKey.getD account.signingKey
  rotations := if input.signingKey.getD account.signingKey = account.signingKey then account.rotations
    else account.rotations + 1
  defaultTtlSeconds := (input.defaultTtlSeconds.map (Option.map (fun seconds => seconds.value.toNat))).getD
    account.defaultTtlSeconds

/-- What of it may be shown. -/
def view (account : Account) : PolicyView where
  defaultTtlSeconds := account.defaultTtlSeconds
  hasSecretKey := account.secretKey.isSome
  hasReadKey := account.readKey.isSome
  hasWriteKey := account.writeKey.isSome
  hasSigningKey := account.signingKey.isSome
  signingKeyGeneration := account.rotations
  anonymousAccess := Permission.anonymousFromKeys account.secretKey.isSome account.readKey.isSome
    account.writeKey.isSome

/-- The keys of it that are stored as hashes. -/
def credentials (account : Account) : Credentials := ⟨account.secretKey, account.writeKey, account.readKey⟩

/-- The stored policy is the one of the account. -/
structure Kept (state : AppState) (account : Account) (policy : BucketPolicy) : Prop where
  keys : account.credentials.Stored state policy
  signingKey : policy.signingKey = account.signingKey.map Bytes.utf8
  generation : policy.signingKeyGeneration = UInt64.ofNat account.rotations
  defaultTtl : policy.defaultTtlSecs = account.defaultTtlSeconds.map UInt64.ofNat
  short : forall seconds, account.defaultTtlSeconds = some seconds -> seconds < 2 ^ 53
  anonymous : policy.anonymousAccess = recomputeAnonymousAccess policy

section Keeping

variable {state : AppState} {account : Account} {policy result : BucketPolicy}

theorem toNat_value_lt (number : SafeInteger) : number.value.toNat < 2 ^ 53 := by
  have safe := number.safe
  omega

theorem kept_opened {input : CreateBucketInput} (fields : NewFields state input.form policy) :
    Kept state (opened input) policy where
  keys := Credentials.stored_ofForm fields
  signingKey := fields.signingKey
  generation := fields.generation
  defaultTtl := by
    rw [fields.defaultTtl]
    cases given : input.defaultTtlSeconds with
    | none | some seconds =>
        simp only [CreateBucketInput.form, opened, given]
        rfl
  short := by
    intro seconds same
    cases given : input.defaultTtlSeconds with
    | none =>
        simp only [opened, given, Option.map_none, Option.getD_none, Option.some.injEq] at same
        omega
    | some number =>
        simp only [opened, given, Option.map_some, Option.getD_some, Option.some.injEq] at same
        rw [← same]
        exact toNat_value_lt number
  anonymous := fields.anonymous

theorem map_utf8_inj {first second : Option String} : first.map Bytes.utf8 = second.map Bytes.utf8 ↔ first = second :=
  (Option.map_injective (fun _ _ equal => Bytes.utf8_injective equal)).eq_iff

/-- An accepted patch does to the policy what it does to the account. -/
theorem Kept.patched {input : UpdateBucketPolicyInput} (kept : Kept state account policy)
    (fields : PatchedFields state input.patch policy result) : Kept state (account.patched input) result := by
  have signingKey : result.signingKey = (account.patched input).signingKey.map Bytes.utf8 := by
    rw [fields.signingKey, kept.signingKey]
    cases given : input.signingKey with
    | none | some inner =>
        simp only [UpdatePolicyJson.signingKeyOn, UpdateBucketPolicyInput.patch, Account.patched, given]
        rfl
  refine ⟨kept.keys.patched fields, signingKey, ?_, ?_, ?_, fields.anonymous⟩
  · rw [fields.generation, signingKey, kept.signingKey, kept.generation]
    simp only [ne_eq, map_utf8_inj, Account.patched]
    by_cases same : input.signingKey.getD account.signingKey = account.signingKey
    · rw [if_pos same, if_neg (fun different => different same.symm)]
    · rw [if_neg same, if_pos (fun equal => same equal.symm), UInt64.ofNat_add]
      rfl
  · rw [fields.defaultTtl, kept.defaultTtl]
    rcases given : input.defaultTtlSeconds with _ | _ | seconds
    all_goals
      simp only [UpdateBucketPolicyInput.patch, Account.patched, given]
      rfl
  · intro seconds same
    rcases given : input.defaultTtlSeconds with _ | _ | number
    · simp only [Account.patched, given, Option.map_none, Option.getD_none] at same
      exact kept.short seconds same
    · simp only [Account.patched, given, Option.map_some, Option.map_none, Option.getD_some] at same
      cases same
    · simp only [Account.patched, given, Option.map_some, Option.getD_some, Option.some.injEq] at same
      rw [← same]
      exact toNat_value_lt number

theorem isSome_of_hashed {key : Option String} {hash : Option Bytes} (stored : Hashed state key hash) :
    hash.isSome = key.isSome := by
  cases stored <;> rfl

theorem wireNumber_posInt {number : Nat} (short : number < 2 ^ 53) :
    wireNumber (.posInt (UInt64.ofNat number)) = some number := by
  have whole : (UInt64.ofNat number).toNat = number := UInt64.toNat_ofNat_of_lt' (Nat.lt_trans short (by decide))
  simp only [wireNumber, Json.asU64, Option.bind_some, whole, if_pos short]

/-- What the client reads from the public view of any policy. -/
theorem fromWirePolicy_publicPolicyView (policy : BucketPolicy) :
    fromWirePolicy (publicPolicyView policy) =
      (optionalWireNumber (policy.defaultTtlSecs.map Json.posInt)).bind (fun defaultTtl =>
        (wireNumber (.posInt policy.signingKeyGeneration)).bind (fun generation =>
          some ⟨defaultTtl, policy.secretKeyHash.isSome, policy.readKeyHash.isSome, policy.writeKeyHash.isSome,
            policy.signingKey.isSome, generation, policy.anonymousAccess⟩)) := by
  unfold publicPolicyView
  cases policy.defaultTtlSecs with
  | none => rfl
  | some seconds => rfl

/-- The client reads the account from the public view of the policy. -/
theorem Kept.fromWirePolicy_view (kept : Kept state account policy) (few : account.rotations < 2 ^ 53) :
    fromWirePolicy (publicPolicyView policy) = some account.view := by
  have secretKey := isSome_of_hashed kept.keys.secretKey
  have readKey := isSome_of_hashed kept.keys.readKey
  have writeKey := isSome_of_hashed kept.keys.writeKey
  have seconds : optionalWireNumber (policy.defaultTtlSecs.map Json.posInt) = some account.defaultTtlSeconds := by
    rw [kept.defaultTtl]
    cases given : account.defaultTtlSeconds with
    | none => rfl
    | some seconds =>
        simp only [Option.map_some, optionalWireNumber, wireNumber_posInt (kept.short seconds given)]
  rw [fromWirePolicy_publicPolicyView, seconds, kept.generation, wireNumber_posInt few, kept.anonymous,
    kept.signingKey, Option.isSome_map]
  simp only [recomputeAnonymousAccess, PolicyKeysPresence.of, secretKey, readKey, writeKey, Option.bind_some]
  rfl

end Keeping

end Account

/-! ## Runs -/

/-- The server reads this tree from the body. -/
structure Carries (platform : Platform) (body : Bytes) (tree : Json) : Prop where
  nonempty : body.isEmpty = false
  read : platform.json.fromSlice body = some tree

/-- The request that creates a bucket from a form. -/
def creation (fresh : Uuid) (rejection : Response) (pairs : List (String × String)) : Request :=
  .createBucket fresh (extractForm createBucketFormOf rejection (FormCoding.serialize pairs))

/-- The route leaves the policy of its bucket alone. -/
def keepsPolicy : Route -> Bool
  | .updatePolicy _ => false
  | .deleteBucket _ => false
  | _ => true

/-- The event is not one that may replace or remove the policy of the bucket. -/
def Spares (bucket : BucketId) : Event -> Prop
  | .sweep _ => True
  | .request (.createBucket fresh _) => fresh.bucketId ≠ bucket
  | .request (.bucket request) => request.bucketId = bucket -> keepsPolicy request.route = true

/-- The account of a bucket after a history: it is opened by the creation and
goes on with every accepted patch of the client.  Requests that are refused do
not count, whoever sends them, nor does what leaves the policy alone. -/
inductive Administered (state : AppState) (bucket : BucketId) : List Event -> Account -> Prop
  | created {earlier : List Event} {input : CreateBucketInput} {pairs : List (String × String)} {fresh : Uuid}
      {rejection : Response} (named : fresh.bucketId = bucket) (sent : createBucketForm input = .ok pairs)
      (accepted : ((creation fresh rejection pairs).perform state (storeAfter state earlier)).1.isSuccess = true) :
      Administered state bucket (earlier ++ [.request (creation fresh rejection pairs)]) (.opened input)
  | patched {events : List Event} {account : Account} {input : UpdateBucketPolicyInput} {tree : Json} {body : Bytes}
      {request : BucketRequest} (before : Administered state bucket events account)
      (addressed : request.bucketId = bucket) (sent : updatePolicyBody input = .ok tree)
      (carried : Carries state.platform body tree) (asked : request.route = .updatePolicy (.ok body))
      (accepted : ((Request.bucket request).perform state (storeAfter state events)).1.isSuccess = true) :
      Administered state bucket (events ++ [.request (.bucket request)]) (account.patched input)
  | refused {events : List Event} {account : Account} {incoming : Request}
      (before : Administered state bucket events account)
      (failed : (incoming.perform state (storeAfter state events)).1.isSuccess = false) :
      Administered state bucket (events ++ [.request incoming]) account
  | meanwhile {events : List Event} {account : Account} {event : Event}
      (before : Administered state bucket events account) (spared : Spares bucket event) :
      Administered state bucket (events ++ [event]) account

section Runs

variable {state : AppState} {bucket : BucketId}

/-- A request that is refused changes nothing. -/
theorem perform_refused {incoming : Request} {store : Store}
    (failed : (incoming.perform state store).1.isSuccess = false) : (incoming.perform state store).2 = store := by
  cases incoming with
  | createBucket fresh form =>
      rcases createBucket_cases state fresh form store with same | ⟨_, _, _, _, _, success, _⟩
      · exact same
      · exact absurd success (ne_true_of_eq_false failed)
  | bucket request =>
      rcases request.perform_cases state store with same | ⟨_, _, success, _⟩
      · exact same
      · exact absurd success (ne_true_of_eq_false failed)

theorem authenticated_bucketId {request : BucketRequest} {store : Store} {auth : BucketAuth}
    (resolved : request.authenticated state store = .ok auth) : auth.bucketId = request.bucketId := by
  rcases request.authenticated_eq_ok resolved with ⟨_, _, _, _, rfl⟩
  rfl

/-- An event that spares the policy keeps its record. -/
theorem lookupPolicy_spared {event : Event} {events : List Event} (spared : Spares bucket event) :
    (event.perform state (storeAfter state events)).lookupPolicy state.platform bucket =
      (storeAfter state events).lookupPolicy state.platform bucket := by
  apply Store.lookupPolicy_congr
  have other : forall {name : BucketId}, name ≠ bucket -> Bytes.utf8 name.asStr ≠ Bytes.utf8 bucket.asStr :=
    fun different equal => different (BucketId.ext_str (Bytes.utf8_injective equal))
  cases event with
  | sweep now =>
      change ((storeAfter state events).sweep now).metadata[_]? = _
      rw [(storeAfter_sound state events).indexed.sweep_metadata now]
  | request incoming =>
      rw [Event.perform_request]
      cases incoming with
      | createBucket fresh form =>
          rcases createBucket_cases state fresh form (storeAfter state events) with
            same | ⟨_, _, bytes, _, _, _, same⟩
          · rw [same]
          · rw [same]
            simp only [Store.writePolicy, Keyspace.get_insert, if_neg (other spared)]
      | bucket request =>
          rcases BucketRequest.perform_guarded (fun _ => serve_effect request.route) with
            same | ⟨auth, resolved, _, effect⟩
          · rw [same]
          · have named := authenticated_bucketId resolved
            have kept : request.bucketId = bucket -> keepsPolicy request.route = true := spared
            generalize request.route = route at effect kept
            generalize ((Request.bucket request).perform state (storeAfter state events)).2 = after at effect
            cases effect with
            | read => rfl
            | put _ _ | increment _ _ | delete _ => rfl
            | txn _ _ => rw [applyTxnOps_metadata]
            | patchPolicy _ _ _ _ =>
                have apart : auth.bucketId ≠ bucket := by
                  intro here
                  cases kept (named.symm.trans here)
                simp only [Store.writePolicy, Keyspace.get_insert, if_neg (other apart)]
            | dropPolicy _ =>
                have apart : auth.bucketId ≠ bucket := by
                  intro here
                  cases kept (named.symm.trans here)
                simp only [Store.dropPolicy, Keyspace.get_remove, if_neg (other apart)]

/-- The stored policy is the one of the account, after every history. -/
theorem Administered.kept {events : List Event} {account : Account}
    (administered : Administered state bucket events account) :
    Exists fun policy => (storeAfter state events).lookupPolicy state.platform bucket = .ok (some policy) ∧
      account.Kept state policy := by
  induction administered with
  | @created earlier input pairs fresh rejection named sent accepted =>
      have same : creation fresh rejection pairs = .createBucket fresh (.ok input.form) := by
        rcases extractForm_serialize_cases (createBucketFormOf_createBucketForm sent).1 rejection with read | refused
        · rw [creation, read]
        · -- A form that is too long is not accepted.
          rw [creation, refused] at accepted
          cases accepted
      rw [same] at accepted ⊢
      rcases createBucket_accepted accepted with ⟨policy, bytes, made, encoded, written⟩
      refine ⟨policy, ?_, Account.kept_opened (newBucketPolicy_eq_ok.mp made)⟩
      rw [storeAfter_snoc, Event.perform_request, written, named]
      exact Store.lookupPolicy_writePolicy encoded _ bucket
  | @patched events account input tree body request before addressed sent carried asked accepted ih =>
      rcases ih with ⟨policy, found, kept⟩
      have read : parseUpdatePolicy state.platform body = some input.patch := by
        rw [parseUpdatePolicy, carried.nonempty, carried.read]
        exact updatePolicyFromJson_body sent
      rcases updatePolicy_accepted asked read accepted with ⟨old, result, bytes, looked, applied, encoded, written⟩
      rw [addressed] at looked written
      rw [found] at looked
      cases looked
      refine ⟨result, ?_, kept.patched (patchedPolicy_eq_ok.mp applied)⟩
      rw [storeAfter_snoc, Event.perform_request, written]
      exact Store.lookupPolicy_writePolicy encoded _ bucket
  | refused before failed ih =>
      rw [storeAfter_snoc, Event.perform_request, perform_refused failed]
      exact ih
  | meanwhile before spared ih =>
      rw [storeAfter_snoc, lookupPolicy_spared spared]
      exact ih

/-- The owner reads the stored policy. -/
theorem perform_getBucketPolicy {store : Store} {policy : BucketPolicy} {request : BucketRequest} {auth : BucketAuth}
    (found : store.lookupPolicy state.platform request.bucketId = .ok (some policy))
    (asked : request.route = .getBucketPolicy) (resolved : request.authenticated state store = .ok auth)
    (admin : auth.identity = .admin) :
    (Request.bucket request).perform state store = (Response.ofJson (publicPolicyView policy), store) := by
  have granted : auth.requireAdmin = .ok () := by rw [BucketAuth.requireAdmin, admin]
  rw [Request.perform_eq, Request.handler, BucketRequest.eval_handler, resolved, asked]
  simp only [Route.serve, getBucketPolicy, eval_bind, eval_known, granted, eval_spawnUsecase, Task.eval_getPolicy,
    authenticated_bucketId resolved, found]
  rfl

end Runs

/-- What the owner reads back is what the account says.  The keys are not
shown, but the hashes that are stored are those of the keys of the account. -/
theorem policy_read_as_administered (state : AppState) (bucket : BucketId) (events : List Event) (account : Account)
    (administered : Administered state bucket events account) (few : account.rotations < 2 ^ 53) :
    Exists fun policy =>
      (storeAfter state events).lookupPolicy state.platform bucket = .ok (some policy) ∧
      account.credentials.Stored state policy ∧ policy.signingKey = account.signingKey.map Bytes.utf8 ∧
      Exists fun tree => fromWirePolicy tree = some account.view ∧
        forall (request : BucketRequest) (auth : BucketAuth), request.bucketId = bucket ->
          request.route = .getBucketPolicy -> request.authenticated state (storeAfter state events) = .ok auth ->
          auth.identity = .admin ->
          (Request.bucket request).perform state (storeAfter state events) =
            (Response.ofJson tree, storeAfter state events) := by
  rcases administered.kept with ⟨policy, found, kept⟩
  refine ⟨policy, found, kept.keys, kept.signingKey, publicPolicyView policy, kept.fromWirePolicy_view few, ?_⟩
  intro request auth addressed asked resolved admin
  subst addressed
  exact perform_getBucketPolicy found asked resolved admin

namespace Administration

open Rotation

def input : CreateBucketInput := ⟨"a@b.c", some "s3cret", none, none, some "old", none⟩

/-- The signing key is replaced. -/
def rotation : UpdateBucketPolicyInput := ⟨none, none, none, some (some "new"), none⟩

theorem seconds_safe : (60 : Int).natAbs < 2 ^ 53 := by decide

def minute : SafeInteger := ⟨60, seconds_safe⟩

/-- The time to live is shortened. -/
def shortening : UpdateBucketPolicyInput := ⟨none, none, none, none, some (some minute)⟩

def request (authorization : Option Bytes) (body : Bytes) : BucketRequest where
  bucket := bucket
  query := none
  authorization := authorization
  clock := fun _ => OffsetDateTime.unixEpoch
  route := .updatePolicy (.ok body)

def opening : Request := creation id badRequest [("email", "a@b.c"), ("secret_key", "s3cret"), ("signing_key", "old")]

def stranger : Request := .bucket (request none rotationBody)

def owner (body : Bytes) : Request := .bucket (request (some (Bytes.utf8 "Bearer s3cret")) body)

/-- The bucket is created, a stranger is refused, the owner replaces the signing
key, rows are swept, and the owner shortens the time to live. -/
def history : List Event :=
  [.request opening, .request stranger, .request (owner rotationBody), .sweep OffsetDateTime.unixEpoch,
    .request (owner ttlBody)]

def account : Account := ((Account.opened input).patched rotation).patched shortening

theorem administered : Administered state id.bucketId history account := by
  have created : Administered state id.bucketId ([] ++ [.request opening]) (.opened input) :=
    .created rfl rfl (by decide +kernel)
  have refused : Administered state id.bucketId [.request opening, .request stranger] (.opened input) :=
    .refused created (by decide +kernel)
  have rotated : Administered state id.bucketId [.request opening, .request stranger, .request (owner rotationBody)]
      ((Account.opened input).patched rotation) :=
    .patched refused (by decide +kernel) rfl ⟨by decide +kernel, by decide +kernel⟩ rfl (by decide +kernel)
  have swept : Administered state id.bucketId [.request opening, .request stranger, .request (owner rotationBody),
      .sweep OffsetDateTime.unixEpoch] ((Account.opened input).patched rotation) :=
    .meanwhile rotated trivial
  exact .patched swept (by decide +kernel) rfl ⟨by decide +kernel, by decide +kernel⟩ rfl (by decide +kernel)

end Administration

open Administration in
theorem rotated_policy_read_back :
    account.view = ⟨some 60, true, false, false, true, 1, ⟨true, true, true, false⟩⟩ ∧
    Exists fun policy =>
      (storeAfter Rotation.state history).lookupPolicy Rotation.state.platform Rotation.id.bucketId =
        .ok (some policy) ∧
      account.credentials.Stored Rotation.state policy ∧ policy.signingKey = account.signingKey.map Bytes.utf8 ∧
      Exists fun tree => fromWirePolicy tree = some account.view ∧
        forall (request : BucketRequest) (auth : BucketAuth), request.bucketId = Rotation.id.bucketId ->
          request.route = .getBucketPolicy ->
          request.authenticated Rotation.state (storeAfter Rotation.state history) = .ok auth ->
          auth.identity = .admin ->
          (Request.bucket request).perform Rotation.state (storeAfter Rotation.state history) =
            (Response.ofJson tree, storeAfter Rotation.state history) :=
  ⟨by decide +kernel,
    policy_read_as_administered Rotation.state Rotation.id.bucketId history account administered (by decide +kernel)⟩

end Sdk
end Keydock
