import Keydock.Http.PolicyUpdates

/-!
# The meaning of a policy patch

A patch names some of five fields.  A field that is absent stays, `null` clears
it, and a value replaces it; the secret key cannot be cleared and no key may be
the empty text.  The checks stand between the assignments, but they work on a
copy: a patch that fails anywhere changes nothing.

The relation `PatchedFields` says what a patch makes of a policy without
following the order of the checks.  It determines the result, and a patch
stands in it to its own result, so that sending a patch twice is the same as
sending it once.
-/

namespace Keydock

open Effect Handler

/-! ## Fields -/

/-- What a patch makes of a key hash. -/
inductive HashField (state : AppState) : Option (Option String) -> Option Bytes -> Option Bytes -> Prop
  | absent {before : Option Bytes} : HashField state none before before
  | cleared {before : Option Bytes} : HashField state (some none) before none
  | set {before : Option Bytes} {text : String} {hash : Bytes} (nonempty : text ≠ "")
      (hashed : hashCredential state.platform text state.rootKey = .ok hash) :
      HashField state (some (some text)) before (some hash)

namespace HashField

variable {state : AppState} {field : Option (Option String)} {before middle after : Option Bytes}

/-- The same value twice makes no difference. -/
theorem again (once : HashField state field before middle) (twice : HashField state field middle after) :
    after = middle := by
  cases once with
  | absent => cases twice; rfl
  | cleared => cases twice; rfl
  | set nonempty hashed =>
      cases twice with
      | set _ same =>
          rw [hashed] at same
          cases same
          rfl

theorem repeated (once : HashField state field before after) : HashField state field after after := by
  cases once with
  | absent => exact .absent
  | cleared => exact .cleared
  | set nonempty hashed => exact .set nonempty hashed

theorem nonempty (named : HashField state field before after) : field ≠ some (some "") := by
  rintro rfl
  cases named with
  | set nonempty _ => exact nonempty rfl

end HashField

section Assignments

variable {state : AppState} {policy result : BucketPolicy} {field : Option (Option String)}

theorem hashApiKeyOrFail_eq_ok {text : String} {hash : Bytes} :
    hashApiKeyOrFail state.platform state.rootKey text = .ok hash ↔
      hashCredential state.platform text state.rootKey = .ok hash := by
  unfold hashApiKeyOrFail
  cases hashCredential state.platform text state.rootKey <;> simp [Except.mapError]

theorem applyNullableHash_eq_ok {inner : Option String} {before after : Option Bytes} :
    applyNullableHash state inner = .ok after ↔ HashField state (some inner) before after := by
  cases inner with
  | none =>
      constructor
      · intro cleared
        cases cleared
        exact .cleared
      · intro cleared
        cases cleared
        rfl
  | some text =>
      simp only [applyNullableHash]
      by_cases empty : text = ""
      · rw [if_pos empty]
        constructor
        · intro impossible
          cases impossible
        · intro named
          exact absurd (by rw [empty]) named.nonempty
      · rw [if_neg empty]
        constructor
        · intro made
          cases hashed : hashApiKeyOrFail state.platform state.rootKey text with
          | error response => rw [hashed] at made; cases made
          | ok hash =>
              rw [hashed] at made
              cases made
              exact .set empty (hashApiKeyOrFail_eq_ok.mp hashed)
        · intro named
          cases named with
          | set _ hashed =>
              rw [hashApiKeyOrFail_eq_ok.mpr hashed]
              rfl

theorem map_applyNullableHash_eq_ok {inner : Option String} {before : Option Bytes}
    {store : Option Bytes -> BucketPolicy} :
    (applyNullableHash state inner).map store = .ok result ↔ Exists fun hash =>
      HashField state (some inner) before hash ∧ result = store hash := by
  constructor
  · intro made
    cases hashed : applyNullableHash state inner with
    | error response => rw [hashed] at made; cases made
    | ok hash =>
        rw [hashed] at made
        cases made
        exact ⟨hash, applyNullableHash_eq_ok.mp hashed, rfl⟩
  · rintro ⟨hash, named, rfl⟩
    rw [applyNullableHash_eq_ok.mpr named]
    rfl

/-- The outcome of a field that is absent. -/
theorem absent_eq_ok {before : Option Bytes} {store : Option Bytes -> BucketPolicy} (same : store before = policy) :
    (.ok policy : Except Response BucketPolicy) = .ok result ↔ Exists fun hash =>
      HashField state none before hash ∧ result = store hash := by
  constructor
  · intro kept
    cases kept
    exact ⟨before, .absent, same.symm⟩
  · rintro ⟨_, named, rfl⟩
    cases named
    rw [same]

theorem patchReadKey_eq_ok :
    patchReadKey state policy field = .ok result ↔ Exists fun hash =>
      HashField state field policy.readKeyHash hash ∧ result = { policy with readKeyHash := hash } := by
  cases field with
  | none => exact absent_eq_ok rfl
  | some inner => exact map_applyNullableHash_eq_ok

theorem patchWriteKey_eq_ok :
    patchWriteKey state policy field = .ok result ↔ Exists fun hash =>
      HashField state field policy.writeKeyHash hash ∧ result = { policy with writeKeyHash := hash } := by
  cases field with
  | none => exact absent_eq_ok rfl
  | some inner => exact map_applyNullableHash_eq_ok

/-- The secret key is set as the others are, but it cannot be cleared. -/
theorem patchSecretKey_eq_ok :
    patchSecretKey state policy field = .ok result ↔ field ≠ some none ∧ Exists fun hash =>
      HashField state field policy.secretKeyHash hash ∧ result = { policy with secretKeyHash := hash } := by
  cases field with
  | none =>
      rw [and_iff_right (fun impossible => by cases impossible)]
      exact absent_eq_ok rfl
  | some inner =>
      cases inner with
      | none =>
          constructor
          · intro impossible
            cases impossible
          · intro impossible
            exact absurd rfl impossible.1
      | some text =>
          rw [and_iff_right (fun impossible => by cases impossible), ← map_applyNullableHash_eq_ok]
          simp only [patchSecretKey, applyNullableHash]
          by_cases empty : text = ""
          · rw [if_pos empty, if_pos empty]
            rfl
          · rw [if_neg empty, if_neg empty]
            cases hashApiKeyOrFail state.platform state.rootKey text <;> rfl

theorem patchSigningKey_eq_ok {patch : UpdatePolicyJson} :
    patchSigningKey policy patch.signingKey = .ok result ↔ patch.signingKey ≠ some (some "") ∧
      result = policy.withSigningKey (patch.signingKeyOn policy.signingKey) := by
  unfold UpdatePolicyJson.signingKeyOn
  cases patch.signingKey with
  | none =>
      rw [and_iff_right (fun impossible => by cases impossible)]
      simp only [patchSigningKey, Except.ok.injEq, policy.withSigningKey_self]
      exact eq_comm
  | some inner =>
      cases inner with
      | none =>
          rw [and_iff_right (fun impossible => by cases impossible)]
          simp only [patchSigningKey, Except.ok.injEq, Option.map_none]
          exact eq_comm
      | some text =>
          simp only [patchSigningKey, ne_eq, Option.some.injEq, Option.map_some]
          by_cases empty : text = ""
          · simp [empty]
          · rw [if_neg empty, and_iff_right empty, Except.ok.injEq]
            exact eq_comm

end Assignments

/-! ## The whole patch -/

/-- What a patch makes of a policy. -/
structure PatchedFields (state : AppState) (patch : UpdatePolicyJson) (policy result : BucketPolicy) : Prop where
  secretKept : patch.secretKey ≠ some none
  secretKey : HashField state patch.secretKey policy.secretKeyHash result.secretKeyHash
  readKey : HashField state patch.readKey policy.readKeyHash result.readKeyHash
  writeKey : HashField state patch.writeKey policy.writeKeyHash result.writeKeyHash
  signingNonempty : patch.signingKey ≠ some (some "")
  signingKey : result.signingKey = patch.signingKeyOn policy.signingKey
  generation : result.signingKeyGeneration =
    if policy.signingKey ≠ result.signingKey then policy.signingKeyGeneration + 1 else policy.signingKeyGeneration
  defaultTtl : result.defaultTtlSecs = patch.defaultTtl.getD policy.defaultTtlSecs
  anonymous : result.anonymousAccess = recomputeAnonymousAccess result

theorem patchDefaultTtl_eq (policy : BucketPolicy) (field : Option (Option UInt64)) :
    patchDefaultTtl policy field = { policy with defaultTtlSecs := field.getD policy.defaultTtlSecs } := by
  cases field <;> rfl

/-- A patch succeeds exactly with the result that its fields describe. -/
theorem patchedPolicy_eq_ok {state : AppState} {patch : UpdatePolicyJson} {policy result : BucketPolicy} :
    patchedPolicy state patch policy = .ok result ↔ PatchedFields state patch policy result := by
  unfold patchedPolicy applyPolicyPatch
  simp only [bind_assoc, pure_bind, bind_eq_ok, patchSecretKey_eq_ok, patchReadKey_eq_ok, patchWriteKey_eq_ok,
    patchSigningKey_eq_ok, patchDefaultTtl_eq]
  constructor
  · rintro ⟨_, ⟨secretKept, secretHash, secretKey, rfl⟩, _, ⟨readHash, readKey, rfl⟩, _, ⟨writeHash, writeKey, rfl⟩,
      _, ⟨signingNonempty, rfl⟩, same⟩
    cases same
    exact ⟨secretKept, secretKey, readKey, writeKey, signingNonempty, rfl, rfl, rfl, rfl⟩
  · intro fields
    refine ⟨_, ⟨fields.secretKept, _, fields.secretKey, rfl⟩, _, ⟨_, fields.readKey, rfl⟩, _,
      ⟨_, fields.writeKey, rfl⟩, _, ⟨fields.signingNonempty, rfl⟩, ?_⟩
    have signingKey := fields.signingKey
    have generation := fields.generation
    have defaultTtl := fields.defaultTtl
    have anonymous := fields.anonymous
    cases result
    simp only at signingKey generation defaultTtl anonymous
    rw [signingKey] at generation anonymous
    rw [anonymous, generation, defaultTtl, signingKey]
    rfl

/-- The keys that a patch names can be hashed. -/
def UpdatePolicyJson.Hashable (state : AppState) (patch : UpdatePolicyJson) : Prop :=
  forall text, patch.secretKey = some (some text) ∨ patch.readKey = some (some text) ∨
      patch.writeKey = some (some text) ->
    Exists fun hash => hashCredential state.platform text state.rootKey = .ok hash

/-- A field of the patch has a value it must not have. -/
def UpdatePolicyJson.Invalid (patch : UpdatePolicyJson) : Prop :=
  patch.secretKey = some .none ∨ patch.secretKey = some (some "") ∨ patch.readKey = some (some "") ∨
    patch.writeKey = some (some "") ∨ patch.signingKey = some (some "")

theorem HashField.total {state : AppState} {field : Option (Option String)} (before : Option Bytes)
    (nonempty : field ≠ some (some ""))
    (hashable : forall text, field = some (some text) ->
      Exists fun hash => hashCredential state.platform text state.rootKey = .ok hash) :
    Exists fun after => HashField state field before after := by
  cases field with
  | none => exact ⟨before, .absent⟩
  | some inner =>
      cases inner with
      | none => exact ⟨none, .cleared⟩
      | some text =>
          rcases hashable text rfl with ⟨hash, hashed⟩
          exact ⟨some hash, .set (fun empty => nonempty (by rw [empty])) hashed⟩

theorem not_patched_of_invalid {state : AppState} {patch : UpdatePolicyJson} {policy result : BucketPolicy}
    (invalid : patch.Invalid) : ¬ PatchedFields state patch policy result := by
  intro fields
  rcases invalid with cleared | secret | read | write | signing
  · exact fields.secretKept cleared
  · exact fields.secretKey.nonempty secret
  · exact fields.readKey.nonempty read
  · exact fields.writeKey.nonempty write
  · exact fields.signingNonempty signing

/-- A patch without an invalid field applies to every policy. -/
theorem patched_of_valid {state : AppState} {patch : UpdatePolicyJson} (valid : ¬ patch.Invalid)
    (hashable : patch.Hashable state) (policy : BucketPolicy) :
    Exists fun result => PatchedFields state patch policy result := by
  unfold UpdatePolicyJson.Invalid at valid
  simp only [not_or] at valid
  rcases valid with ⟨secretKept, secretNonempty, readNonempty, writeNonempty, signingNonempty⟩
  rcases HashField.total policy.secretKeyHash secretNonempty (fun text named => hashable text (.inl named)) with
    ⟨secretHash, secretKey⟩
  rcases HashField.total policy.readKeyHash readNonempty (fun text named => hashable text (.inr (.inl named))) with
    ⟨readHash, readKey⟩
  rcases HashField.total policy.writeKeyHash writeNonempty (fun text named => hashable text (.inr (.inr named))) with
    ⟨writeHash, writeKey⟩
  let signed := policy.withSigningKey (patch.signingKeyOn policy.signingKey)
  exact ⟨{ signed with
      secretKeyHash := secretHash, readKeyHash := readHash, writeKeyHash := writeHash
      defaultTtlSecs := patch.defaultTtl.getD policy.defaultTtlSecs
      anonymousAccess := Permission.anonymousFromKeys secretHash.isSome readHash.isSome writeHash.isSome },
    secretKept, secretKey, readKey, writeKey, signingNonempty, rfl, rfl, rfl, rfl⟩

namespace PatchedFields

variable {state : AppState} {patch : UpdatePolicyJson} {policy result : BucketPolicy}

/-- A patch stands to its result as it does to the policy it was made for. -/
theorem repeated (fields : PatchedFields state patch policy result) : PatchedFields state patch result result where
  secretKept := fields.secretKept
  secretKey := fields.secretKey.repeated
  readKey := fields.readKey.repeated
  writeKey := fields.writeKey.repeated
  signingNonempty := fields.signingNonempty
  signingKey := by
    rw [fields.signingKey]
    unfold UpdatePolicyJson.signingKeyOn
    cases patch.signingKey <;> rfl
  generation := (if_neg (fun different => different rfl)).symm
  defaultTtl := by
    rw [fields.defaultTtl]
    cases patch.defaultTtl <;> rfl
  anonymous := fields.anonymous

theorem secretKey_isSome (fields : PatchedFields state patch policy result)
    (present : policy.secretKeyHash.isSome = true) : result.secretKeyHash.isSome = true := by
  have kept := fields.secretKept
  have named := fields.secretKey
  generalize patch.secretKey = field at kept named
  generalize result.secretKeyHash = after at named
  cases named with
  | absent => exact present
  | cleared => exact absurd rfl kept
  | set _ _ => rfl

/-- The generation moves by one when the signing key changes and stays
otherwise; below the largest number it never decreases. -/
theorem generation_toNat (fields : PatchedFields state patch policy result)
    (bounded : policy.signingKeyGeneration.toNat < 2 ^ 64 - 1) :
    result.signingKeyGeneration.toNat =
      policy.signingKeyGeneration.toNat + if policy.signingKey = result.signingKey then 0 else 1 := by
  rw [fields.generation]
  by_cases same : policy.signingKey = result.signingKey
  · rw [if_neg (fun different => different same), if_pos same, Nat.add_zero]
  · rw [if_pos same, if_neg same, UInt64.toNat_add, UInt64.toNat_one, Nat.mod_eq_of_lt (by omega)]

end PatchedFields

/-! ## Bodies -/

/-- A member of the body has a name and a value that a patch may have. -/
def isPolicyMember (member : String × Json) : Bool :=
  match member with
  | ("secret_key", value) | ("read_key", value) | ("write_key", value) | ("signing_key", value) =>
      (Json.asOption Json.asString value).isSome
  | ("default_ttl", value) => (Json.asOption Json.asU64 value).isSome
  | _ => false

theorem lookup_of_mem {members : List (String × Json)} {name : String} {value : Json}
    (unique : ¬ 1 < members.countP (fun member => member.1 == name)) (member : (name, value) ∈ members) :
    members.lookup name = some value := by
  induction members with
  | nil => cases member
  | cons head rest ih =>
      rcases head with ⟨other, first⟩
      rw [List.countP_cons] at unique
      by_cases same : name = other
      · subst same
        rcases List.mem_cons.mp member with here | later
        · cases here
          rw [List.lookup_cons_self]
        · have again : 0 < rest.countP (fun member => member.1 == name) :=
            List.countP_pos_iff.mpr ⟨(name, value), later, beq_self_eq_true name⟩
          simp only [beq_self_eq_true, if_true] at unique
          omega
      · rcases List.mem_cons.mp member with here | later
        · exact absurd (congrArg Prod.fst here) same
        · have apart : (name == other) = false := beq_eq_false_iff_ne.mpr same
          rw [List.lookup_cons, apart]
          exact ih (by omega) later

/-- A record read from an object without unknown members supplies each member
to its field. -/
theorem lookup_of_fields {positional : Nat} {names : List String} {members : List (String × Json)}
    {found : List (Option Json)} (read : Json.fields true positional names (.obj members) = some found)
    {name : String} {value : Json} (listed : (name, value) ∈ members) :
    name ∈ names ∧ members.lookup name = some value ∧ found = names.map (fun name => members.lookup name) := by
  simp only [Json.fields, Bool.true_and] at read
  split at read
  next => cases read
  next unique =>
    split at read
    next => cases read
    next known =>
      cases read
      have named : name ∈ names := by
        by_contra unknown
        refine known (List.any_eq_true.mpr ⟨(name, value), listed, ?_⟩)
        simpa using unknown
      refine ⟨named, lookup_of_mem (fun twice => unique ?_) listed, rfl⟩
      exact List.any_eq_true.mpr ⟨name, named, decide_eq_true twice⟩

theorem isSome_of_deserialize {α : Type} {read : Json -> Option α} {value : Json}
    {field : Option (Option α)} (made : deserializeDoubleOption read (some value) = some field) :
    (Json.asOption read value).isSome = true := by
  rcases Option.map_eq_some_iff.mp made with ⟨inner, known, _⟩
  rw [known]
  rfl

/-- A body with an unknown field or a value of the wrong type is no patch. -/
theorem isPolicyMember_of_read {members : List (String × Json)} {patch : UpdatePolicyJson}
    (read : updatePolicyFromJson (.obj members) = some patch) {member : String × Json} (listed : member ∈ members) :
    isPolicyMember member = true := by
  rcases member with ⟨name, value⟩
  unfold updatePolicyFromJson at read
  split at read
  next secretKey readKey writeKey signingKey defaultTtl supplied =>
    rcases lookup_of_fields supplied listed with ⟨named, found, whole⟩
    simp only [List.map_cons, List.map_nil, List.cons.injEq, and_true] at whole
    rcases whole with ⟨rfl, rfl, rfl, rfl, rfl⟩
    simp only [Option.bind_eq_bind, Option.pure_def, Option.bind_eq_some_iff] at read
    rcases read with ⟨_, secretKey, _, readKey, _, writeKey, _, signingKey, _, defaultTtl, _⟩
    simp only [List.mem_cons, List.not_mem_nil, or_false] at named
    rcases named with rfl | rfl | rfl | rfl | rfl
    · exact isSome_of_deserialize (found ▸ secretKey)
    · exact isSome_of_deserialize (found ▸ readKey)
    · exact isSome_of_deserialize (found ▸ writeKey)
    · exact isSome_of_deserialize (found ▸ signingKey)
    · exact isSome_of_deserialize (found ▸ defaultTtl)
  next => cases read

/-! ## Updates -/

section Updates

variable {state : AppState} {auth : BucketAuth} {store : Store} {policy : BucketPolicy}

/-- An update by an administrator, run without interruption. -/
theorem eval_updatePolicy (admin : auth.requireAdmin = .ok ())
    (found : store.lookupPolicy state.platform auth.bucketId = .ok (some policy)) (body : Bytes) :
    eval state.platform (updatePolicy state auth (.ok body)) store =
      match parseUpdatePolicy state.platform body with
      | none => (.error badRequest, store)
      | some patch =>
          match patchedPolicy state patch policy with
          | .error response => (.error response, store)
          | .ok result =>
              match encodePolicy state.platform result with
              | .error error => (.error (mapUseCaseRepoErr error), store)
              | .ok bytes => (.ok (Response.ofStatus 204), store.writePolicy auth.bucketId bytes) := by
  simp only [updatePolicy, eval_bind, eval_known, admin, eval_orReject]
  cases parseUpdatePolicy state.platform body with
  | none => rfl
  | some patch =>
      simp only [eval_spawnGetPolicy, found, Except.mapError]
      cases patchedPolicy state patch policy with
      | error response => rfl
      | ok result =>
          simp only [eval_spawnUsecase, Task.eval_createBucket]
          cases encodePolicy state.platform result <;> rfl

/-- Whatever the body is, an update leaves the store as it is or writes the
policy that the patch describes. -/
theorem updatePolicy_cases (admin : auth.requireAdmin = .ok ())
    (found : store.lookupPolicy state.platform auth.bucketId = .ok (some policy)) (body : Bytes) :
    (eval state.platform (updatePolicy state auth (.ok body)) store).2 = store ∨
    Exists fun patch => Exists fun result => Exists fun bytes =>
      parseUpdatePolicy state.platform body = some patch ∧ PatchedFields state patch policy result ∧
      encodePolicy state.platform result = .ok bytes ∧
      eval state.platform (updatePolicy state auth (.ok body)) store =
        (.ok (Response.ofStatus 204), store.writePolicy auth.bucketId bytes) := by
  rw [eval_updatePolicy admin found]
  cases parsed : parseUpdatePolicy state.platform body with
  | none => exact .inl rfl
  | some patch =>
      simp only
      cases applied : patchedPolicy state patch policy with
      | error response => exact .inl rfl
      | ok result =>
          simp only
          cases encoded : encodePolicy state.platform result with
          | error error => exact .inl rfl
          | ok bytes => exact .inr ⟨patch, result, bytes, rfl, patchedPolicy_eq_ok.mp applied, encoded, rfl⟩

theorem Store.writePolicy_twice (store : Store) (bucket : BucketId) (bytes : Bytes) :
    (store.writePolicy bucket bytes).writePolicy bucket bytes = store.writePolicy bucket bytes := by
  have same : (store.metadata.insert (Bytes.utf8 bucket.asStr) bytes).insert (Bytes.utf8 bucket.asStr) bytes =
      store.metadata.insert (Bytes.utf8 bucket.asStr) bytes := by
    apply Std.ExtTreeMap.ext_getElem?
    intro name
    simp only [Keyspace.get_insert]
    split <;> rfl
  unfold Store.writePolicy
  simp only [same]

/-- Sending a body twice is the same as sending it once. -/
theorem updatePolicy_idempotent (admin : auth.requireAdmin = .ok ())
    (found : store.lookupPolicy state.platform auth.bucketId = .ok (some policy)) (body : Bytes) :
    let after := (eval state.platform (updatePolicy state auth (.ok body)) store).2
    (eval state.platform (updatePolicy state auth (.ok body)) after).2 = after := by
  intro after
  rcases updatePolicy_cases admin found body with same | ⟨patch, result, bytes, parsed, fields, encoded, written⟩
  · have unchanged : after = store := same
    rw [unchanged]
    exact same
  · have stored : after = store.writePolicy auth.bucketId bytes := congrArg Prod.snd written
    have again : after.lookupPolicy state.platform auth.bucketId = .ok (some result) := by
      rw [stored]
      exact Store.lookupPolicy_writePolicy encoded store auth.bucketId
    rw [eval_updatePolicy admin again, parsed]
    simp only [patchedPolicy_eq_ok.mpr fields.repeated, encoded]
    rw [stored, Store.writePolicy_twice]

end Updates

/-- What a body does to a stored policy: a body that is no patch, has an unknown
field, a value of the wrong type or an invalid one changes nothing; any other
body sets what it names and keeps the rest; the secret key is never lost, the
generation counts changes of the signing key, and a second time changes
nothing. -/
theorem policy_patch_meaning (state : AppState) (auth : BucketAuth) (admin : auth.requireAdmin = .ok ())
    (store : Store) (policy : BucketPolicy)
    (found : store.lookupPolicy state.platform auth.bucketId = .ok (some policy))
    (bounded : policy.signingKeyGeneration.toNat < 2 ^ 64 - 1) (body : Bytes) :
    let after := eval state.platform (updatePolicy state auth (.ok body)) store
    (body = [] -> parseUpdatePolicy state.platform body = some UpdatePolicyJson.none) ∧
    (parseUpdatePolicy state.platform body = none -> after = (.error badRequest, store)) ∧
    (forall members member, body ≠ [] -> state.platform.json.fromSlice body = some (.obj members) ->
      member ∈ members -> isPolicyMember member = false -> after = (.error badRequest, store)) ∧
    (forall patch, parseUpdatePolicy state.platform body = some patch -> patch.Invalid ->
      (Exists fun response => after.1 = .error response) ∧ after.2 = store) ∧
    (forall patch, parseUpdatePolicy state.platform body = some patch -> ¬ patch.Invalid -> patch.Hashable state ->
      (forall result, PatchedFields state patch policy result ->
        Exists fun bytes => encodePolicy state.platform result = .ok bytes) ->
      Exists fun result => PatchedFields state patch policy result ∧ after.1 = .ok (Response.ofStatus 204) ∧
        after.2.lookupPolicy state.platform auth.bucketId = .ok (some result)) ∧
    (Exists fun result => after.2.lookupPolicy state.platform auth.bucketId = .ok (some result) ∧
      (policy.secretKeyHash.isSome = true -> result.secretKeyHash.isSome = true) ∧
      policy.signingKeyGeneration ≤ result.signingKeyGeneration ∧
      (result.signingKeyGeneration.toNat = policy.signingKeyGeneration.toNat + 1 ↔
        result.signingKey ≠ policy.signingKey)) ∧
    (eval state.platform (updatePolicy state auth (.ok body)) after.2).2 = after.2 := by
  intro after
  have closed : after = _ := eval_updatePolicy admin found body
  have refused : parseUpdatePolicy state.platform body = none -> after = (.error badRequest, store) := by
    intro nothing
    rw [closed, nothing]
  refine ⟨?_, refused, ?_, ?_, ?_, ?_, updatePolicy_idempotent admin found body⟩
  · rintro rfl
    rfl
  · intro members member nonempty read listed misfit
    refine refused ?_
    cases parsed : parseUpdatePolicy state.platform body with
    | none => rfl
    | some patch =>
        have filled : body.isEmpty = false := List.isEmpty_eq_false_iff.mpr nonempty
        simp only [parseUpdatePolicy, filled, Bool.false_eq_true, if_false, read, Option.bind_some] at parsed
        rw [isPolicyMember_of_read parsed listed] at misfit
        cases misfit
  · intro patch parsed invalid
    rw [closed, parsed]
    simp only
    cases applied : patchedPolicy state patch policy with
    | error response => exact ⟨⟨response, rfl⟩, rfl⟩
    | ok result => exact absurd (patchedPolicy_eq_ok.mp applied) (not_patched_of_invalid invalid)
  · intro patch parsed valid hashable writable
    rcases patched_of_valid valid hashable policy with ⟨result, fields⟩
    rcases writable result fields with ⟨bytes, encoded⟩
    refine ⟨result, fields, ?_⟩
    rw [closed, parsed]
    simp only [patchedPolicy_eq_ok.mpr fields, encoded, true_and]
    exact Store.lookupPolicy_writePolicy encoded store auth.bucketId
  · rcases updatePolicy_cases admin found body with same | ⟨patch, result, bytes, _, fields, encoded, written⟩
    · have unchanged : after.2 = store := same
      refine ⟨policy, by rw [unchanged]; exact found, id, UInt64.le_refl _, ?_⟩
      exact iff_of_false (by omega) (fun different => different rfl)
    · refine ⟨result, ?_, fields.secretKey_isSome, ?_, ?_⟩
      · have stored : after.2 = store.writePolicy auth.bucketId bytes := congrArg Prod.snd written
        rw [stored]
        exact Store.lookupPolicy_writePolicy encoded store auth.bucketId
      · rw [UInt64.le_iff_toNat_le, fields.generation_toNat bounded]
        omega
      · rw [fields.generation_toNat bounded]
        by_cases same : policy.signingKey = result.signingKey
        · rw [if_pos same]
          exact iff_of_false (by omega) (fun different => different same.symm)
        · rw [if_neg same]
          exact iff_of_true rfl (fun equal => same equal.symm)

open Rotation in
/-- A change of the time to live by an administrator. -/
theorem ttl_patch_meaning :
    let auth := BucketAuth.ofPolicy ⟨bucket.text⟩ (policy "old" 0 604800) .admin
    let after := eval state.platform (updatePolicy state auth (.ok ttlBody)) start
    after.2.lookupPolicy state.platform ⟨bucket.text⟩ = .ok (some (policy "old" 0 60)) ∧
      (eval state.platform (updatePolicy state auth (.ok ttlBody)) after.2).2 = after.2 := by
  intro auth after
  refine ⟨by decide +kernel, ?_⟩
  exact (policy_patch_meaning state auth rfl start (policy "old" 0 604800) (by decide +kernel) (by decide)
    ttlBody).2.2.2.2.2.2

end Keydock
