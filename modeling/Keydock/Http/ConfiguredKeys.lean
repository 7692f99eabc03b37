import Keydock.Http.Authorization
import Keydock.Http.PolicyRuns

/-!
# Keys as their owner gave them

The store holds a hash of each key, made of the text as it was given; a request
presents a key through a header, which carries less than every text and of
which white space at both ends is dropped.  The hashes are compared in a fixed
order, and the first match decides.

A key that was configured therefore grants its role exactly when the header can
carry it, what is left after trimming still hashes like it, and no earlier
match takes a right away: the write key is compared before the read key and
grants neither reading nor listing.
-/

namespace Keydock

open Effect Handler

/-! ## Configurations -/

/-- The roles of the keys of a bucket. -/
inductive Role
  | secretKey
  | writeKey
  | readKey
  deriving DecidableEq

/-- The keys of a bucket as texts. -/
structure Credentials where
  secretKey : Option String
  writeKey : Option String
  readKey : Option String
  deriving DecidableEq

namespace Credentials

def key (given : Credentials) : Role -> Option String
  | .secretKey => given.secretKey
  | .writeKey => given.writeKey
  | .readKey => given.readKey

/-- The keys of a new bucket. -/
def ofForm (form : CreateBucketForm) : Credentials :=
  ⟨noneIfEmpty form.secretKey, noneIfEmpty form.writeKey, noneIfEmpty form.readKey⟩

/-- The keys after a patch: those it names are set or cleared. -/
def patched (given : Credentials) (patch : UpdatePolicyJson) : Credentials :=
  ⟨patch.secretKey.getD given.secretKey, patch.writeKey.getD given.writeKey, patch.readKey.getD given.readKey⟩

end Credentials

/-- The keys that a bucket was given: by its creation, and by every accepted
patch since.  Whatever else happens to the store meanwhile leaves them alone. -/
inductive Configured (state : AppState) (bucket : BucketId) : Store -> Credentials -> Prop
  | created {store : Store} {fresh : Uuid} {form : CreateBucketForm} (named : fresh.bucketId = bucket)
      (accepted : ((Request.createBucket fresh (.ok form)).perform state store).1.isSuccess = true) :
      Configured state bucket ((Request.createBucket fresh (.ok form)).perform state store).2 (.ofForm form)
  | patched {store : Store} {given : Credentials} {request : BucketRequest} {body : Bytes} {patch : UpdatePolicyJson}
      (before : Configured state bucket store given) (addressed : request.bucketId = bucket)
      (asked : request.route = .updatePolicy (.ok body))
      (read : parseUpdatePolicy state.platform body = some patch)
      (accepted : ((Request.bucket request).perform state store).1.isSuccess = true) :
      Configured state bucket ((Request.bucket request).perform state store).2 (given.patched patch)
  | meanwhile {store after : Store} {given : Credentials} (before : Configured state bucket store given)
      (same : after.metadata[Bytes.utf8 bucket.asStr]? = store.metadata[Bytes.utf8 bucket.asStr]?) :
      Configured state bucket after given

/-! ## Accepted requests -/

section Accepted

variable {state : AppState} {store : Store}

theorem newBucketPolicy_error {form : CreateBucketForm} {response : Response}
    (failed : newBucketPolicy state form = .error response) : response.isSuccess = false := by
  have hashing : forall {given : Option String} {early : Response},
      hashOptional state given = .error early -> early.isSuccess = false := by
    intro given early refused
    cases given with
    | none => cases refused
    | some raw =>
        cases hashed : hashApiKeyOrFail state.platform state.rootKey raw with
        | error other =>
            rw [hashOptional, hashed] at refused
            cases refused
            exact hashApiKeyOrFail_error state hashed
        | ok hash =>
            rw [hashOptional, hashed] at refused
            cases refused
  simp only [newBucketPolicy, bind, Except.bind] at failed
  split at failed
  · cases failed
    rfl
  · split at failed
    next early refused =>
      cases failed
      exact hashing refused
    next =>
      split at failed
      next early refused =>
        cases failed
        exact hashing refused
      next =>
        split at failed
        next early refused =>
          cases failed
          exact hashing refused
        next => cases failed

theorem createBucket_accepted {fresh : Uuid} {form : CreateBucketForm}
    (accepted : ((Request.createBucket fresh (.ok form)).perform state store).1.isSuccess = true) :
    Exists fun policy => Exists fun bytes => newBucketPolicy state form = .ok policy ∧
      encodePolicy state.platform policy = .ok bytes ∧
      ((Request.createBucket fresh (.ok form)).perform state store).2 = store.writePolicy fresh.bucketId bytes := by
  rw [Request.perform_eq] at accepted ⊢
  simp only [Request.handler, createBucket, eval_bind, eval_known] at accepted ⊢
  cases made : newBucketPolicy state form with
  | error response =>
      rw [made] at accepted
      exact absurd accepted (ne_true_of_eq_false (newBucketPolicy_error made))
  | ok policy =>
      rw [made] at accepted
      simp only [eval_spawnUsecase, Task.eval_createBucket] at accepted ⊢
      cases encoded : encodePolicy state.platform policy with
      | error error =>
          rw [encoded] at accepted
          exact absurd accepted (ne_true_of_eq_false (TaskError.response_not_success (.useCase error)))
      | ok bytes => exact ⟨policy, bytes, rfl, encoded, rfl⟩

theorem updatePolicy_accepted {request : BucketRequest} {body : Bytes} {patch : UpdatePolicyJson}
    (asked : request.route = .updatePolicy (.ok body)) (read : parseUpdatePolicy state.platform body = some patch)
    (accepted : ((Request.bucket request).perform state store).1.isSuccess = true) :
    Exists fun policy => Exists fun result => Exists fun bytes =>
      store.lookupPolicy state.platform request.bucketId = .ok (some policy) ∧
      patchedPolicy state patch policy = .ok result ∧ encodePolicy state.platform result = .ok bytes ∧
      ((Request.bucket request).perform state store).2 = store.writePolicy request.bucketId bytes := by
  rw [Request.perform_eq, Request.handler, BucketRequest.eval_handler] at accepted ⊢
  cases resolved : request.authenticated state store with
  | error response =>
      rw [resolved] at accepted
      exact absurd accepted (ne_true_of_eq_false (authenticated_error state request resolved))
  | ok auth =>
      rcases request.authenticated_eq_ok resolved with ⟨policy, identity, found, _, rfl⟩
      simp only [resolved, asked, Route.serve] at accepted ⊢
      cases admin : (BucketAuth.ofPolicy request.bucketId policy identity).requireAdmin with
      | error response =>
          simp only [updatePolicy, eval_bind, eval_known, admin, outcome, requireAdmin_error admin] at accepted
          cases accepted
      | ok _ =>
          rw [eval_updatePolicy admin found, read] at accepted ⊢
          simp only at accepted ⊢
          have yields := patchedPolicy_yields state patch policy
          cases applied : patchedPolicy state patch policy with
          | error response =>
              rw [applied] at yields accepted
              exact absurd accepted (ne_true_of_eq_false yields)
          | ok result =>
              rw [applied] at accepted
              simp only at accepted ⊢
              cases encoded : encodePolicy state.platform result with
              | error error =>
                  rw [encoded] at accepted
                  simp only [outcome] at accepted
                  cases error <;> cases accepted
              | ok bytes => exact ⟨policy, result, bytes, found, applied, encoded, rfl⟩

end Accepted

/-! ## Stored hashes -/

/-- A hash is stored exactly for a key that is given, and it is the hash of the
text. -/
def Hashed (state : AppState) : Option String -> Option Bytes -> Prop :=
  Option.Rel (fun text hash => hashCredential state.platform text state.rootKey = .ok hash)

theorem HashField.hashed {state : AppState} {field : Option (Option String)} {before after : Option Bytes}
    {given : Option String} (named : HashField state field before after) (stored : Hashed state given before) :
    Hashed state (field.getD given) after := by
  cases named with
  | absent => exact stored
  | cleared => exact .none
  | set _ hashed => exact .some hashed

/-- The policy holds the hashes of the keys. -/
structure Credentials.Stored (state : AppState) (given : Credentials) (policy : BucketPolicy) : Prop where
  secretKey : Hashed state given.secretKey policy.secretKeyHash
  writeKey : Hashed state given.writeKey policy.writeKeyHash
  readKey : Hashed state given.readKey policy.readKeyHash

theorem Credentials.stored_ofForm {state : AppState} {form : CreateBucketForm} {policy : BucketPolicy}
    (fields : NewFields state form policy) : (Credentials.ofForm form).Stored state policy where
  secretKey := fields.secretKey.hashed .none
  writeKey := fields.writeKey.hashed .none
  readKey := fields.readKey.hashed .none

theorem Credentials.Stored.patched {state : AppState} {given : Credentials} {patch : UpdatePolicyJson}
    {policy result : BucketPolicy} (stored : given.Stored state policy)
    (fields : PatchedFields state patch policy result) : (given.patched patch).Stored state result where
  secretKey := fields.secretKey.hashed stored.secretKey
  writeKey := fields.writeKey.hashed stored.writeKey
  readKey := fields.readKey.hashed stored.readKey

/-- A configured bucket is stored with the hashes of its keys. -/
theorem Configured.stored {state : AppState} {bucket : BucketId} {store : Store} {given : Credentials}
    (configured : Configured state bucket store given) :
    Exists fun policy => store.lookupPolicy state.platform bucket = .ok (some policy) ∧ given.Stored state policy := by
  induction configured with
  | created named accepted =>
      rcases createBucket_accepted accepted with ⟨policy, bytes, made, encoded, written⟩
      refine ⟨policy, ?_, Credentials.stored_ofForm (newBucketPolicy_eq_ok.mp made)⟩
      rw [written, named]
      exact Store.lookupPolicy_writePolicy encoded _ bucket
  | patched before addressed asked read accepted ih =>
      rcases ih with ⟨policy, found, stored⟩
      rcases updatePolicy_accepted asked read accepted with ⟨old, result, bytes, looked, applied, encoded, written⟩
      rw [addressed] at looked written
      rw [found] at looked
      cases looked
      refine ⟨result, ?_, stored.patched (patchedPolicy_eq_ok.mp applied)⟩
      rw [written]
      exact Store.lookupPolicy_writePolicy encoded _ bucket
  | meanwhile before same ih =>
      rcases ih with ⟨policy, found, stored⟩
      exact ⟨policy, (Store.lookupPolicy_congr same).trans found, stored⟩

/-- The text hashes as a key that is given. -/
def HashesAs (state : AppState) (text : String) (key : Option String) : Prop :=
  Exists fun other => key = some other ∧
    state.platform.hmacSha256 state.rootKey (Bytes.utf8 text) =
      state.platform.hmacSha256 state.rootKey (Bytes.utf8 other)

theorem hashCredential_eq_ok {platform : Platform} {text : String} {rootKey hash : Bytes} :
    hashCredential platform text rootKey = .ok hash ↔ platform.hmacSha256 rootKey (Bytes.utf8 text) = some hash := by
  unfold hashCredential
  cases platform.hmacSha256 rootKey (Bytes.utf8 text) <;> simp

theorem matchesKey_iff {state : AppState} {key : Option String} {hash : Option Bytes} (stored : Hashed state key hash)
    (text : String) : matchesKey state.platform text state.rootKey hash = true ↔ HashesAs state text key := by
  cases stored with
  | none =>
      constructor
      · intro impossible
        cases impossible
      · rintro ⟨other, impossible, _⟩
        cases impossible
  | @some other hash hashed =>
      have stored := hashCredential_eq_ok.mp hashed
      simp only [matchesKey, verifyCredential]
      constructor
      · intro matched
        refine ⟨other, rfl, ?_⟩
        cases presented : hashCredential state.platform text state.rootKey with
        | error error => rw [presented] at matched; cases matched
        | ok computed =>
            rw [presented] at matched
            rw [hashCredential_eq_ok.mp presented, stored, beq_iff_eq.mp matched]
      · rintro ⟨_, same, alike⟩
        cases same
        rw [hashCredential_eq_ok.mpr (alike.trans stored)]
        exact beq_self_eq_true hash

/-! ## Rights -/

/-- What the key of a role is for. -/
def Role.GrantedBy (auth : BucketAuth) : Role -> Prop
  | .secretKey => auth.requireAdmin = .ok ()
  | .writeKey => forall key, auth.requireWriteOn key = .ok ()
  | .readKey => auth.requireEnumerate = .ok () ∧ forall key, auth.requireReadOn key = .ok ()

section Rights

variable (bucket : BucketId) (policy : BucketPolicy) (role : Role)

theorem grantedBy_admin : role.GrantedBy (BucketAuth.ofPolicy bucket policy .admin) := by
  cases role with
  | secretKey => rfl
  | writeKey =>
      intro key
      rfl
  | readKey => exact ⟨rfl, fun key => rfl⟩

theorem grantedBy_writeOnly :
    role.GrantedBy (BucketAuth.ofPolicy bucket policy (.scoped Permission.writeOnly [])) ↔ role = .writeKey := by
  cases role with
  | secretKey => exact iff_of_false (fun impossible => by cases impossible) (fun impossible => by cases impossible)
  | writeKey => exact iff_of_true (fun key => rfl) rfl
  | readKey => exact iff_of_false (fun impossible => by cases impossible.1) (fun impossible => by cases impossible)

theorem grantedBy_readEnumerate :
    role.GrantedBy (BucketAuth.ofPolicy bucket policy (.scoped Permission.readEnumerate [])) ↔ role = .readKey := by
  cases role with
  | secretKey => exact iff_of_false (fun impossible => by cases impossible) (fun impossible => by cases impossible)
  | writeKey =>
      refine iff_of_false (fun impossible => ?_) (fun impossible => by cases impossible)
      cases impossible ⟨[], by decide⟩
  | readKey => exact iff_of_true ⟨rfl, fun key => rfl⟩ rfl

variable {bucket policy role} {state : AppState} {given : Credentials} {text : String}

/-- Once a role has a key, nobody has its rights without a credential. -/
theorem not_grantedBy_anonymous (stored : given.Stored state policy) (chosen : given.key role = some text) :
    ¬ role.GrantedBy (BucketAuth.ofPolicy bucket policy .anonymous) := by
  have present : forall {hash : Option Bytes}, Hashed state (some text) hash -> hash.isSome = true := by
    intro hash hashed
    cases hashed
    rfl
  cases role with
  | secretKey =>
      intro impossible
      cases impossible
  | writeKey =>
      intro granted
      have keyed := stored.writeKey
      rw [show given.writeKey = some text from chosen] at keyed
      have refused := granted ⟨[], by decide⟩
      simp only [BucketAuth.requireWriteOn, BucketAuth.ofPolicy, PolicyKeysPresence.of, present keyed, if_true] at refused
      cases refused
  | readKey =>
      intro granted
      have keyed := stored.readKey
      rw [show given.readKey = some text from chosen] at keyed
      have refused := granted.1
      simp only [BucketAuth.requireEnumerate, BucketAuth.ofPolicy, PolicyKeysPresence.of, present keyed, if_true] at refused
      cases refused

end Rights

/-! ## Keys that work -/

/-- What is presented of a text that a header carries. -/
def presented (text : String) : String :=
  String.ofList (Text.trim text.toList)

/-- The text of a key stands for its role.  A header can carry it; what is
presented of it is not empty and hashes as the secret key, or as the key of the
role, and then not as the write key when the role is to read. -/
def Credentials.Usable (state : AppState) (given : Credentials) (role : Role) (text : String) : Prop :=
  text.toList.all isHeaderChar = true ∧ Text.trim text.toList ≠ [] ∧
    (HashesAs state (presented text) given.secretKey ∨
      HashesAs state (presented text) (given.key role) ∧
        (role = .readKey -> ¬ HashesAs state (presented text) given.writeKey))

section Resolution

variable {state : AppState} {given : Credentials} {policy : BucketPolicy}

/-- The order of the comparisons, over the texts of the keys. -/
theorem resolve_cases (stored : given.Stored state policy) (bucket : BucketId) (now : OffsetDateTime) (text : String) :
    let outcome := resolve state.platform (some text) policy bucket state.rootKey now
    (HashesAs state text given.secretKey ∧ outcome = .ok .admin) ∨
    (¬ HashesAs state text given.secretKey ∧ HashesAs state text given.writeKey ∧
      outcome = .ok (.scoped Permission.writeOnly [])) ∨
    (¬ HashesAs state text given.secretKey ∧ ¬ HashesAs state text given.writeKey ∧
      HashesAs state text given.readKey ∧ outcome = .ok (.scoped Permission.readEnumerate [])) ∨
    (¬ HashesAs state text given.secretKey ∧ ¬ HashesAs state text given.writeKey ∧
      ¬ HashesAs state text given.readKey ∧ outcome =
        match verify state.platform text policy bucket now with
        | .error _ => .error .invalidCredential
        | .ok claims => .ok (.scoped claims.permissions claims.allowedPrefix)) := by
  intro outcome
  have unfolded : outcome = resolve state.platform (some text) policy bucket state.rootKey now := rfl
  rw [unfolded, resolve, ← matchesKey_iff stored.secretKey, ← matchesKey_iff stored.writeKey,
    ← matchesKey_iff stored.readKey]
  by_cases secret : matchesKey state.platform text state.rootKey policy.secretKeyHash = true
  · exact .inl ⟨secret, if_pos secret⟩
  · rw [if_neg secret]
    by_cases write : matchesKey state.platform text state.rootKey policy.writeKeyHash = true
    · exact .inr (.inl ⟨secret, write, if_pos write⟩)
    · rw [if_neg write]
      by_cases read : matchesKey state.platform text state.rootKey policy.readKeyHash = true
      · exact .inr (.inr (.inl ⟨secret, write, read, if_pos read⟩))
      · exact .inr (.inr (.inr ⟨secret, write, read, if_neg read⟩))

/-- No token is valid at the end of time. -/
theorem verify_at_end (platform : Platform) (raw : String) (policy : BucketPolicy) (bucket : BucketId)
    (claims : TemporaryTokenClaims) : verify platform raw policy bucket OffsetDateTime.last ≠ .ok claims := by
  intro verified
  rcases verify_eq_ok_iff.mp verified with ⟨_, _, _, _, _, _, _, valid, _⟩
  exact Int.not_le_of_gt valid claims.exp.le_last

/-- The key of a role under a policy, presented by a Bearer header. -/
theorem granted_of_usable (stored : given.Stored state policy) (bucket : BucketId) (now : OffsetDateTime) {role : Role}
    {text : String} (usable : given.Usable state role text) (query : Option String) :
    Exists fun identity =>
      resolve state.platform ((extract (some (Bytes.utf8 ("Bearer " ++ text))) query).map RawCredential.asStr) policy
        bucket state.rootKey now = .ok identity ∧ role.GrantedBy (BucketAuth.ofPolicy bucket policy identity) := by
  rcases usable with ⟨carried, nonempty, alike⟩
  have credential : (extract (some (Bytes.utf8 ("Bearer " ++ text))) query).map RawCredential.asStr =
      some (presented text) := by
    rw [extract_bearer, if_pos ⟨carried, nonempty⟩]
    rfl
  rw [credential]
  rcases resolve_cases stored bucket now (presented text) with
    ⟨secret, resolved⟩ | ⟨secret, write, resolved⟩ | ⟨secret, write, read, resolved⟩ | ⟨secret, write, read, _⟩
  · exact ⟨_, resolved, grantedBy_admin bucket policy role⟩
  · refine ⟨_, resolved, (grantedBy_writeOnly bucket policy role).mpr ?_⟩
    have own := alike.resolve_left secret
    cases role with
    | secretKey => exact absurd own.1 secret
    | writeKey => rfl
    | readKey => exact absurd write (own.2 rfl)
  · refine ⟨_, resolved, (grantedBy_readEnumerate bucket policy role).mpr ?_⟩
    have own := alike.resolve_left secret
    cases role with
    | secretKey => exact absurd own.1 secret
    | writeKey => exact absurd own.1 write
    | readKey => rfl
  · have own := (alike.resolve_left secret).1
    cases role with
    | secretKey => exact absurd own secret
    | writeKey => exact absurd own write
    | readKey => exact absurd own read

theorem usable_of_granted (stored : given.Stored state policy) {bucket : BucketId} {role : Role} {text : String}
    (chosen : given.key role = some text) {identity : ResolvedIdentity}
    (resolved : resolve state.platform ((extract (some (Bytes.utf8 ("Bearer " ++ text))) none).map RawCredential.asStr)
      policy bucket state.rootKey OffsetDateTime.last = .ok identity)
    (granted : role.GrantedBy (BucketAuth.ofPolicy bucket policy identity)) : given.Usable state role text := by
  rw [extract_bearer] at resolved
  by_cases carried : text.toList.all isHeaderChar = true ∧ Text.trim text.toList ≠ []
  · rw [if_pos carried] at resolved
    refine ⟨carried.1, carried.2, ?_⟩
    have shown : resolve state.platform (some (presented text)) policy bucket state.rootKey OffsetDateTime.last =
      .ok identity := resolved
    rcases resolve_cases stored bucket OffsetDateTime.last (presented text) with
      ⟨secret, outcome⟩ | ⟨secret, write, outcome⟩ | ⟨secret, write, read, outcome⟩ | ⟨_, _, _, outcome⟩
    · exact .inl secret
    · rw [shown] at outcome
      cases outcome
      have same := (grantedBy_writeOnly bucket policy role).mp granted
      subst same
      exact .inr ⟨write, fun impossible => by cases impossible⟩
    · rw [shown] at outcome
      cases outcome
      have same := (grantedBy_readEnumerate bucket policy role).mp granted
      subst same
      exact .inr ⟨read, fun _ => write⟩
    · rw [shown] at outcome
      cases verified : verify state.platform (presented text) policy bucket OffsetDateTime.last with
      | error error => rw [verified] at outcome; cases outcome
      | ok claims => exact absurd verified (verify_at_end _ _ _ _ _)
  · rw [if_neg carried] at resolved
    cases resolved
    exact absurd granted (not_grantedBy_anonymous stored chosen)

end Resolution

/-- A configured key grants the rights of its role to every request that sends
it as a Bearer credential exactly when its text stands for the role. -/
theorem configured_key_works_iff (state : AppState) (bucket : Segment) (store : Store) (given : Credentials)
    (configured : Configured state ⟨bucket.text⟩ store given) (role : Role) (text : String)
    (chosen : given.key role = some text) :
    (forall query clock route, Exists fun auth =>
      (BucketRequest.mk bucket query (some (Bytes.utf8 ("Bearer " ++ text))) clock route).authenticated state store =
        .ok auth ∧ role.GrantedBy auth) ↔ given.Usable state role text := by
  rcases configured.stored with ⟨policy, found, stored⟩
  constructor
  · intro works
    rcases works none (fun _ => OffsetDateTime.last) .headBucket with ⟨auth, accepted, granted⟩
    rcases BucketRequest.authenticated_eq_ok accepted with ⟨other, identity, looked, resolved, rfl⟩
    have same : (.ok (some policy) : Except UseCaseError (Option BucketPolicy)) = .ok (some other) :=
      found.symm.trans looked
    cases same
    exact usable_of_granted stored chosen resolved granted
  · intro usable query clock route
    rcases granted_of_usable stored ⟨bucket.text⟩ (clock 0) usable query with ⟨identity, resolved, granted⟩
    refine ⟨BucketAuth.ofPolicy ⟨bucket.text⟩ policy identity, ?_, granted⟩
    simp only [BucketRequest.authenticated, BucketRequest.bucketId, found, BucketAuth.authenticate, BucketRequest.parts,
      resolved]

namespace SharedKey

open Rotation (rootKey)

/-- The hash of ` s`, with the blank. -/
def spacedHash : Bytes :=
  [123, 237, 194, 100, 38, 115, 23, 29, 23, 4, 53, 52, 69, 0, 219, 2,
    127, 131, 184, 106, 6, 97, 89, 9, 134, 223, 169, 168, 56, 11, 238, 220]

/-- The hash of `s`. -/
def plainHash : Bytes :=
  [229, 208, 149, 87, 52, 87, 185, 53, 6, 41, 175, 120, 60, 219, 34, 165,
    166, 177, 105, 230, 202, 205, 246, 222, 41, 6, 19, 37, 9, 81, 115, 147]

/-- The hash of `k`. -/
def sharedHash : Bytes :=
  [146, 255, 239, 76, 207, 142, 28, 93, 255, 25, 121, 27, 190, 182, 49, 124,
    83, 119, 64, 30, 151, 227, 225, 26, 244, 17, 37, 123, 229, 95, 85, 27]

def policy : BucketPolicy where
  defaultTtlSecs := some 604800
  anonymousAccess := Permission.none
  secretKeyHash := some spacedHash
  readKeyHash := some sharedHash
  writeKeyHash := some sharedHash
  signingKey := none
  signingKeyGeneration := 0

def record : Bytes :=
  Bytes.utf8 ("\x7b\"secret_key_hash\":[123,237,194,100,38,115,23,29,23,4,53,52,69,0,219,2," ++
    "127,131,184,106,6,97,89,9,134,223,169,168,56,11,238,220]," ++
    "\"read_key_hash\":[146,255,239,76,207,142,28,93,255,25,121,27,190,182,49,124," ++
    "83,119,64,30,151,227,225,26,244,17,37,123,229,95,85,27]," ++
    "\"write_key_hash\":[146,255,239,76,207,142,28,93,255,25,121,27,190,182,49,124," ++
    "83,119,64,30,151,227,225,26,244,17,37,123,229,95,85,27]," ++
    "\"signing_key\":null,\"signing_key_generation\":0,\"default_ttl_secs\":604800," ++
    "\"anonymous_access\":\x7b\"read\":false,\"write\":false,\"enumerate\":false,\"delete\":false\x7d\x7d")

def state : AppState where
  platform := Platform.ofJson [(storedPolicyToJson policy, record)] (by simp)
    [((rootKey, Bytes.utf8 " s"), spacedHash), ((rootKey, Bytes.utf8 "s"), plainHash),
      ((rootKey, Bytes.utf8 "k"), sharedHash)]
  rootKey := rootKey

def id : Uuid := Uuid.fromU128 0x5e1f2a3b4c5d4e6f8091a2b3c4d5e6f7

def bucket : Segment := ⟨"5e1f2a3b-4c5d-4e6f-8091-a2b3c4d5e6f7", by decide, by decide⟩

/-- The keys for writing and reading are the same, and the secret key starts
with a blank. -/
def form : CreateBucketForm := ⟨"a@b.c", some " s", some "k", some "k", none, none⟩

def given : Credentials := ⟨some " s", some "k", some "k"⟩

/-- The store after the creation of the bucket. -/
def start : Store := ((Request.createBucket id (.ok form)).perform state Store.empty).2

theorem configured : Configured state ⟨bucket.text⟩ start given :=
  .created (by decide +kernel) (by decide +kernel)

theorem found : start.lookupPolicy state.platform ⟨bucket.text⟩ = .ok (some policy) := by
  decide +kernel

/-- A request with a Bearer credential. -/
def request (text : String) : BucketRequest :=
  ⟨bucket, none, some (Bytes.utf8 ("Bearer " ++ text)), fun _ => OffsetDateTime.unixEpoch, .headBucket⟩

/-- What a request is authenticated as. -/
theorem resolved {text : String} {auth : BucketAuth} (accepted : (request text).authenticated state start = .ok auth) :
    Exists fun identity =>
      resolve state.platform (request text).credential policy ⟨bucket.text⟩ rootKey OffsetDateTime.unixEpoch =
        .ok identity ∧ auth = BucketAuth.ofPolicy ⟨bucket.text⟩ policy identity := by
  rcases (request text).authenticated_eq_ok accepted with ⟨other, identity, looked, resolved, same⟩
  have stored : (.ok (some policy) : Except UseCaseError (Option BucketPolicy)) = .ok (some other) :=
    found.symm.trans looked
  cases stored
  exact ⟨identity, resolved, same⟩

end SharedKey

open SharedKey in
/-- The shared key writes. -/
theorem shared_key_writes :
    Exists fun auth => (request "k").authenticated state start = .ok auth ∧ Role.writeKey.GrantedBy auth := by
  refine (configured_key_works_iff state bucket start given configured .writeKey "k" rfl).mpr ?_ none
    (fun _ => OffsetDateTime.unixEpoch) .headBucket
  refine ⟨by decide, by decide, .inr ⟨⟨"k", rfl, by decide +kernel⟩, ?_⟩⟩
  intro impossible
  cases impossible

open SharedKey in
/-- The shared key does not read, and the key with the blank is no key at
all. -/
theorem shared_key_fails :
    Configured state ⟨bucket.text⟩ start given ∧
    given.key .readKey = some "k" ∧
    ¬ (Exists fun auth => (request "k").authenticated state start = .ok auth ∧ Role.readKey.GrantedBy auth) ∧
    given.key .secretKey = some " s" ∧
    ¬ (Exists fun auth => (request " s").authenticated state start = .ok auth ∧ Role.secretKey.GrantedBy auth) := by
  refine ⟨configured, rfl, ?_, rfl, ?_⟩
  · rintro ⟨auth, accepted, granted⟩
    rcases resolved accepted with ⟨identity, outcome, rfl⟩
    have writes : resolve state.platform (request "k").credential policy ⟨bucket.text⟩ Rotation.rootKey
        OffsetDateTime.unixEpoch = .ok (.scoped Permission.writeOnly []) := by
      decide +kernel
    rw [writes] at outcome
    cases outcome
    cases granted.1
  · rintro ⟨auth, accepted, _⟩
    rcases resolved accepted with ⟨identity, outcome, rfl⟩
    have refused : resolve state.platform (request " s").credential policy ⟨bucket.text⟩ Rotation.rootKey
        OffsetDateTime.unixEpoch = .error .invalidCredential := by
      decide +kernel
    rw [refused] at outcome
    cases outcome

end Keydock
