import Keydock.Http.PatchMeaning
import Keydock.Http.Runs

/-!
# Policies along a run

An event of a run keeps the record of a bucket, removes it, writes the policy
of a new bucket or replaces the policy by what a patch makes of it.

From this follows that anonymous access is what it is advertised to be.  The
flags are computed in two places and stored beside the key hashes; every policy
that is ever stored has the flags that its hashes call for, and the checks of
the handlers, which read partly the one and partly the other, agree with them.
-/

namespace Keydock

open Effect Handler

/-! ## Steps of a record -/

/-- What an event may do to the policy of a bucket. -/
inductive PolicyStep (state : AppState) (bucket : BucketId) (store : Store) : Event -> Store -> Prop
  | kept {event : Event} {after : Store}
      (same : after.metadata[Bytes.utf8 bucket.asStr]? = store.metadata[Bytes.utf8 bucket.asStr]?) :
      PolicyStep state bucket store event after
  | removed {event : Event} {after : Store} (gone : after.metadata[Bytes.utf8 bucket.asStr]? = none) :
      PolicyStep state bucket store event after
  | created {fresh : Uuid} {form : Except Response CreateBucketForm} {accepted : CreateBucketForm}
      {policy : BucketPolicy} {after : Store} (named : fresh.bucketId = bucket)
      (made : newBucketPolicy state accepted = .ok policy)
      (found : after.lookupPolicy state.platform bucket = .ok (some policy)) :
      PolicyStep state bucket store (.request (.createBucket fresh form)) after
  | patched {event : Event} {patch : UpdatePolicyJson} {policy result : BucketPolicy} {after : Store}
      (before : store.lookupPolicy state.platform bucket = .ok (some policy))
      (applied : patchedPolicy state patch policy = .ok result)
      (found : after.lookupPolicy state.platform bucket = .ok (some result)) :
      PolicyStep state bucket store event after

theorem Store.lookupPolicy_congr {platform : Platform} {bucket : BucketId} {store after : Store}
    (same : after.metadata[Bytes.utf8 bucket.asStr]? = store.metadata[Bytes.utf8 bucket.asStr]?) :
    after.lookupPolicy platform bucket = store.lookupPolicy platform bucket := by
  rw [Store.lookupPolicy, Store.lookupPolicy, same]

theorem Store.lookupPolicy_of_missing {platform : Platform} {bucket : BucketId} {store : Store}
    (missing : store.metadata[Bytes.utf8 bucket.asStr]? = none) :
    store.lookupPolicy platform bucket = .ok none := by
  rw [Store.lookupPolicy, missing]

/-- Every event of a run makes one of these steps. -/
theorem Event.policyStep {state : AppState} {store : Store} (sound : Sound state.platform store) (event : Event)
    (bucket : BucketId) : PolicyStep state bucket store event (event.perform state store) := by
  have other : forall {name : BucketId}, name ≠ bucket -> Bytes.utf8 name.asStr ≠ Bytes.utf8 bucket.asStr :=
    fun different equal => different (BucketId.ext_str (Bytes.utf8_injective equal))
  cases event with
  | sweep now =>
      refine .kept ?_
      change (store.sweep now).metadata[_]? = _
      rw [sound.indexed.sweep_metadata now]
  | request incoming =>
      cases incoming with
      | createBucket fresh form =>
          change PolicyStep state bucket store _ ((Request.createBucket fresh form).perform state store).2
          rcases createBucket_cases state fresh form store with same | ⟨accepted, policy, bytes, made, encoded, _, same⟩
          · rw [same]
            exact .kept rfl
          · rw [same]
            by_cases named : fresh.bucketId = bucket
            · refine .created named made ?_
              rw [named]
              exact Store.lookupPolicy_writePolicy encoded store bucket
            · refine .kept ?_
              simp only [Store.writePolicy, Keyspace.get_insert, if_neg (other named)]
      | bucket request =>
          change PolicyStep state bucket store _ ((Request.bucket request).perform state store).2
          rcases request.perform_cases state store with same | ⟨auth, _, _, change⟩
          · rw [same]
            exact .kept rfl
          · generalize ((Request.bucket request).perform state store).2 = after at change
            cases change with
            | batch ops allowed =>
                refine .kept ?_
                rw [applyTxnOps_metadata]
            | @writePolicy patch policy patched bytes admin found applied encoded =>
                by_cases named : auth.bucketId = bucket
                · subst named
                  exact .patched found applied (Store.lookupPolicy_writePolicy encoded store auth.bucketId)
                · refine .kept ?_
                  simp only [Store.writePolicy, Keyspace.get_insert, if_neg (other named)]
            | dropPolicy admin =>
                by_cases named : auth.bucketId = bucket
                · subst named
                  refine .removed ?_
                  simp only [Store.dropPolicy, Keyspace.get_remove, if_true]
                · refine .kept ?_
                  simp only [Store.dropPolicy, Keyspace.get_remove, if_neg (other named)]

/-- A property of new policies that every patch keeps holds of every policy a
run stores. -/
theorem storedPolicy_invariant {state : AppState} (good : BucketPolicy -> Prop)
    (created : forall form policy, newBucketPolicy state form = .ok policy -> good policy)
    (patched : forall patch policy result, good policy -> patchedPolicy state patch policy = .ok result -> good result)
    (events : List Event) {bucket : BucketId} {policy : BucketPolicy}
    (found : (storeAfter state events).lookupPolicy state.platform bucket = .ok (some policy)) : good policy := by
  induction events using List.reverseRecOn generalizing policy with
  | nil =>
      have empty : (storeAfter state []).lookupPolicy state.platform bucket = .ok none :=
        Store.lookupPolicy_of_missing (Keyspace.get_empty _)
      rw [empty] at found
      cases found
  | append_singleton earlier event ih =>
      have step := Event.policyStep (storeAfter_sound state earlier) event bucket
      rw [storeAfter_snoc] at found
      generalize event.perform state (storeAfter state earlier) = after at step found
      cases step with
      | kept same =>
          rw [Store.lookupPolicy_congr same] at found
          exact ih found
      | removed gone =>
          rw [Store.lookupPolicy_of_missing gone] at found
          cases found
      | created _ made stored =>
          rw [stored] at found
          cases found
          exact created _ _ made
      | patched before applied stored =>
          rw [stored] at found
          cases found
          exact patched _ _ _ (ih before) applied

/-! ## New buckets -/

section Creation

variable {state : AppState} {form : CreateBucketForm} {policy : BucketPolicy}

theorem noneIfEmpty_nonempty {given : Option String} {text : String} (kept : noneIfEmpty given = some text) :
    text ≠ "" := by
  rintro rfl
  rcases Option.bind_eq_some_iff.mp kept with ⟨value, _, passed⟩
  split at passed
  next => cases passed
  next nonempty =>
    cases passed
    exact nonempty rfl

/-- The key of a new bucket is hashed as a patch that names it would. -/
theorem hashOptional_eq_ok {given : Option String} {hash : Option Bytes} :
    hashOptional state (noneIfEmpty given) = .ok hash ↔ HashField state (some (noneIfEmpty given)) none hash := by
  cases kept : noneIfEmpty given with
  | none =>
      constructor
      · intro absent
        cases absent
        exact .cleared
      · intro cleared
        cases cleared
        rfl
  | some text =>
      rw [← applyNullableHash_eq_ok]
      simp only [hashOptional, applyNullableHash, if_neg (noneIfEmpty_nonempty kept)]

/-- What a form makes of a new bucket. -/
structure NewFields (state : AppState) (form : CreateBucketForm) (policy : BucketPolicy) : Prop where
  email : isMinimallyValidEmail form.email = true
  secretKey : HashField state (some (noneIfEmpty form.secretKey)) none policy.secretKeyHash
  readKey : HashField state (some (noneIfEmpty form.readKey)) none policy.readKeyHash
  writeKey : HashField state (some (noneIfEmpty form.writeKey)) none policy.writeKeyHash
  signingKey : policy.signingKey = (noneIfEmpty form.signingKey).map Bytes.utf8
  generation : policy.signingKeyGeneration = 0
  defaultTtl : policy.defaultTtlSecs = some (form.defaultTtl.getD defaultBucketTtlSecs)
  anonymous : policy.anonymousAccess = recomputeAnonymousAccess policy

/-- A key hash is present exactly when the field names a key. -/
theorem HashField.isSome_of_set {inner : Option String} {before after : Option Bytes}
    (named : HashField state (some inner) before after) : after.isSome = inner.isSome := by
  cases named with
  | cleared => rfl
  | set _ _ => rfl

/-- The flags of a new bucket are computed from the given keys, those of a
patched one from the stored hashes; they are the same. -/
theorem newBucketPolicy_eq_ok : newBucketPolicy state form = .ok policy ↔ NewFields state form policy := by
  unfold newBucketPolicy
  by_cases valid : isMinimallyValidEmail form.email = true
  · simp only [valid, Bool.not_true, Bool.false_eq_true, if_false, bind_eq_ok, hashOptional_eq_ok]
    constructor
    · rintro ⟨secretHash, secretKey, readHash, readKey, writeHash, writeKey, same⟩
      cases same
      refine ⟨valid, secretKey, readKey, writeKey, rfl, rfl, rfl, ?_⟩
      simp only [recomputeAnonymousAccess, PolicyKeysPresence.of, secretKey.isSome_of_set, readKey.isSome_of_set,
        writeKey.isSome_of_set]
    · intro fields
      refine ⟨_, fields.secretKey, _, fields.readKey, _, fields.writeKey, ?_⟩
      have signingKey := fields.signingKey
      have generation := fields.generation
      have defaultTtl := fields.defaultTtl
      have anonymous := fields.anonymous
      simp only [recomputeAnonymousAccess, PolicyKeysPresence.of, fields.secretKey.isSome_of_set,
        fields.readKey.isSome_of_set, fields.writeKey.isSome_of_set] at anonymous
      cases policy
      simp only at signingKey generation defaultTtl anonymous
      rw [anonymous, generation, defaultTtl, signingKey]
      rfl
  · simp only [eq_false_of_ne_true valid, Bool.not_false, if_true]
    constructor
    · intro impossible
      cases impossible
    · intro fields
      exact absurd fields.email valid

end Creation

/-! ## Anonymous access -/

/-- Every stored policy has the anonymous permissions that its key hashes call
for. -/
theorem storedPolicy_anonymous (state : AppState) (events : List Event) {bucket : BucketId} {policy : BucketPolicy}
    (found : (storeAfter state events).lookupPolicy state.platform bucket = .ok (some policy)) :
    policy.anonymousAccess = recomputeAnonymousAccess policy := by
  refine storedPolicy_invariant (fun policy => policy.anonymousAccess = recomputeAnonymousAccess policy) ?_ ?_ events
    found
  · intro form created made
    exact (newBucketPolicy_eq_ok.mp made).anonymous
  · intro patch before result _ applied
    exact (patchedPolicy_eq_ok.mp applied).anonymous

/-- The anonymous permissions that a public view of a policy shows. -/
def advertisedAccess : Json -> Option Permission
  | .obj members => (members.lookup "anonymous_access").bind permissionFromJson
  | _ => none

theorem advertisedAccess_publicPolicyView (policy : BucketPolicy) :
    advertisedAccess (publicPolicyView policy) = some policy.anonymousAccess := by
  unfold publicPolicyView
  cases policy.defaultTtlSecs <;> rfl

/-- The outcome of a check that a flag decides: a request that may not pass is
asked for a credential. -/
def passesIf (flag : Bool) : Except Response Unit :=
  if flag then .ok () else .error unauthorized

section Guards

variable {policy : BucketPolicy} (bucket : BucketId) (key : Key)

theorem requireEnumerate_anonymous (agree : policy.anonymousAccess = recomputeAnonymousAccess policy) :
    (BucketAuth.ofPolicy bucket policy .anonymous).requireEnumerate = passesIf policy.anonymousAccess.enumerate := by
  simp only [agree, BucketAuth.requireEnumerate, BucketAuth.ofPolicy, PolicyKeysPresence.of, recomputeAnonymousAccess,
    Permission.anonymousFromKeys, passesIf]
  cases policy.readKeyHash.isSome <;> rfl

theorem requireReadOn_anonymous (agree : policy.anonymousAccess = recomputeAnonymousAccess policy) :
    (BucketAuth.ofPolicy bucket policy .anonymous).requireReadOn key = passesIf policy.anonymousAccess.read := by
  simp only [agree, BucketAuth.requireReadOn, BucketAuth.ofPolicy, PolicyKeysPresence.of, recomputeAnonymousAccess,
    Permission.anonymousFromKeys, passesIf]
  cases policy.readKeyHash.isSome <;> rfl

/-- The last branch, which answers 403, is never reached: without a write key
the stored flag is set. -/
theorem requireWriteOn_anonymous (agree : policy.anonymousAccess = recomputeAnonymousAccess policy) :
    (BucketAuth.ofPolicy bucket policy .anonymous).requireWriteOn key = passesIf policy.anonymousAccess.write := by
  simp only [BucketAuth.requireWriteOn, BucketAuth.ofPolicy, PolicyKeysPresence.of, agree, recomputeAnonymousAccess,
    Permission.anonymousFromKeys, passesIf]
  cases policy.writeKeyHash.isSome <;> rfl

theorem requireDeleteOn_anonymous (agree : policy.anonymousAccess = recomputeAnonymousAccess policy) :
    (BucketAuth.ofPolicy bucket policy .anonymous).requireDeleteOn key = passesIf policy.anonymousAccess.delete := by
  simp only [BucketAuth.requireDeleteOn, BucketAuth.anyPolicyKeyPresent, BucketAuth.ofPolicy, PolicyKeysPresence.of,
    agree, recomputeAnonymousAccess, Permission.anonymousFromKeys, passesIf]
  cases policy.secretKeyHash.isSome <;> cases policy.readKeyHash.isSome <;> cases policy.writeKeyHash.isSome <;> rfl

end Guards

/-- Anonymous access is enforced as advertised.  Every policy that a run
stores shows the permissions that its keys call for, and a request without a
credential passes a check exactly when the flag is shown; it is asked for a
credential otherwise. -/
theorem anonymous_access_enforced (state : AppState) (events : List Event) (bucket : BucketId) (policy : BucketPolicy)
    (found : (storeAfter state events).lookupPolicy state.platform bucket = .ok (some policy)) :
    policy.anonymousAccess =
      Permission.anonymousFromKeys policy.secretKeyHash.isSome policy.readKeyHash.isSome policy.writeKeyHash.isSome ∧
    Exists fun shown => advertisedAccess (publicPolicyView policy) = some shown ∧
      forall request : BucketRequest, request.bucketId = bucket -> request.credential = none ->
        Exists fun auth => request.authenticated state (storeAfter state events) = .ok auth ∧
          auth.requireEnumerate = passesIf shown.enumerate ∧
          forall key, auth.requireReadOn key = passesIf shown.read ∧ auth.requireWriteOn key = passesIf shown.write ∧
            auth.requireDeleteOn key = passesIf shown.delete := by
  have agree := storedPolicy_anonymous state events found
  refine ⟨agree, policy.anonymousAccess, advertisedAccess_publicPolicyView policy, ?_⟩
  rintro request rfl without
  refine ⟨BucketAuth.ofPolicy request.bucketId policy .anonymous, ?_, ?_, ?_⟩
  · have absent : (extract request.parts.authorization request.parts.query).map RawCredential.asStr = none := without
    simp only [BucketRequest.authenticated, found, BucketAuth.authenticate, absent, resolve]
  · exact requireEnumerate_anonymous request.bucketId agree
  · intro key
    exact ⟨requireReadOn_anonymous request.bucketId key agree, requireWriteOn_anonymous request.bucketId key agree,
      requireDeleteOn_anonymous request.bucketId key agree⟩

namespace KeyedBucket

open Rotation

/-- A request to the bucket. -/
def request (authorization : Option Bytes) (route : Route) : BucketRequest where
  bucket := bucket
  query := none
  authorization := authorization
  clock := fun _ => OffsetDateTime.unixEpoch
  route := route

/-- A bucket with a secret key is created and its time to live changed. -/
def history : List Event :=
  [.request (.createBucket id (.ok ⟨"a@b.c", some "s3cret", none, none, some "old", none⟩)),
    .request (.bucket (request (some (Bytes.utf8 "Bearer s3cret")) (.updatePolicy (.ok ttlBody))))]

def removal : BucketRequest := request none (.deleteKey ⟨"a", by decide, by decide⟩)

end KeyedBucket

open Rotation KeyedBucket in
/-- Without a credential a bucket with a secret key may be read and written,
but nothing may be deleted. -/
theorem keyed_bucket_anonymous_access :
    Exists fun auth => removal.authenticated state (storeAfter state history) = .ok auth ∧
      auth.requireWriteOn ⟨[0x61], by decide⟩ = .ok () ∧
      auth.requireDeleteOn ⟨[0x61], by decide⟩ = .error unauthorized := by
  rcases (anonymous_access_enforced state history ⟨bucket.text⟩ (policy "old" 0 60) (by decide +kernel)).2 with
    ⟨shown, displayed, enforced⟩
  rcases enforced removal rfl rfl with ⟨auth, accepted, _, checks⟩
  rw [advertisedAccess_publicPolicyView] at displayed
  cases displayed
  exact ⟨auth, accepted, (checks _).2.1, (checks _).2.2⟩

end Keydock
