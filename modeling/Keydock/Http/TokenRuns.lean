import Keydock.Http.Authorization
import Keydock.Http.PolicyRuns

/-!
# Tokens over whole runs

A token is accepted for a bucket exactly as long as it was issued for that
bucket, the signing key of the bucket has not changed since, and its lifetime
has not ended.  The generation of a signing key counts its changes since the
bucket was created, so a key that was replaced and put back does not revive
the tokens of its first period.
-/

namespace Keydock

open Effect Handler

/-! ## Issued tokens -/

/-- What a token request under a policy is answered with. -/
def tokenFor (state : AppState) (clock : Clock) (bucket : BucketId) (form : CreateTokenForm)
    (policy : BucketPolicy) : Except Response String :=
  match policy.signingKey with
  | none => .error serviceUnavailable
  | some signingKey =>
      match requestedClaims (clock 1) bucket policy form with
      | .error response => .error response
      | .ok claims => (mint state.platform claims signingKey).mapError (fun _ => serviceUnavailable)

/-- The answer to a token request whose form was read. -/
def tokenAnswer (state : AppState) (clock : Clock) (auth : BucketAuth) (form : CreateTokenForm) (store : Store) :
    Except Response Response :=
  match auth.requireAdmin with
  | .error response => .error response
  | .ok _ =>
      match store.lookupPolicy state.platform auth.bucketId with
      | .error error => .error (mapUseCaseRepoErr error)
      | .ok none => .error notFound
      | .ok (some policy) => (tokenFor state clock auth.bucketId form policy).map accessTokenResponse

theorem eval_createToken (state : AppState) (clock : Clock) (auth : BucketAuth) (form : CreateTokenForm)
    (store : Store) :
    eval state.platform (createToken state clock auth (.ok form)) store =
      (tokenAnswer state clock auth form store, store) := by
  simp only [createToken, eval_bind, eval_known, eval_orReject, eval_spawnGetPolicy]
  unfold tokenAnswer
  cases auth.requireAdmin with
  | error response => rfl
  | ok admin =>
      simp only
      cases store.lookupPolicy state.platform auth.bucketId with
      | error error => rfl
      | ok found =>
          cases found with
          | none => rfl
          | some policy =>
              simp only [Except.mapError, tokenFor]
              cases policy.signingKey with
              | none => rfl
              | some signingKey =>
                  simp only
                  cases requestedClaims (clock 1) auth.bucketId policy form with
                  | error response => rfl
                  | ok claims =>
                      simp only
                      cases mint state.platform claims signingKey <;> rfl

theorem parsePermissions_error {raw : String} {response : Response}
    (refused : parsePermissions raw = .error response) : response = badRequest := by
  have parts : forall (names : List (List Char)) (permission : Permission) (early : Response),
      parsePermissionParts permission names = .error early -> early = badRequest := by
    intro names
    induction names with
    | nil =>
        intro permission early failed
        cases failed
    | cons name rest ih =>
        intro permission early failed
        simp only [parsePermissionParts] at failed
        split at failed
        · exact ih _ _ failed
        · split at failed
          · cases failed
            rfl
          · exact ih _ _ failed
  unfold parsePermissions at refused
  split at refused
  next early failed =>
    cases refused
    exact parts _ _ _ failed
  next =>
    split at refused
    · cases refused
      rfl
    · cases refused

theorem requestedClaims_error {now : OffsetDateTime} {bucket : BucketId} {policy : BucketPolicy}
    {form : CreateTokenForm} {response : Response}
    (refused : requestedClaims now bucket policy form = .error response) : response = badRequest := by
  unfold requestedClaims at refused
  split at refused
  · cases refused
    rfl
  · split at refused
    · cases refused
      rfl
    · split at refused
      · cases refused
        rfl
      · split at refused
        next early failed =>
          cases refused
          exact parsePermissions_error failed
        next => cases refused

/-- The claims of a token are what its form asks for. -/
theorem requestedClaims_ok {now : OffsetDateTime} {bucket : BucketId} {policy : BucketPolicy}
    {form : CreateTokenForm} {claims : TemporaryTokenClaims}
    (made : requestedClaims now bucket policy form = .ok claims) :
    claims.bucket = bucket ∧ claims.bucketGeneration = policy.signingKeyGeneration ∧
      claims.allowedPrefix = Bytes.utf8 form.keyPrefix ∧ parsePermissions form.permissions = .ok claims.permissions ∧
      now.checkedAddSeconds form.ttl = some claims.exp := by
  unfold requestedClaims at made
  split at made
  · cases made
  · split at made
    · cases made
    · split at made
      next => cases made
      next exp added =>
        split at made
        next => cases made
        next permissions parsed =>
          cases made
          exact ⟨rfl, rfl, rfl, parsed, added⟩

theorem tokenFor_error {state : AppState} {clock : Clock} {bucket : BucketId} {form : CreateTokenForm}
    {policy : BucketPolicy} {response : Response} (refused : tokenFor state clock bucket form policy = .error response) :
    response.isSuccess = false := by
  unfold tokenFor at refused
  split at refused
  next =>
    cases refused
    rfl
  next signingKey _ =>
    split at refused
    next early failed =>
      cases refused
      rw [requestedClaims_error failed]
      rfl
    next claims _ =>
      cases minted : mint state.platform claims signingKey with
      | error error =>
          rw [minted] at refused
          cases refused
          rfl
      | ok token => rw [minted] at refused; cases refused

theorem tokenFor_ok {state : AppState} {clock : Clock} {bucket : BucketId} {form : CreateTokenForm}
    {policy : BucketPolicy} {raw : String} (made : tokenFor state clock bucket form policy = .ok raw) :
    Exists fun signingKey => Exists fun claims => policy.signingKey = some signingKey ∧
      requestedClaims (clock 1) bucket policy form = .ok claims ∧
      mint state.platform claims signingKey = .ok raw := by
  unfold tokenFor at made
  split at made
  next => cases made
  next signingKey configured =>
    split at made
    next => cases made
    next claims asked => exact ⟨signingKey, claims, configured, asked, eq_ok_of_mapError made⟩

theorem accessTokenResponse_injective {token raw : String} (same : accessTokenResponse token = accessTokenResponse raw) :
    token = raw := by
  injection same with _ _ body
  injection body with tree
  injection tree with members
  injection members with first _
  injection first with _ text
  injection text

/-- A token request that returns a token minted it under the signing key of the
stored policy. -/
theorem createToken_returned {state : AppState} {request : BucketRequest} {form : CreateTokenForm} {store : Store}
    {raw : String} (asked : request.route = .createToken (.ok form))
    (returned : ((Request.bucket request).perform state store).1 = accessTokenResponse raw) :
    Exists fun policy => Exists fun signingKey => Exists fun claims =>
      store.lookupPolicy state.platform request.bucketId = .ok (some policy) ∧
      policy.signingKey = some signingKey ∧
      requestedClaims (request.clock 1) request.bucketId policy form = .ok claims ∧
      mint state.platform claims signingKey = .ok raw := by
  have mismatch : forall {response : Response}, response.isSuccess = false -> response ≠ accessTokenResponse raw := by
    rintro _ failed rfl
    cases failed
  rw [Request.perform_eq, Request.handler, BucketRequest.eval_handler] at returned
  cases accepted : request.authenticated state store with
  | error response =>
      rw [accepted] at returned
      exact False.elim (mismatch (authenticated_error state request accepted) returned)
  | ok auth =>
      rcases request.authenticated_eq_ok accepted with ⟨policy, identity, found, _, rfl⟩
      simp only [accepted, asked, Route.serve, eval_createToken, tokenAnswer, BucketAuth.ofPolicy, found] at returned
      split at returned
      next response refused =>
        exact False.elim (mismatch (requireAdmin_error refused) returned)
      next =>
        cases made : tokenFor state request.clock request.bucketId form policy with
        | error response =>
            rw [made] at returned
            exact False.elim (mismatch (tokenFor_error made) returned)
        | ok token =>
            rw [made] at returned
            cases accessTokenResponse_injective returned
            rcases tokenFor_ok made with ⟨signingKey, claims, configured, claimed, minted⟩
            exact ⟨policy, signingKey, claims, found, configured, claimed, minted⟩

/-! ## Changes of signing keys -/

section Rotations

variable (state : AppState) (bucket : BucketId)

/-- The signing key of a stored bucket. -/
def storedSigningKey (store : Store) : Option (Option Bytes) :=
  match store.lookupPolicy state.platform bucket with
  | .ok (some policy) => some policy.signingKey
  | _ => none

/-- The signing key of the bucket changes from one store to the next: it is
set, replaced or cleared. -/
def rotates (before after : Store) : Bool :=
  match storedSigningKey state bucket before, storedSigningKey state bucket after with
  | some old, some new => decide (old ≠ new)
  | _, _ => false

/-- The number of changes of the signing key along a run. -/
def rotations : Store -> List Event -> Nat
  | _, [] => 0
  | store, event :: rest =>
      (rotates state bucket store (event.perform state store)).toNat + rotations (event.perform state store) rest

theorem rotations_append (store : Store) (first second : List Event) :
    rotations state bucket store (first ++ second) =
      rotations state bucket store first +
        rotations state bucket (first.foldl (Event.perform state) store) second := by
  induction first generalizing store with
  | nil => exact (Nat.zero_add _).symm
  | cons event rest ih => simp only [List.cons_append, rotations, List.foldl_cons, ih, Nat.add_assoc]

end Rotations

/-- The identifiers drawn in a run. -/
def drawn (events : List Event) : List BucketId :=
  events.filterMap (fun event =>
    match event with
    | .request (.createBucket fresh _) => some fresh.bucketId
    | _ => none)

/-- What an event may do to the record of a bucket. -/
inductive RecordStep (state : AppState) (bucket : BucketId) (store : Store) : Event -> Store -> Prop
  | kept {event : Event} {after : Store}
      (same : after.metadata[Bytes.utf8 bucket.asStr]? = store.metadata[Bytes.utf8 bucket.asStr]?) :
      RecordStep state bucket store event after
  | removed {event : Event} {after : Store} (gone : after.metadata[Bytes.utf8 bucket.asStr]? = none) :
      RecordStep state bucket store event after
  | created {fresh : Uuid} {form : Except Response CreateBucketForm} {policy : BucketPolicy} {after : Store}
      (named : fresh.bucketId = bucket) (first : policy.signingKeyGeneration = 0)
      (found : after.lookupPolicy state.platform bucket = .ok (some policy)) :
      RecordStep state bucket store (.request (.createBucket fresh form)) after
  | patched {event : Event} {patch : UpdatePolicyJson} {policy result : BucketPolicy} {after : Store}
      (before : store.lookupPolicy state.platform bucket = .ok (some policy))
      (changed : Patched state patch policy result)
      (found : after.lookupPolicy state.platform bucket = .ok (some result)) :
      RecordStep state bucket store event after

/-- Every event of a run makes one of these steps: a new bucket starts with
generation zero, and a patch moves the generation with the signing key. -/
theorem Event.recordStep {state : AppState} {store : Store} (sound : Sound state.platform store) (event : Event)
    (bucket : BucketId) : RecordStep state bucket store event (event.perform state store) := by
  have step := event.policyStep sound bucket
  generalize event.perform state store = after at step
  cases step with
  | kept same => exact .kept same
  | removed gone => exact .removed gone
  | created named made found => exact .created named (newBucketPolicy_eq_ok.mp made).generation found
  | @patched _ patch policy _ _ before applied found =>
      have yields := patchedPolicy_yields state patch policy
      rw [applied] at yields
      exact .patched before yields found

/-! ## Generations count changes -/

/-- A bucket that was not drawn has no record and no history, and the
generation of a stored one is the number of its key changes. -/
structure Tracked (state : AppState) (events : List Event) (bucket : BucketId) : Prop where
  undrawn : bucket ∉ drawn events ->
    (storeAfter state events).metadata[Bytes.utf8 bucket.asStr]? = none ∧
      rotations state bucket Store.empty events = 0
  counted : forall policy, (storeAfter state events).lookupPolicy state.platform bucket = .ok (some policy) ->
    policy.signingKeyGeneration = UInt64.ofNat (rotations state bucket Store.empty events)

section Tracking

variable {state : AppState} {bucket : BucketId} {store after : Store}

theorem rotates_of_missing (missing : store.lookupPolicy state.platform bucket = .ok none ∨
    after.lookupPolicy state.platform bucket = .ok none) : rotates state bucket store after = false := by
  rcases missing with nothing | nothing
  · simp only [rotates, storedSigningKey, nothing]
  · simp only [rotates, storedSigningKey, nothing]
    cases store.lookupPolicy state.platform bucket with
    | error error => rfl
    | ok found => cases found <;> rfl

theorem rotates_of_found {old new : BucketPolicy}
    (before : store.lookupPolicy state.platform bucket = .ok (some old))
    (found : after.lookupPolicy state.platform bucket = .ok (some new)) :
    rotates state bucket store after = decide (old.signingKey ≠ new.signingKey) := by
  simp only [rotates, storedSigningKey, before, found]

theorem rotates_of_same (same : after.lookupPolicy state.platform bucket = store.lookupPolicy state.platform bucket) :
    rotates state bucket store after = false := by
  simp only [rotates, storedSigningKey, same]
  split
  next old new first second =>
    rw [first] at second
    cases second
    simp
  next => rfl

end Tracking

theorem drawn_append (first second : List Event) : drawn (first ++ second) = drawn first ++ drawn second :=
  List.filterMap_append

theorem rotations_snoc (state : AppState) (bucket : BucketId) (events : List Event) (event : Event) :
    rotations state bucket Store.empty (events ++ [event]) =
      rotations state bucket Store.empty events +
        (rotates state bucket (storeAfter state events) (event.perform state (storeAfter state events))).toNat := by
  rw [rotations_append]
  rfl

theorem Tracked.step {state : AppState} {events : List Event} {event : Event} {bucket : BucketId}
    (earlier : Tracked state events bucket) (fresh : (drawn (events ++ [event])).Nodup) :
    Tracked state (events ++ [event]) bucket := by
  have recordStep := Event.recordStep (storeAfter_sound state events) event bucket
  have counts := rotations_snoc state bucket events event
  have reached := storeAfter_snoc state events event
  rw [drawn_append] at fresh
  have before : bucket ∉ drawn (events ++ [event]) -> bucket ∉ drawn events := by
    intro absent inside
    rw [drawn_append] at absent
    exact absent (List.mem_append_left _ inside)
  generalize event.perform state (storeAfter state events) = after at recordStep counts reached
  cases recordStep with
  | kept same =>
      have lookup : after.lookupPolicy state.platform bucket =
          (storeAfter state events).lookupPolicy state.platform bucket := Store.lookupPolicy_congr same
      rw [rotates_of_same lookup] at counts
      refine ⟨fun absent => ?_, fun policy found => ?_⟩
      · rw [reached, same, counts]
        exact earlier.undrawn (before absent)
      · rw [reached, lookup] at found
        rw [counts]
        exact earlier.counted policy found
  | removed gone =>
      have nothing : after.lookupPolicy state.platform bucket = .ok none := Store.lookupPolicy_of_missing gone
      rw [rotates_of_missing (.inr nothing)] at counts
      refine ⟨fun absent => ?_, fun policy found => ?_⟩
      · rw [reached, counts]
        exact ⟨gone, (earlier.undrawn (before absent)).2⟩
      · rw [reached, nothing] at found
        cases found
  | @created id form policy _ named first found =>
      have draws : drawn [Event.request (.createBucket id form)] = [bucket] := congrArg (fun name => [name]) named
      rw [draws] at fresh
      have new : bucket ∉ drawn events := by
        intro inside
        exact (List.nodup_append.mp fresh).2.2 bucket inside bucket List.mem_cons_self rfl
      rcases earlier.undrawn new with ⟨missing, none⟩
      rw [rotates_of_missing (.inl (Store.lookupPolicy_of_missing missing)), none] at counts
      refine ⟨fun absent => ?_, fun policy stored => ?_⟩
      · rw [drawn_append, draws] at absent
        exact False.elim (absent (List.mem_append_right _ List.mem_cons_self))
      · rw [reached, found] at stored
        cases stored
        rw [counts, first]
        rfl
  | patched was changed found =>
      rw [rotates_of_found was found] at counts
      refine ⟨fun absent => ?_, fun policy stored => ?_⟩
      · have missing := (earlier.undrawn (before absent)).1
        rw [Store.lookupPolicy_of_missing missing] at was
        cases was
      · rw [reached, found] at stored
        cases stored
        rw [counts, changed.generation, earlier.counted _ was]
        split
        next moved => simp [moved]
        next still => simp [still]

/-- Along every run with fresh identifiers. -/
theorem tracked (state : AppState) (events : List Event) (fresh : (drawn events).Nodup) (bucket : BucketId) :
    Tracked state events bucket := by
  induction events using List.reverseRecOn with
  | nil =>
      refine ⟨fun _ => ⟨?_, rfl⟩, fun policy found => ?_⟩
      · simp [storeAfter, Store.empty]
      · have missing : (storeAfter state []).metadata[Bytes.utf8 bucket.asStr]? = none := by
          simp [storeAfter, Store.empty]
        rw [Store.lookupPolicy_of_missing missing] at found
        cases found
  | append_singleton events event ih =>
      have earlier : (drawn events).Nodup := by
        rw [drawn_append] at fresh
        exact (List.nodup_append.mp fresh).1
      exact (ih earlier).step fresh

/-- A stored bucket that was stored before as well, without a key change in
between, still has its signing key. -/
theorem signingKey_kept {state : AppState} {before after : List Event} (fresh : (drawn (before ++ after)).Nodup)
    {bucket : BucketId} {old policy : BucketPolicy}
    (was : (storeAfter state before).lookupPolicy state.platform bucket = .ok (some old))
    (found : (storeAfter state (before ++ after)).lookupPolicy state.platform bucket = .ok (some policy))
    (still : rotations state bucket (storeAfter state before) after = 0) : policy.signingKey = old.signingKey := by
  have born : bucket ∈ drawn before := by
    by_contra absent
    rw [drawn_append] at fresh
    have missing := ((tracked state before (List.nodup_append.mp fresh).1 bucket).undrawn absent).1
    rw [Store.lookupPolicy_of_missing missing] at was
    cases was
  induction after using List.reverseRecOn generalizing policy with
  | nil =>
      rw [List.append_nil, was] at found
      cases found
      rfl
  | append_singleton after event ih =>
      have recordStep := Event.recordStep (storeAfter_sound state (before ++ after)) event bucket
      rw [← List.append_assoc] at fresh found
      rw [storeAfter_snoc] at found
      rw [rotations_append, ← storeAfter_append] at still
      have split : rotations state bucket (storeAfter state before) after = 0 ∧
          (rotates state bucket (storeAfter state (before ++ after))
            (event.perform state (storeAfter state (before ++ after)))).toNat = 0 :=
        Nat.add_eq_zero_iff.mp still
      have earlier : (drawn (before ++ after)).Nodup := by
        rw [drawn_append] at fresh
        exact (List.nodup_append.mp fresh).1
      generalize event.perform state (storeAfter state (before ++ after)) = last at recordStep found split
      cases recordStep with
      | kept same =>
          rw [Store.lookupPolicy_congr same] at found
          exact ih earlier found split.1
      | removed gone =>
          rw [Store.lookupPolicy_of_missing gone] at found
          cases found
      | @created id form _ _ named _ _ =>
          have draws : drawn [Event.request (.createBucket id form)] = [bucket] := congrArg (fun name => [name]) named
          rw [drawn_append, draws, drawn_append] at fresh
          exact False.elim ((List.nodup_append.mp fresh).2.2 bucket (List.mem_append_left _ born) bucket
            List.mem_cons_self rfl)
      | @patched _ patch middle result _ stored changed now =>
          rw [now] at found
          cases found
          have same : middle.signingKey = policy.signingKey := by
            have unmoved := split.2
            rw [rotates_of_found stored now] at unmoved
            simpa using unmoved
          exact same.symm.trans (ih earlier stored split.1)

/-! ## Acceptance -/

/-- A token request of a run that returned the token. -/
structure Issued (state : AppState) (events : List Event) (bucket : BucketId) (raw : String) where
  earlier : List Event
  request : BucketRequest
  form : CreateTokenForm
  later : List Event
  position : events = earlier ++ .request (.bucket request) :: later
  addressed : request.bucketId = bucket
  asked : request.route = .createToken (.ok form)
  returned : ((Request.bucket request).perform state (storeAfter state earlier)).1 = accessTokenResponse raw

namespace Issued

variable {state : AppState} {events : List Event} {bucket : BucketId} {raw : String}

/-- The signing key of the bucket has not changed since the token was issued. -/
def KeyUnchanged (issued : Issued state events bucket raw) : Prop :=
  rotations state bucket (storeAfter state (issued.earlier ++ [.request (.bucket issued.request)])) issued.later = 0

/-- The lifetime the request asked for has not ended. -/
def Unexpired (issued : Issued state events bucket raw) (now : OffsetDateTime) : Prop :=
  Exists fun exp => (issued.request.clock 1).checkedAddSeconds issued.form.ttl = some exp ∧ now < exp

/-- The request asked for this prefix and these permissions. -/
def Grants (issued : Issued state events bucket raw) (permissions : Permission) (keyPrefix : Bytes) : Prop :=
  parsePermissions issued.form.permissions = .ok permissions ∧ keyPrefix = Bytes.utf8 issued.form.keyPrefix

end Issued

/-- The string is a token with a valid MAC under the key. -/
def CarriesMac (platform : Platform) (key : Bytes) (raw : String) : Prop :=
  Exists fun json => Exists fun sig => raw = tokenText json sig ∧ platform.hmacSha256 key json = some sig

/-- A token request of the run, for whatever bucket, minted the string under
the key. -/
def MintedUnder (state : AppState) (events : List Event) (key : Bytes) (raw : String) : Prop :=
  Exists fun bucket => Exists fun issued : Issued state events bucket raw => Exists fun policy =>
    (storeAfter state issued.earlier).lookupPolicy state.platform bucket = .ok (some policy) ∧
      policy.signingKey = some key

theorem createToken_store {state : AppState} {request : BucketRequest} {form : CreateTokenForm}
    (asked : request.route = .createToken (.ok form)) (store : Store) :
    ((Request.bucket request).perform state store).2 = store := by
  rw [Request.perform_eq, Request.handler, BucketRequest.eval_handler]
  cases request.authenticated state store with
  | error response => rfl
  | ok auth => simp only [asked, Route.serve, eval_createToken]

section Acceptance

variable {state : AppState} {events : List Event} {bucket : BucketId} {raw : String}

/-- What stands behind an issued token. -/
theorem Issued.minted (issued : Issued state events bucket raw) :
    Exists fun policy => Exists fun signingKey => Exists fun claims => Exists fun json => Exists fun sig =>
      (storeAfter state issued.earlier).lookupPolicy state.platform bucket = .ok (some policy) ∧
      policy.signingKey = some signingKey ∧
      requestedClaims (issued.request.clock 1) bucket policy issued.form = .ok claims ∧
      (state.platform.json.fromSlice json).bind (claimsFromJson state.platform) = some claims ∧
      state.platform.hmacSha256 signingKey json = some sig ∧ raw = tokenText json sig := by
  rcases createToken_returned issued.asked issued.returned with
    ⟨policy, signingKey, claims, found, configured, claimed, minted⟩
  rw [issued.addressed] at found claimed
  rcases mint_eq_ok_iff.mp minted with ⟨json, sig, written, hashed, same⟩
  exact ⟨policy, signingKey, claims, json, sig, found, configured, claimed, read_of_written written, hashed, same⟩

/-- The claims that a verified token carries are those of every request that
returned it. -/
theorem Issued.claims_of_verify (issued : Issued state events bucket raw) {policy : BucketPolicy} {target : BucketId}
    {now : OffsetDateTime} {claims : TemporaryTokenClaims}
    (verified : verify state.platform raw policy target now = .ok claims) :
    Exists fun old => (storeAfter state issued.earlier).lookupPolicy state.platform bucket = .ok (some old) ∧
      requestedClaims (issued.request.clock 1) bucket old issued.form = .ok claims := by
  rcases issued.minted with ⟨old, _, carried, json, sig, found, _, claimed, read, _, rfl⟩
  rcases verify_eq_ok_iff.mp verified with ⟨_, otherJson, otherSig, _, same, _, otherRead, _⟩
  rcases tokenText_injective same with ⟨rfl, rfl⟩
  rw [read] at otherRead
  cases otherRead
  exact ⟨old, found, claimed⟩

/-- The key changes of a run, split at the token request. -/
theorem Issued.rotations_eq (issued : Issued state events bucket raw) :
    rotations state bucket Store.empty events =
      rotations state bucket Store.empty issued.earlier +
        rotations state bucket (storeAfter state issued.earlier)
          (.request (.bucket issued.request) :: issued.later) := by
  refine (congrArg (rotations state bucket Store.empty) issued.position).trans ?_
  exact rotations_append state bucket Store.empty issued.earlier _

theorem Issued.keyUnchanged_iff (issued : Issued state events bucket raw) :
    issued.KeyUnchanged ↔ rotations state bucket (storeAfter state issued.earlier)
      (.request (.bucket issued.request) :: issued.later) = 0 := by
  have same : (Event.request (.bucket issued.request)).perform state (storeAfter state issued.earlier) =
      storeAfter state issued.earlier := createToken_store issued.asked _
  rw [Issued.KeyUnchanged, storeAfter_snoc, rotations, same, rotates_of_same rfl]
  simp

theorem ofNat_eq_iff {first second : Nat} (boundedFirst : first < 2 ^ 64) (boundedSecond : second < 2 ^ 64) :
    UInt64.ofNat first = UInt64.ofNat second ↔ first = second := by
  constructor
  · intro same
    have values := congrArg UInt64.toNat same
    rwa [UInt64.toNat_ofNat_of_lt' boundedFirst, UInt64.toNat_ofNat_of_lt' boundedSecond] at values
  · rintro rfl
    rfl

/-- The generation at the time of issue is the current one exactly when the
signing key has not changed since. -/
theorem Issued.generation_iff (issued : Issued state events bucket raw) (fresh : (drawn events).Nodup)
    (bounded : rotations state bucket Store.empty events < 2 ^ 64) {old policy : BucketPolicy}
    (was : (storeAfter state issued.earlier).lookupPolicy state.platform bucket = .ok (some old))
    (found : (storeAfter state events).lookupPolicy state.platform bucket = .ok (some policy)) :
    old.signingKeyGeneration = policy.signingKeyGeneration ↔ issued.KeyUnchanged := by
  have earlier : (drawn issued.earlier).Nodup := by
    have whole := fresh
    rw [issued.position, drawn_append] at whole
    exact (List.nodup_append.mp whole).1
  have split := issued.rotations_eq
  rw [(tracked state issued.earlier earlier bucket).counted old was, (tracked state events fresh bucket).counted policy found,
    issued.keyUnchanged_iff, ofNat_eq_iff (by omega) bounded]
  omega

/-- Tokens are sound, complete and revoked by rotation.  In every run with
fresh bucket identifiers, for a string that carries a MAC under the current
signing key only if it was minted under that key. -/
theorem tokens_valid_iff (state : AppState) (events : List Event) (fresh : (drawn events).Nodup) (bucket : BucketId)
    (bounded : rotations state bucket Store.empty events < 2 ^ 64) (policy : BucketPolicy)
    (found : (storeAfter state events).lookupPolicy state.platform bucket = .ok (some policy)) (now : OffsetDateTime)
    (raw : String)
    (unforged : forall key, policy.signingKey = some key -> CarriesMac state.platform key raw ->
      MintedUnder state events key raw) :
    ((Exists fun claims => verify state.platform raw policy bucket now = .ok claims) ↔
      Exists fun issued : Issued state events bucket raw => issued.KeyUnchanged ∧ issued.Unexpired now) ∧
    forall claims, verify state.platform raw policy bucket now = .ok claims ->
      (forall issued : Issued state events bucket raw, issued.Grants claims.permissions claims.allowedPrefix) ∧
      (matchesKey state.platform raw state.rootKey policy.secretKeyHash = false ->
        matchesKey state.platform raw state.rootKey policy.writeKeyHash = false ->
        matchesKey state.platform raw state.rootKey policy.readKeyHash = false ->
        resolve state.platform (some raw) policy bucket state.rootKey now =
          .ok (.scoped claims.permissions claims.allowedPrefix)) := by
  refine ⟨⟨?_, ?_⟩, ?_⟩
  · rintro ⟨claims, verified⟩
    rcases verify_eq_ok_iff.mp verified with
      ⟨key, json, sig, configured, carried, hashed, _, valid, sameBucket, sameGeneration⟩
    rcases unforged key configured ⟨json, sig, carried, hashed⟩ with ⟨origin, issued, _⟩
    rcases issued.claims_of_verify verified with ⟨old, was, claimed⟩
    rcases requestedClaims_ok claimed with ⟨named, generation, _, _, expiry⟩
    have same : origin = bucket := named.symm.trans sameBucket
    subst same
    refine ⟨issued, (issued.generation_iff fresh bounded was found).mp ?_, claims.exp, expiry, valid⟩
    exact generation.symm.trans sameGeneration
  · rintro ⟨issued, unchanged, exp, expiry, valid⟩
    rcases issued.minted with ⟨old, key, claims, json, sig, was, configured, claimed, read, hashed, carried⟩
    rcases requestedClaims_ok claimed with ⟨named, generation, _, _, claimedExpiry⟩
    rw [expiry] at claimedExpiry
    cases claimedExpiry
    have kept : policy.signingKey = old.signingKey := by
      have drawnOnce := fresh
      have stored := found
      rw [issued.position] at drawnOnce stored
      exact signingKey_kept drawnOnce was stored (issued.keyUnchanged_iff.mp unchanged)
    refine ⟨claims, verify_eq_ok_iff.mpr ⟨key, json, sig, kept.trans configured, carried, hashed, read, valid, named, ?_⟩⟩
    exact generation.trans ((issued.generation_iff fresh bounded was found).mpr unchanged)
  · intro claims verified
    refine ⟨fun issued => ?_, fun notSecret notWrite notRead => ?_⟩
    · rcases issued.claims_of_verify verified with ⟨old, _, claimed⟩
      rcases requestedClaims_ok claimed with ⟨_, _, keyPrefix, permissions, _⟩
      exact ⟨permissions, keyPrefix⟩
    · simp only [resolve, notSecret, notWrite, notRead, verified, Bool.false_eq_true, if_false]

end Acceptance

namespace FreshToken

open Rotation (rootKey secretHash id bucket)

def issuedAt : OffsetDateTime := OffsetDateTime.unixEpoch

/-- One minute later. -/
def expiresAt : OffsetDateTime := ⟨60000000000, by decide, by decide⟩

def claimsTree : Json :=
  .obj [("version", .posInt 1), ("bucket", .str id.bucketId.asStr), ("bucket_generation", .posInt 0),
    ("allowed_prefix", .arr [.posInt 97]), ("permissions", permissionToJson ⟨true, false, false, false⟩),
    ("iat", .str "1970-01-01T00:00:00Z"), ("exp", .str "1970-01-01T00:01:00Z")]

def claimsText : Bytes :=
  Bytes.utf8 ("\x7b\"version\":1,\"bucket\":\"0b7e4ac2-6f0e-4a53-9d6b-1f2f0c3f9a11\",\"bucket_generation\":0," ++
    "\"allowed_prefix\":[97],\"permissions\":\x7b\"read\":true,\"write\":false,\"enumerate\":false," ++
    "\"delete\":false\x7d,\"iat\":\"1970-01-01T00:00:00Z\",\"exp\":\"1970-01-01T00:01:00Z\"\x7d")

/-- The MAC of the claims under the signing key `old`. -/
def signature : Bytes :=
  [0, 29, 129, 104, 63, 15, 48, 164, 247, 47, 67, 215, 134, 77, 71, 246,
    211, 199, 68, 17, 223, 226, 29, 10, 225, 238, 88, 227, 146, 168, 73, 58]

def token : String := tokenText claimsText signature

def state : AppState where
  platform := Platform.ofTables
    [(storedPolicyToJson (Rotation.policy "old" 0 604800), Rotation.record "[111,108,100]" "0" "604800"),
      (claimsTree, claimsText)] (by decide +kernel)
    [((rootKey, Bytes.utf8 "s3cret"), secretHash), ((Bytes.utf8 "old", claimsText), signature)]
    [(issuedAt, "1970-01-01T00:00:00Z"), (expiresAt, "1970-01-01T00:01:00Z")] (by decide)
  rootKey := rootKey

def creation : Event :=
  .request (.createBucket id (.ok ⟨"a@b.c", some "s3cret", none, none, some "old", none⟩))

def form : CreateTokenForm := ⟨"a", "read", 60⟩

/-- A request for a token with the secret key. -/
def request : BucketRequest where
  bucket := bucket
  query := none
  authorization := some (Bytes.utf8 "Bearer s3cret")
  clock := fun _ => issuedAt
  route := .createToken (.ok form)

def events : List Event := [creation, .request (.bucket request)]

def issued : Issued state events id.bucketId token where
  earlier := [creation]
  request := request
  form := form
  later := []
  position := rfl
  addressed := by decide +kernel
  asked := rfl
  returned := by decide +kernel

end FreshToken

open FreshToken in
/-- A token is accepted right after it was issued. -/
theorem fresh_token_valid :
    ((Exists fun claims =>
        verify state.platform token (Rotation.policy "old" 0 604800) Rotation.id.bucketId issuedAt = .ok claims) ↔
      Exists fun issued : Issued state events Rotation.id.bucketId token =>
        issued.KeyUnchanged ∧ issued.Unexpired issuedAt) ∧
    Exists fun claims =>
      verify state.platform token (Rotation.policy "old" 0 604800) Rotation.id.bucketId issuedAt = .ok claims := by
  have stored : (storeAfter state [creation]).lookupPolicy state.platform Rotation.id.bucketId =
      .ok (some (Rotation.policy "old" 0 604800)) := by
    decide +kernel
  have kept : storeAfter state events = storeAfter state [creation] :=
    (storeAfter_snoc state [creation] (.request (.bucket request))).trans (createToken_store rfl _)
  have still : (storeAfter state events).lookupPolicy state.platform Rotation.id.bucketId =
      .ok (some (Rotation.policy "old" 0 604800)) := by
    rw [kept]
    exact stored
  have valid := tokens_valid_iff state events (by decide +kernel) Rotation.id.bucketId (by decide +kernel)
    (Rotation.policy "old" 0 604800) still issuedAt token (fun key configured _ =>
      ⟨_, issued, _, stored, configured⟩)
  refine ⟨valid.1, valid.1.mpr ⟨issued, rfl, expiresAt, by decide +kernel, by decide⟩⟩

end Keydock
