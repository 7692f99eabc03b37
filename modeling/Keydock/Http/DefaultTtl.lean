import Keydock.Http.ConfiguredKeys
import Keydock.Http.Sweeping
import Keydock.Http.TimeToLive

/-!
# Default times to live

A bucket is given a default time to live when it is created or patched, as any
unsigned number of 64 bits.  Whether that many seconds can be added to the
clock is checked by each write.  A default that is too long is therefore
accepted, and from then on every write that names no time to live of its own
is refused.
-/

namespace Keydock

open Effect Handler

/-! ## When a default can be resolved -/

/-- The seconds from an instant lead to an instant that there is. -/
def Reaches (now : OffsetDateTime) (seconds : UInt64) : Prop :=
  now.nanos + seconds.toNat * nanosPerSecond < (maxUnixTimestamp + 1) * nanosPerSecond

theorem checkedAddSeconds_isSome (now : OffsetDateTime) {seconds : UInt64} (bounded : seconds.toNat < 2 ^ 63) :
    (now.checkedAddSeconds seconds.toInt64).isSome = true ↔ Reaches now seconds := by
  have lower := now.lower
  unfold OffsetDateTime.checkedAddSeconds OffsetDateTime.ofNanos Reaches
  rw [toInt_toInt64 bounded]
  constructor
  · intro made
    split at made
    next inRange => exact inRange.2
    next => cases made
  · intro upper
    unfold nanosPerSecond at *
    rw [dif_pos ⟨by omega, upper⟩]
    rfl

/-- A default time to live resolves when it is none or zero, or ends at an
instant that there is. -/
theorem resolveTtl_default_ok_iff (now : OffsetDateTime) (defaultTtl : Option UInt64) :
    (Exists fun expiresAt => KeyService.resolveTtl now none defaultTtl = .ok expiresAt) ↔
      forall seconds, defaultTtl = some seconds -> seconds = 0 ∨ Reaches now seconds := by
  cases defaultTtl with
  | none => exact iff_of_true ⟨none, rfl⟩ (fun _ impossible => by cases impossible)
  | some seconds =>
      simp only [KeyService.resolveTtl, Option.none_or, Option.some.injEq, forall_eq']
      by_cases zero : seconds = 0
      · rw [if_pos zero]
        exact iff_of_true ⟨none, rfl⟩ (.inl zero)
      · rw [if_neg zero]
        by_cases huge : 2 ^ 63 ≤ seconds.toNat
        · rw [if_pos huge]
          refine iff_of_false (fun ⟨_, impossible⟩ => by cases impossible) ?_
          rintro (none | upper)
          · exact zero none
          · have lower := now.lower
            unfold Reaches maxUnixTimestamp nanosPerSecond at upper
            unfold minUnixTimestamp nanosPerSecond at lower
            omega
        · have reach := checkedAddSeconds_isSome now (Nat.not_le.mp huge)
          rw [if_neg huge]
          cases made : now.checkedAddSeconds seconds.toInt64 with
          | none =>
              rw [made] at reach
              refine iff_of_false (fun ⟨_, impossible⟩ => by cases impossible) ?_
              rintro (none | upper)
              · exact zero none
              · cases reach.mpr upper
          | some expiry =>
              rw [made] at reach
              exact iff_of_true ⟨some expiry, rfl⟩ (.inr (reach.mp rfl))

/-- The beginning of the year 9000, in seconds. -/
def year9000 : Int := 221845392000

/-- The number of seconds from then to the end of the year 9999. -/
def longestTtl : Nat := 31556908800

/-- The last nanosecond before the year 9000. -/
def lastBefore9000 : OffsetDateTime := ⟨year9000 * nanosPerSecond - 1, by decide, by decide⟩

/-- The default time to live resolves at every instant before the year 9000. -/
def Usable (defaultTtl : Option UInt64) : Prop :=
  forall now : OffsetDateTime, now.nanos < year9000 * nanosPerSecond ->
    Exists fun expiresAt => KeyService.resolveTtl now none defaultTtl = .ok expiresAt

theorem usable_iff (defaultTtl : Option UInt64) :
    Usable defaultTtl ↔ forall seconds, defaultTtl = some seconds -> seconds.toNat ≤ longestTtl := by
  constructor
  · rintro usable seconds rfl
    have last : lastBefore9000.nanos < year9000 * nanosPerSecond := by decide
    rcases (resolveTtl_default_ok_iff _ _).mp (usable lastBefore9000 last) seconds rfl with rfl | upper
    · exact Nat.zero_le _
    · unfold Reaches lastBefore9000 year9000 maxUnixTimestamp nanosPerSecond at upper
      unfold longestTtl
      simp only at upper
      omega
  · intro bounded now early
    rw [resolveTtl_default_ok_iff]
    intro seconds same
    have short := bounded seconds same
    right
    unfold Reaches
    unfold longestTtl at short
    unfold year9000 nanosPerSecond at early
    unfold maxUnixTimestamp nanosPerSecond
    omega

/-! ## Where a default comes from -/

/-- The event gives a bucket this default: a form that names it, or a patch,
which is accepted. -/
inductive Event.Supplies (state : AppState) (store : Store) : Event -> UInt64 -> Prop
  | form {fresh : Uuid} {form : CreateBucketForm} {seconds : UInt64} (named : form.defaultTtl = some seconds)
      (accepted : ((Request.createBucket fresh (.ok form)).perform state store).1.isSuccess = true) :
      Event.Supplies state store (.request (.createBucket fresh (.ok form))) seconds
  | patch {request : BucketRequest} {body : Bytes} {patch : UpdatePolicyJson} {seconds : UInt64}
      (asked : request.route = .updatePolicy (.ok body)) (read : parseUpdatePolicy state.platform body = some patch)
      (named : patch.defaultTtl = some (some seconds))
      (accepted : ((Request.bucket request).perform state store).1.isSuccess = true) :
      Event.Supplies state store (.request (.bucket request)) seconds

section Origins

variable {state : AppState} {store : Store} {bucket : BucketId} {policy : BucketPolicy}

/-- An update changes nothing, or it is accepted and stores what its body
describes. -/
theorem BucketRequest.updatePolicy_parsed {request : BucketRequest} {body : Except Response Bytes} {auth : BucketAuth}
    (resolved : request.authenticated state store = .ok auth) (asked : request.route = .updatePolicy body)
    (admin : auth.identity = .admin) (looked : store.lookupPolicy state.platform auth.bucketId = .ok (some policy)) :
    ((Request.bucket request).perform state store).2 = store ∨
    Exists fun text => Exists fun patch => Exists fun result => Exists fun bytes =>
      body = .ok text ∧ parseUpdatePolicy state.platform text = some patch ∧ PatchedFields state patch policy result ∧
      encodePolicy state.platform result = .ok bytes ∧
      (Request.bucket request).perform state store =
        (Response.ofStatus 204, store.writePolicy auth.bucketId bytes) := by
  rw [Request.perform_eq, Request.handler, BucketRequest.eval_handler, resolved, asked]
  cases body with
  | error response => exact .inl rfl
  | ok text =>
      have granted : auth.requireAdmin = .ok () := by rw [BucketAuth.requireAdmin, admin]
      rcases updatePolicy_cases granted looked text with same | ⟨patch, result, bytes, parsed, fields, encoded, ran⟩
      · exact .inl same
      · refine .inr ⟨text, patch, result, bytes, rfl, parsed, fields, encoded, ?_⟩
        simp only [Route.serve, ran]
        rfl

/-- The policy of a bucket after a request is the one before, or what the body
of an accepted update made of it. -/
theorem BucketRequest.policy_origin (request : BucketRequest)
    (found : ((Request.bucket request).perform state store).2.lookupPolicy state.platform bucket =
      .ok (some policy)) :
    store.lookupPolicy state.platform bucket = .ok (some policy) ∨
    Exists fun body => Exists fun patch => Exists fun old =>
      ((Request.bucket request).perform state store).1.isSuccess = true ∧
      request.route = .updatePolicy (.ok body) ∧ parseUpdatePolicy state.platform body = some patch ∧
      store.lookupPolicy state.platform bucket = .ok (some old) ∧ PatchedFields state patch old policy := by
  rcases BucketRequest.perform_guarded (fun _ => serve_effect request.route) with same | ⟨auth, resolved, _, effect⟩
  · rw [same] at found
    exact .inl found
  · have named : auth.bucketId = request.bucketId := by
      rcases request.authenticated_eq_ok resolved with ⟨_, _, _, _, rfl⟩
      rfl
    generalize asked : request.route = route at effect
    generalize performed : ((Request.bucket request).perform state store).2 = after at effect found
    cases effect with
    | read => exact .inl found
    | put _ _ | increment _ _ | delete _ => exact .inl found
    | txn parsed prepared =>
        refine .inl ((Store.lookupPolicy_congr ?_).symm.trans found)
        rw [applyTxnOps_metadata]
    | dropPolicy admin =>
        by_cases here : Bytes.utf8 auth.bucketId.asStr = Bytes.utf8 bucket.asStr
        · have gone : (store.dropPolicy auth.bucketId).lookupPolicy state.platform bucket = .ok none := by
            apply Store.lookupPolicy_of_missing
            simp only [Store.dropPolicy, Keyspace.get_remove, if_pos here]
          rw [gone] at found
          cases found
        · refine .inl ((Store.lookupPolicy_congr ?_).symm.trans found)
          simp only [Store.dropPolicy, Keyspace.get_remove, if_neg here]
    | patchPolicy admin looked applied encoded =>
        rcases BucketRequest.updatePolicy_parsed resolved asked admin looked with
          same | ⟨text, patch, result, bytes, rfl, parsed, fields, stored, written⟩
        · rw [← performed, same] at found
          exact .inl found
        · rw [← performed, written] at found
          by_cases here : auth.bucketId = bucket
          · subst here
            rw [Store.lookupPolicy_writePolicy stored store auth.bucketId] at found
            cases found
            exact .inr ⟨text, patch, _, by rw [written]; rfl, rfl, parsed, looked, fields⟩
          · refine .inl ((Store.lookupPolicy_congr ?_).symm.trans found)
            have apart : Bytes.utf8 auth.bucketId.asStr ≠ Bytes.utf8 bucket.asStr :=
              fun equal => here (BucketId.ext_str (Bytes.utf8_injective equal))
            simp only [Store.writePolicy, Keyspace.get_insert, if_neg apart]

theorem createBucket_origin {fresh : Uuid} {form : Except Response CreateBucketForm}
    (found : ((Request.createBucket fresh form).perform state store).2.lookupPolicy state.platform bucket =
      .ok (some policy)) :
    store.lookupPolicy state.platform bucket = .ok (some policy) ∨
    Exists fun accepted => form = .ok accepted ∧ NewFields state accepted policy ∧
      ((Request.createBucket fresh form).perform state store).1.isSuccess = true := by
  cases form with
  | error response => exact .inl found
  | ok accepted =>
      rcases createBucket_cases state fresh (.ok accepted) store with same | ⟨_, _, _, _, _, success, _⟩
      · rw [same] at found
        exact .inl found
      · rcases createBucket_accepted success with ⟨made, bytes, new, encoded, written⟩
        rw [written] at found
        by_cases here : fresh.bucketId = bucket
        · subst here
          rw [Store.lookupPolicy_writePolicy encoded store fresh.bucketId] at found
          cases found
          exact .inr ⟨accepted, rfl, newBucketPolicy_eq_ok.mp new, success⟩
        · refine .inl ((Store.lookupPolicy_congr ?_).symm.trans found)
          have apart : Bytes.utf8 fresh.bucketId.asStr ≠ Bytes.utf8 bucket.asStr :=
            fun equal => here (BucketId.ext_str (Bytes.utf8_injective equal))
          simp only [Store.writePolicy, Keyspace.get_insert, if_neg apart]

/-- A default that a policy holds is the built-in one or was supplied by an
accepted event of the run. -/
theorem defaultTtl_origin (events : List Event)
    (found : (storeAfter state events).lookupPolicy state.platform bucket = .ok (some policy)) {seconds : UInt64}
    (held : policy.defaultTtlSecs = some seconds) :
    seconds = defaultBucketTtlSecs ∨ Exists fun earlier => Exists fun event => Exists fun rest =>
      events = earlier ++ event :: rest ∧ event.Supplies state (storeAfter state earlier) seconds := by
  induction events using List.reverseRecOn generalizing policy with
  | nil =>
      have empty : (storeAfter state []).lookupPolicy state.platform bucket = .ok none :=
        Store.lookupPolicy_of_missing (Keyspace.get_empty _)
      rw [empty] at found
      cases found
  | append_singleton earlier event ih =>
      have later : forall {old : BucketPolicy},
          (storeAfter state earlier).lookupPolicy state.platform bucket = .ok (some old) ->
          old.defaultTtlSecs = some seconds ->
          seconds = defaultBucketTtlSecs ∨ Exists fun first => Exists fun other => Exists fun rest =>
            earlier ++ [event] = first ++ other :: rest ∧ other.Supplies state (storeAfter state first) seconds := by
        intro old before same
        rcases ih before same with builtIn | ⟨first, other, rest, split, supplied⟩
        · exact .inl builtIn
        · exact .inr ⟨first, other, rest ++ [event], by rw [split]; simp, supplied⟩
      have now : event.Supplies state (storeAfter state earlier) seconds ->
          Exists fun first => Exists fun other => Exists fun rest =>
            earlier ++ [event] = first ++ other :: rest ∧ other.Supplies state (storeAfter state first) seconds :=
        fun supplied => ⟨earlier, event, [], rfl, supplied⟩
      rw [storeAfter_snoc] at found
      cases event with
      | sweep instant =>
          refine later ?_ held
          rw [← found]
          refine (Store.lookupPolicy_congr ?_).symm
          change ((storeAfter state earlier).sweep instant).metadata[_]? = _
          rw [(storeAfter_sound state earlier).indexed.sweep_metadata instant]
      | request incoming =>
          cases incoming with
          | createBucket fresh form =>
              rcases createBucket_origin found with before | ⟨accepted, rfl, fields, success⟩
              · exact later before held
              · have given := fields.defaultTtl.symm.trans held
                cases named : accepted.defaultTtl with
                | none =>
                    rw [named] at given
                    exact .inl (Option.some.inj given).symm
                | some chosen =>
                    rw [named] at given
                    rw [Option.getD_some] at given
                    exact .inr (now (.form (named.trans given) success))
          | bucket request =>
              rcases request.policy_origin found with before | ⟨body, patch, old, success, asked, read, before, fields⟩
              · exact later before held
              · have given := fields.defaultTtl.symm.trans held
                cases named : patch.defaultTtl with
                | none =>
                    rw [named] at given
                    exact later before given
                | some chosen =>
                    rw [named] at given
                    exact .inr (now (.patch asked read (named.trans (congrArg some given)) success))

end Origins

/-! ## Writes that leave the time to live to the bucket -/

/-- Writes at this instant that name no time to live are not refused for the
default. -/
structure WritesResolve (platform : Platform) (now : OffsetDateTime) (defaultTtl : Option UInt64) : Prop where
  put : forall (store : Store) (bucket : BucketId) (key : Key) (body : Bytes) (contentType : Option String)
    (value : StoredValue), KeyService.inferStoredValue platform body contentType = .ok value ->
    Exists fun expiresAt =>
      Task.eval platform (KeyService.set platform now bucket key body contentType none defaultTtl) store =
        (.ok value, store.put (dataStorageKey bucket key) value expiresAt)
  increment : forall (storeNow : OffsetDateTime) (store : Store) (bucket : BucketId) (key : Key) (op : CounterOp)
    (value : StoredValue), mergedValue storeNow store.data[dataStorageKey bucket key]? op = .ok value ->
    Exists fun expiresAt =>
      Task.eval platform (KeyService.increment now storeNow bucket key op none defaultTtl) store =
        (.ok value, store.put (dataStorageKey bucket key) value expiresAt)
  item : forall (rootKey : Bytes) (auth : BucketAuth) (raw : String) (key : Key) (content : Json) (body : Bytes)
    (contentType : Option String) (value : StoredValue), auth.defaultTtlSecs = defaultTtl ->
    parsePercentEncodedKey raw = .ok key -> auth.requireWriteOn key = .ok () ->
    jsonValueToBody platform content = .ok (body, contentType) ->
    KeyService.inferStoredValue platform body contentType = .ok value ->
    Exists fun expiresAt => prepareItem ⟨platform, rootKey⟩ now auth (.set raw content none) =
      .ok (.set key value expiresAt)

theorem writesResolve {platform : Platform} {now : OffsetDateTime} {defaultTtl : Option UInt64}
    {expiresAt : Option OffsetDateTime} (resolved : KeyService.resolveTtl now none defaultTtl = .ok expiresAt) :
    WritesResolve platform now defaultTtl where
  put := by
    intro store bucket key body contentType value inferred
    refine ⟨expiresAt, ?_⟩
    rw [Task.eval_set, inferred]
    simp only [resolved]
  increment := by
    intro storeNow store bucket key op value merged
    refine ⟨expiresAt, ?_⟩
    rw [Task.eval_increment, resolved]
    simp only [merged]
  item := by
    intro rootKey auth raw key content body contentType value same named allowed converted inferred
    refine ⟨expiresAt, ?_⟩
    rw [prepareItem, named]
    simp only [bind, Except.bind, allowed, converted, inferred, Except.mapError, same, resolved]
    rfl

/-- Of every default it is known how long it may be; and where each one that an
accepted request of a run supplies is no longer, every policy the run stores is
usable until the year 9000, and no write is refused for its default. -/
theorem default_ttl_usable (state : AppState) (events : List Event)
    (short : forall earlier event later, events = earlier ++ event :: later ->
      forall seconds, event.Supplies state (storeAfter state earlier) seconds -> seconds.toNat ≤ longestTtl) :
    (forall defaultTtl, Usable defaultTtl ↔ forall seconds, defaultTtl = some seconds -> seconds.toNat ≤ longestTtl) ∧
    forall (bucket : BucketId) (policy : BucketPolicy),
      (storeAfter state events).lookupPolicy state.platform bucket = .ok (some policy) ->
      Usable policy.defaultTtlSecs ∧
      forall now : OffsetDateTime, now.nanos < year9000 * nanosPerSecond ->
        WritesResolve state.platform now policy.defaultTtlSecs := by
  refine ⟨usable_iff, ?_⟩
  intro bucket policy found
  have usable : Usable policy.defaultTtlSecs := by
    rw [usable_iff]
    intro seconds held
    rcases defaultTtl_origin events found held with rfl | ⟨earlier, event, later, split, supplied⟩
    · decide
    · exact short earlier event later split seconds supplied
  refine ⟨usable, ?_⟩
  intro now early
  rcases usable now early with ⟨expiresAt, resolved⟩
  exact writesResolve resolved

open ExpiredRemoval in
/-- The week that a bucket is given when nobody asks is usable. -/
theorem week_usable :
    (storeAfter state history).lookupPolicy state.platform id.bucketId = .ok (some policy) ∧
      Usable policy.defaultTtlSecs := by
  have found : (storeAfter state history).lookupPolicy state.platform id.bucketId = .ok (some policy) := by
    decide +kernel
  refine ⟨found, ((default_ttl_usable state history ?_).2 id.bucketId policy found).1⟩
  intro earlier event later split seconds supplied
  have member : event ∈ history := by
    rw [split]
    exact List.mem_append_right earlier List.mem_cons_self
  rcases List.mem_pair.mp member with rfl | rfl
  · cases supplied with
    | form named => cases named
  · cases supplied with
    | patch asked => cases asked

namespace LongDefault

def policy : BucketPolicy := { ExpiredRemoval.policy with defaultTtlSecs := some 9223372036854775808 }

def record : Bytes :=
  Bytes.utf8 ("\x7b\"secret_key_hash\":null,\"read_key_hash\":null,\"write_key_hash\":null,\"signing_key\":null," ++
    "\"signing_key_generation\":0,\"default_ttl_secs\":9223372036854775808," ++
    "\"anonymous_access\":\x7b\"read\":true,\"write\":true,\"enumerate\":true,\"delete\":true\x7d\x7d")

theorem single_tree : forall left, left ∈ [(storedPolicyToJson policy, record)] ->
    forall right, right ∈ [(storedPolicyToJson policy, record)] -> left.2 = right.2 -> left.1 = right.1 := by
  simp

def state : AppState := ⟨Platform.ofJson [(storedPolicyToJson policy, record)] single_tree [], []⟩

def creation : Request :=
  .createBucket ExpiredRemoval.id (.ok ⟨"a@b.c", none, none, none, none, some 9223372036854775808⟩)

def write : Request :=
  .bucket (ExpiredRemoval.request ExpiredRemoval.start (.putKey ExpiredRemoval.key (.ok none) none (.ok [0x68, 0x69])))

end LongDefault

open LongDefault in
/-- A default of 2^63 seconds is accepted, and every write that relies on it is
refused. -/
theorem long_default_refuses_writes :
    (creation.perform state Store.empty).1.isSuccess = true ∧
    (creation.perform state Store.empty).2.lookupPolicy state.platform ExpiredRemoval.id.bucketId =
      .ok (some policy) ∧
    ¬ Usable policy.defaultTtlSecs ∧
    KeyService.resolveTtl ExpiredRemoval.start none policy.defaultTtlSecs =
      .error (.domain (.invalidTtl "ttl seconds out of supported range")) ∧
    (write.perform state (creation.perform state Store.empty).2).1 = badRequest := by
  refine ⟨by decide +kernel, by decide +kernel, ?_, by decide +kernel, by decide +kernel⟩
  rw [usable_iff]
  intro bounded
  exact absurd (bounded 9223372036854775808 rfl) (by decide)

end Keydock
