import Keydock.Http.Concurrent
import Keydock.Http.Patches
import Mathlib.Tactic.FinCases

/-!
# Concurrent policy updates

Any number of updates of one policy interleave at their storage calls.  An
update that writes back while the stored policy is still the one it read
applies its patch to the current policy, so a run of such updates is a
sequence of patches in the order of the writes.  An update that writes back a
copy of an older policy undoes what was acknowledged in between.
-/

namespace Keydock

open Effect Handler

/-- An update without its bucket.  A body that the framework refuses is refused
with an error status. -/
structure PolicyUpdate where
  query : Option String
  authorization : Option Bytes
  clock : Clock
  body : Except Response Bytes
  refused : forall response, body = .error response -> response.isSuccess = false

namespace PolicyUpdate

def request (update : PolicyUpdate) (bucket : Segment) : BucketRequest where
  bucket := bucket
  query := update.query
  authorization := update.authorization
  clock := update.clock
  route := .updatePolicy update.body

/-- The patch an update carries. -/
def patch (state : AppState) (update : PolicyUpdate) : Option UpdatePolicyJson :=
  match update.body with
  | .error _ => none
  | .ok body => parseUpdatePolicy state.platform body

/-- The policy after an update that runs alone. -/
def apply (state : AppState) (update : PolicyUpdate) (policy : BucketPolicy) : Except Response BucketPolicy :=
  match update.patch state with
  | none => .error badRequest
  | some patch => patchedPolicy state patch policy

end PolicyUpdate

section Updates

variable {ι : Type} (state : AppState) (updates : ι -> PolicyUpdate)

/-- The policy after the updates of some callers, one after another. -/
def applyInTurn (order : List ι) (policy : BucketPolicy) : Except Response BucketPolicy :=
  order.foldlM (fun policy i => (updates i).apply state policy) policy

/-- The updates as callers of the interleaved system. -/
def updateCalls (bucket : Segment) (i : ι) : Call storageOps Empty Response :=
  (Request.bucket ((updates i).request bucket)).call state

end Updates

/-- The bucket whose policy the caller is about to write. -/
def writeTarget : Phase storageOps Empty Response -> Option BucketId
  | .running (.call (.createBucket id _) _) => some id
  | _ => none

/-- A caller writes a policy of the bucket only while the stored policy is the
one it saw at its step before, the lookup. -/
def WritesBackCurrent {ι : Type} (platform : Platform) (bucket : BucketId)
    (config : Config storageOps Store ι Empty Response) (i : ι) (seen : Store) : Prop :=
  writeTarget (config.phase i) = some bucket ->
    config.shared.lookupPolicy platform bucket = seen.lookupPolicy platform bucket

instance {ι : Type} (platform : Platform) (bucket : BucketId) (config : Config storageOps Store ι Empty Response)
    (i : ι) (seen : Store) : Decidable (WritesBackCurrent platform bucket config i seen) :=
  inferInstanceAs (Decidable (_ -> _))

/-! ## Stages of an update -/

theorem BucketRequest.admitted_error {state : AppState} {request : BucketRequest}
    {found : Except TaskError (Option BucketPolicy)} {response : Response}
    (refused : request.admitted state found = .error response) : response.isSuccess = false := by
  cases found with
  | error error =>
      cases refused
      exact error.response_not_success
  | ok policy =>
      cases policy with
      | none =>
          cases refused
          rfl
      | some policy =>
          simp only [BucketRequest.admitted, BucketAuth.authenticate] at refused
          split at refused
          · cases refused
            rfl
          · cases refused

theorem BucketRequest.admitted_bucketId {state : AppState} {request : BucketRequest}
    {found : Except TaskError (Option BucketPolicy)} {auth : BucketAuth}
    (accepted : request.admitted state found = .ok auth) : auth.bucketId = request.bucketId := by
  cases found with
  | error error => cases accepted
  | ok policy =>
      cases policy with
      | none => cases accepted
      | some policy =>
          simp only [BucketRequest.admitted, BucketAuth.authenticate] at accepted
          split at accepted
          · cases accepted
          · cases accepted
            rfl

/-- A response of an update that is not its acknowledgement. -/
theorem ne_acknowledgement {response : Response} (failed : response.isSuccess = false) :
    response ≠ Response.ofStatus 204 := by
  rintro rfl
  cases failed

/-- How far an update has come, with what it saw at its last step. -/
inductive Stage (state : AppState) (bucket : Segment) (update : PolicyUpdate) (seen : Store) :
    Program storageOps Response -> Prop
  | begun : Stage state bucket update seen ((Request.bucket (update.request bucket)).program state)
  | admitted {patch : UpdatePolicyJson} (carried : update.patch state = some patch) :
      Stage state bucket update seen (.call (.getPolicy ⟨bucket.text⟩) (patchFound state ⟨bucket.text⟩ patch))
  | patched {policy result : BucketPolicy}
      (found : seen.lookupPolicy state.platform ⟨bucket.text⟩ = .ok (some policy))
      (applied : update.apply state policy = .ok result) :
      Stage state bucket update seen (writeBack ⟨bucket.text⟩ result)
  | answered (response : Response) : Stage state bucket update seen (.done response)

section Steps

variable {state : AppState} {bucket : Segment} {update : PolicyUpdate}

theorem checkedPatch_error {auth : BucketAuth} {response : Response}
    (refused : checkedPatch state auth update.body = .error response) : response.isSuccess = false := by
  unfold checkedPatch at refused
  cases given : update.body with
  | error early =>
      rw [given] at refused
      cases refused
      exact update.refused _ given
  | ok body =>
      rw [given] at refused
      simp only [bind, Except.bind] at refused
      cases admin : auth.requireAdmin with
      | error early =>
          rw [admin] at refused
          cases refused
          unfold BucketAuth.requireAdmin at admin
          split at admin
          · cases admin
          · cases admin
            rfl
      | ok passed =>
          rw [admin] at refused
          cases parsed : parseUpdatePolicy state.platform body with
          | none =>
              simp only [parsed] at refused
              cases refused
              rfl
          | some patch =>
              simp only [parsed] at refused
              cases refused

theorem checkedPatch_ok {auth : BucketAuth} {patch : UpdatePolicyJson}
    (checked : checkedPatch state auth update.body = .ok patch) : update.patch state = some patch := by
  unfold checkedPatch at checked
  unfold PolicyUpdate.patch
  cases given : update.body with
  | error early => rw [given] at checked; cases checked
  | ok body =>
      rw [given] at checked
      simp only [bind, Except.bind] at checked
      cases admin : auth.requireAdmin with
      | error early => rw [admin] at checked; cases checked
      | ok passed =>
          rw [admin] at checked
          cases parsed : parseUpdatePolicy state.platform body with
          | none => simp only [parsed] at checked; cases checked
          | some other =>
              simp only [parsed] at checked
              cases checked
              exact parsed

/-- After the first lookup an update goes on to the second one, or it answers
without an acknowledgement. -/
theorem stage_after_first_lookup (state : AppState) (bucket : Segment) (update : PolicyUpdate) (seen : Store)
    (found : Except TaskError (Option BucketPolicy)) :
    let rest := match (update.request bucket).admitted state found with
      | .error response => Program.done response
      | .ok auth => (updatePolicy state auth update.body).respond
    Stage state bucket update seen rest ∧ rest ≠ .done (Response.ofStatus 204) := by
  intro rest
  cases accepted : (update.request bucket).admitted state found with
  | error response =>
      have same : rest = .done response := by simp only [rest, accepted]
      rw [same]
      refine ⟨.answered response, ?_⟩
      intro acknowledged
      exact ne_acknowledgement (BucketRequest.admitted_error accepted) (Program.done.inj acknowledged)
  | ok auth =>
      have same : rest = (updatePolicy state auth update.body).respond := by simp only [rest, accepted]
      have addressed : auth.bucketId = ⟨bucket.text⟩ := BucketRequest.admitted_bucketId accepted
      rw [same, updatePolicy_respond, addressed]
      cases checked : checkedPatch state auth update.body with
      | error response =>
          refine ⟨.answered response, ?_⟩
          intro acknowledged
          exact ne_acknowledgement (checkedPatch_error checked) (Program.done.inj acknowledged)
      | ok patch => exact ⟨.admitted (checkedPatch_ok checked), fun impossible => by cases impossible⟩

/-- After the second lookup an update writes the patched policy back, or it
answers without an acknowledgement. -/
theorem stage_after_second_lookup (bucket : Segment) {patch : UpdatePolicyJson}
    (carried : update.patch state = some patch) (seen : Store) :
    let rest := patchFound state ⟨bucket.text⟩ patch
      ((seen.lookupPolicy state.platform ⟨bucket.text⟩).mapError TaskError.useCase)
    Stage state bucket update seen rest ∧ rest ≠ .done (Response.ofStatus 204) := by
  intro rest
  cases found : seen.lookupPolicy state.platform ⟨bucket.text⟩ with
  | error error =>
      have same : rest = .done (TaskError.useCase error).response := by
        simp only [rest, found]
        rfl
      rw [same]
      refine ⟨.answered _, ?_⟩
      intro acknowledged
      exact ne_acknowledgement (TaskError.response_not_success _) (Program.done.inj acknowledged)
  | ok policy =>
      cases policy with
      | none =>
          have same : rest = .done notFound := by
            simp only [rest, found]
            rfl
          rw [same]
          exact ⟨.answered _, fun acknowledged => by cases acknowledged⟩
      | some policy =>
          have yields := patchedPolicy_yields state patch policy
          cases applied : patchedPolicy state patch policy with
          | error response =>
              rw [applied] at yields
              have same : rest = .done response := by
                simp only [rest, found, Except.mapError, patchFound, applied]
              rw [same]
              refine ⟨.answered response, ?_⟩
              intro acknowledged
              exact ne_acknowledgement yields (Program.done.inj acknowledged)
          | ok result =>
              have same : rest = writeBack ⟨bucket.text⟩ result := by
                simp only [rest, found, Except.mapError, patchFound, applied]
              rw [same]
              refine ⟨.patched found ?_, fun impossible => by cases impossible⟩
              simp only [PolicyUpdate.apply, carried, applied]

end Steps

/-! ## Runs of updates -/

section Runs

variable {ι : Type} {state : AppState} {bucket : Segment} {updates : ι -> PolicyUpdate}

theorem applyInTurn_snoc {order : List ι} {initial policy result : BucketPolicy} {i : ι}
    (before : applyInTurn state updates order initial = .ok policy)
    (applied : (updates i).apply state policy = .ok result) :
    applyInTurn state updates (order ++ [i]) initial = .ok result := by
  unfold applyInTurn at before ⊢
  rw [List.foldlM_append, before]
  simp only [bind, Except.bind, List.foldlM_cons, List.foldlM_nil, applied]
  rfl

/-- The invariant: the acknowledged updates, in the order of their writes, lead
from the initial policy to the stored one. -/
structure Serial (state : AppState) (bucket : Segment) (updates : ι -> PolicyUpdate) (initial : BucketPolicy)
    (seen : ι -> Store) (config : Config storageOps Store ι Empty Response) (order : List ι) : Prop where
  nodup : order.Nodup
  acknowledged : forall i, i ∈ order ↔
    config.remaining (updateCalls state updates bucket) i = .done (Response.ofStatus 204)
  stored : Exists fun policy => applyInTurn state updates order initial = .ok policy ∧
    config.shared.lookupPolicy state.platform ⟨bucket.text⟩ = .ok (some policy)
  stages : forall i, Stage state bucket (updates i) (seen i)
    (config.remaining (updateCalls state updates bucket) i)

namespace Serial

theorem initial_config (state : AppState) (bucket : Segment) (updates : ι -> PolicyUpdate) {start : Store}
    {initial : BucketPolicy} (found : start.lookupPolicy state.platform ⟨bucket.text⟩ = .ok (some initial)) :
    Serial state bucket updates initial (fun _ => start) (Config.initial start) [] where
  nodup := List.nodup_nil
  acknowledged := by
    intro i
    refine iff_of_false List.not_mem_nil (fun done => ?_)
    have whole : (Request.bucket ((updates i).request bucket)).program state = .done (Response.ofStatus 204) := done
    rw [BucketRequest.program_eq] at whole
    cases whole
  stored := ⟨initial, rfl, found⟩
  stages := fun _ => .begun

variable [DecidableEq ι] {initial : BucketPolicy} {seen : ι -> Store}
variable {config after : Config storageOps Store ι Empty Response} {order : List ι} {i : ι}

/-- A step of one caller that leaves the store alone and does not acknowledge. -/
theorem advance (serial : Serial state bucket updates initial seen config order)
    (shared : after.shared = config.shared)
    (others : forall j, j ≠ i ->
      after.remaining (updateCalls state updates bucket) j = config.remaining (updateCalls state updates bucket) j)
    (stage : Stage state bucket (updates i) config.shared (after.remaining (updateCalls state updates bucket) i))
    (same : after.remaining (updateCalls state updates bucket) i = .done (Response.ofStatus 204) ↔
      config.remaining (updateCalls state updates bucket) i = .done (Response.ofStatus 204)) :
    Serial state bucket updates initial (Function.update seen i config.shared) after order where
  nodup := serial.nodup
  acknowledged := by
    intro j
    by_cases here : j = i
    · rw [here, serial.acknowledged i, same]
    · rw [serial.acknowledged j, others j here]
  stored := by
    rw [shared]
    exact serial.stored
  stages := by
    intro j
    by_cases here : j = i
    · subst here
      rw [Function.update_self]
      exact stage
    · rw [Function.update_of_ne here, others j here]
      exact serial.stages j

/-- The write of a caller that saw the current policy. -/
theorem write (serial : Serial state bucket updates initial seen config order) {policy result : BucketPolicy}
    {bytes : Bytes} (running : config.remaining (updateCalls state updates bucket) i = writeBack ⟨bucket.text⟩ result)
    (found : config.shared.lookupPolicy state.platform ⟨bucket.text⟩ = .ok (some policy))
    (applied : (updates i).apply state policy = .ok result)
    (encoded : encodePolicy state.platform result = .ok bytes)
    (shared : after.shared = config.shared.writePolicy ⟨bucket.text⟩ bytes)
    (done : after.remaining (updateCalls state updates bucket) i = .done (Response.ofStatus 204))
    (others : forall j, j ≠ i ->
      after.remaining (updateCalls state updates bucket) j = config.remaining (updateCalls state updates bucket) j) :
    Serial state bucket updates initial (Function.update seen i config.shared) after (order ++ [i]) where
  nodup := by
    refine List.nodup_append.mpr ⟨serial.nodup, List.nodup_singleton i, ?_⟩
    intro j member other single
    rw [List.mem_singleton.mp single]
    rintro rfl
    have acknowledged := (serial.acknowledged j).mp member
    rw [running] at acknowledged
    cases acknowledged
  acknowledged := by
    intro j
    by_cases here : j = i
    · rw [here, done]
      simp
    · rw [List.mem_append, serial.acknowledged j, others j here, List.mem_singleton]
      simp [here]
  stored := by
    rcases serial.stored with ⟨current, before, stored⟩
    rw [found] at stored
    cases stored
    exact ⟨result, applyInTurn_snoc before applied,
      shared ▸ Store.lookupPolicy_writePolicy encoded config.shared ⟨bucket.text⟩⟩
  stages := by
    intro j
    by_cases here : j = i
    · rw [here, done]
      exact .answered _
    · rw [Function.update_of_ne here, others j here]
      exact serial.stages j

/-- Every step that meets the condition keeps the invariant. -/
theorem step (serial : Serial state bucket updates initial seen config order)
    (current : WritesBackCurrent state.platform ⟨bucket.text⟩ config i (seen i))
    (stepped : config.step (service state.platform) (updateCalls state updates bucket) i = some after) :
    Exists fun order => Serial state bucket updates initial (Function.update seen i config.shared) after order := by
  rcases Config.step_cases stepped with ⟨shared, same, settled⟩ | ⟨op, next, running, shared, rest, others⟩
  · refine ⟨order, serial.advance shared (fun j _ => same j) ?_ (by rw [same i])⟩
    rw [same i]
    rcases settled with whole | ⟨result, done⟩
    · rw [whole]
      exact .begun
    · rw [done]
      exact .answered result
  · have position : config.remaining (updateCalls state updates bucket) i = .call op next :=
      Config.remaining_running running
    have notYet : config.remaining (updateCalls state updates bucket) i ≠ .done (Response.ofStatus 204) := by
      rw [position]
      exact fun impossible => by cases impossible
    have stage := serial.stages i
    rw [position] at stage
    generalize whole : Program.call op next = program at stage
    cases stage with
    | begun =>
        rw [BucketRequest.program_eq] at whole
        cases whole
        rw [exec_getPolicy] at shared rest
        have reached := stage_after_first_lookup state bucket (updates i) config.shared
          ((config.shared.lookupPolicy state.platform ⟨bucket.text⟩).mapError TaskError.useCase)
        refine ⟨order, serial.advance shared others (rest ▸ reached.1) ?_⟩
        exact iff_of_false (fun done => reached.2 (rest.symm.trans done)) notYet
    | admitted carried =>
        cases whole
        rw [exec_getPolicy] at shared rest
        have reached := stage_after_second_lookup bucket carried config.shared
        refine ⟨order, serial.advance shared others (rest ▸ reached.1) ?_⟩
        exact iff_of_false (fun done => reached.2 (rest.symm.trans done)) notYet
    | @patched policy result found applied =>
        cases whole
        have unchanged : config.shared.lookupPolicy state.platform ⟨bucket.text⟩ =
            (seen i).lookupPolicy state.platform ⟨bucket.text⟩ := by
          apply current
          rw [running]
          exact rfl
        rw [exec_createBucket] at shared rest
        cases encoded : encodePolicy state.platform result with
        | error error =>
            rw [encoded] at shared rest
            refine ⟨order, serial.advance shared others (rest ▸ .answered _) ?_⟩
            refine iff_of_false (fun done => ?_) notYet
            have acknowledged := Program.done.inj (rest.symm.trans done)
            exact ne_acknowledgement (TaskError.response_not_success (.useCase error)) acknowledged
        | ok bytes =>
            rw [encoded] at shared rest
            exact ⟨order ++ [i], serial.write position (unchanged.trans found) applied encoded shared rest others⟩
    | answered response => cases whole

end Serial

/-! ## Fields of the final policy -/

theorem applyInTurn_cons {order : List ι} {initial policy : BucketPolicy} {i : ι}
    (applied : applyInTurn state updates (i :: order) initial = .ok policy) :
    Exists fun middle => (updates i).apply state initial = .ok middle ∧
      applyInTurn state updates order middle = .ok policy := by
  unfold applyInTurn at applied
  rw [List.foldlM_cons] at applied
  cases first : (updates i).apply state initial with
  | error response => rw [first] at applied; cases applied
  | ok middle =>
      rw [first] at applied
      exact ⟨middle, rfl, applied⟩

theorem applyInTurn_keeps {β : Type} (field : BucketPolicy -> β) {order : List ι} {initial policy : BucketPolicy}
    (applied : applyInTurn state updates order initial = .ok policy)
    (keeps : forall j, j ∈ order -> forall before after, (updates j).apply state before = .ok after ->
      field after = field before) : field policy = field initial := by
  induction order generalizing initial with
  | nil =>
      cases applied
      rfl
  | cons j rest ih =>
      rcases applyInTurn_cons applied with ⟨middle, first, later⟩
      have tail := ih later (fun k member => keeps k (List.mem_cons_of_mem j member))
      exact tail.trans (keeps j List.mem_cons_self initial middle first)

/-- A field that one update sets and the others leave alone has the value that
update gives it. -/
theorem applyInTurn_field {β : Type} (field : BucketPolicy -> β) {order : List ι} {initial policy : BucketPolicy}
    (applied : applyInTurn state updates order initial = .ok policy) (nodup : order.Nodup) {i : ι}
    (member : i ∈ order) (value : β)
    (sets : forall before after, (updates i).apply state before = .ok after -> field after = value)
    (keeps : forall j, j ∈ order -> j ≠ i -> forall before after, (updates j).apply state before = .ok after ->
      field after = field before) : field policy = value := by
  induction order generalizing initial with
  | nil => cases member
  | cons j rest ih =>
      rcases applyInTurn_cons applied with ⟨middle, first, later⟩
      have distinct := List.nodup_cons.mp nodup
      have tail : forall k, k ∈ rest -> k ≠ i -> forall before after, (updates k).apply state before = .ok after ->
          field after = field before := fun k inside => keeps k (List.mem_cons_of_mem j inside)
      rcases List.mem_cons.mp member with same | inside
      · subst same
        have rest := applyInTurn_keeps field later
          (fun k inside => tail k inside (fun same => distinct.1 (same ▸ inside)))
        exact rest.trans (sets initial middle first)
      · exact ih later distinct.2 inside tail

theorem patched_of_apply {update : PolicyUpdate} {before after : BucketPolicy}
    (applied : update.apply state before = .ok after) :
    Exists fun patch => update.patch state = some patch ∧ Patched state patch before after := by
  unfold PolicyUpdate.apply at applied
  cases carried : update.patch state with
  | none => rw [carried] at applied; cases applied
  | some patch =>
      have yields := patchedPolicy_yields state patch before
      simp only [carried] at applied
      rw [applied] at yields
      exact ⟨patch, rfl, yields⟩

/-- One update sets a key, and no other update of the order mentions it. -/
def SetsAlone (state : AppState) (updates : ι -> PolicyUpdate) (field : UpdatePolicyJson -> Option (Option String))
    (order : List ι) (i : ι) (value : Option String) : Prop :=
  (Exists fun patch => (updates i).patch state = some patch ∧ field patch = some value) ∧
    forall j, j ∈ order -> j ≠ i -> forall other, (updates j).patch state = some other -> field other = none

/-- A signing key set by one update alone is the final one. -/
theorem signingKey_of_setsAlone {order : List ι} {initial policy : BucketPolicy}
    (applied : applyInTurn state updates order initial = .ok policy) (nodup : order.Nodup) {i : ι}
    (member : i ∈ order) {value : Option String}
    (alone : SetsAlone state updates UpdatePolicyJson.signingKey order i value) :
    policy.signingKey = value.map Bytes.utf8 := by
  rcases alone with ⟨⟨patch, carried, named⟩, silent⟩
  refine applyInTurn_field BucketPolicy.signingKey applied nodup member _ ?_ ?_
  · intro before after step
    rcases patched_of_apply step with ⟨same, carriedToo, patched⟩
    rw [carried] at carriedToo
    cases carriedToo
    rw [patched.signingKey, UpdatePolicyJson.signingKeyOn, named]
  · intro j inside different before after step
    rcases patched_of_apply step with ⟨other, carriedOther, patched⟩
    rw [patched.signingKey, UpdatePolicyJson.signingKeyOn, silent j inside different other carriedOther]

/-- A read key set by one update alone is the final one. -/
theorem readKey_of_setsAlone {order : List ι} {initial policy : BucketPolicy}
    (applied : applyInTurn state updates order initial = .ok policy) (nodup : order.Nodup) {i : ι}
    (member : i ∈ order) {value : Option String}
    (alone : SetsAlone state updates UpdatePolicyJson.readKey order i value) :
    applyNullableHash state value = .ok policy.readKeyHash := by
  rcases alone with ⟨⟨patch, carried, named⟩, silent⟩
  refine (applyInTurn_field (fun policy => Except.ok policy.readKeyHash) applied nodup member _ ?_ ?_).symm
  · intro before after step
    rcases patched_of_apply step with ⟨same, carriedToo, patched⟩
    rw [carried] at carriedToo
    cases carriedToo
    have made := patched.readKey
    rw [named] at made
    exact made.symm
  · intro j inside different before after step
    rcases patched_of_apply step with ⟨other, carriedOther, patched⟩
    have made := patched.readKey
    rw [silent j inside different other carriedOther] at made
    exact congrArg Except.ok made

/-- In a run in which every update writes back while the stored policy is the
one it looked up, acknowledged updates take effect one after another. -/
theorem updates_serialize [DecidableEq ι] (state : AppState) (bucket : Segment) (updates : ι -> PolicyUpdate)
    (start : Store) (initial : BucketPolicy)
    (found : start.lookupPolicy state.platform ⟨bucket.text⟩ = .ok (some initial)) (schedule : List ι)
    (final : Config storageOps Store ι Empty Response)
    (run : Config.execute (service state.platform) (updateCalls state updates bucket) (Config.initial start) schedule =
      some final)
    (current : Config.Along (service state.platform) (updateCalls state updates bucket)
      (WritesBackCurrent state.platform ⟨bucket.text⟩) (fun _ => start) (Config.initial start) schedule)
    (answered : forall i, final.phase i = .idle ∨ final.phase i = .finished (Response.ofStatus 204)) :
    Exists fun order : List ι => Exists fun policy : BucketPolicy =>
      order.Nodup ∧ (forall i, i ∈ order ↔ final.phase i = .finished (Response.ofStatus 204)) ∧
      applyInTurn state updates order initial = .ok policy ∧
      final.shared.lookupPolicy state.platform ⟨bucket.text⟩ = .ok (some policy) ∧
      (forall i value, i ∈ order -> SetsAlone state updates UpdatePolicyJson.signingKey order i value ->
        policy.signingKey = value.map Bytes.utf8) ∧
      (forall i value, i ∈ order -> SetsAlone state updates UpdatePolicyJson.readKey order i value ->
        applyNullableHash state value = .ok policy.readKeyHash) := by
  have reached := Config.Along.preserves
    (fun seen config => Exists fun order => Serial state bucket updates initial seen config order)
    (fun seen config i after ⟨order, serial⟩ met stepped => serial.step met stepped) current
    ⟨[], Serial.initial_config state bucket updates found⟩ run
  rcases reached with ⟨seen, order, serial⟩
  rcases serial.stored with ⟨policy, applied, stored⟩
  refine ⟨order, policy, serial.nodup, ?_, applied, stored,
    fun i value member alone => signingKey_of_setsAlone applied serial.nodup member alone,
    fun i value member alone => readKey_of_setsAlone applied serial.nodup member alone⟩
  intro i
  rw [serial.acknowledged]
  rcases answered i with idle | finished
  · have whole : final.remaining (updateCalls state updates bucket) i =
        (Request.bucket ((updates i).request bucket)).program state := by
      rw [Config.remaining, idle]
      rfl
    rw [whole, BucketRequest.program_eq, idle]
    exact iff_of_false (fun impossible => by cases impossible) (fun impossible => by cases impossible)
  · exact iff_of_true (Config.remaining_finished finished) finished

end Runs

/-! ## A rotation and another update -/

namespace Rotation

/-- The root key of credential hashes. -/
def rootKey : Bytes := Bytes.utf8 "0123456789abcdef0123456789abcdef"

/-- The hash of the secret key `s3cret`. -/
def secretHash : Bytes :=
  [131, 147, 15, 37, 230, 124, 66, 80, 121, 199, 108, 158, 68, 135, 151, 18,
    85, 58, 23, 87, 45, 29, 62, 193, 242, 33, 80, 111, 183, 120, 164, 37]

def policy (signingKey : String) (generation ttl : UInt64) : BucketPolicy where
  defaultTtlSecs := some ttl
  anonymousAccess := ⟨true, true, true, false⟩
  secretKeyHash := some secretHash
  readKeyHash := none
  writeKeyHash := none
  signingKey := some (Bytes.utf8 signingKey)
  signingKeyGeneration := generation

/-- The record of such a policy, its variable parts as JSON texts. -/
def record (signingKey generation ttl : String) : Bytes :=
  Bytes.utf8 ("\x7b\"secret_key_hash\":[131,147,15,37,230,124,66,80,121,199,108,158,68,135,151,18," ++
    "85,58,23,87,45,29,62,193,242,33,80,111,183,120,164,37],\"read_key_hash\":null,\"write_key_hash\":null," ++
    "\"signing_key\":" ++ signingKey ++ ",\"signing_key_generation\":" ++ generation ++
    ",\"default_ttl_secs\":" ++ ttl ++
    ",\"anonymous_access\":\x7b\"read\":true,\"write\":true,\"enumerate\":true,\"delete\":false\x7d\x7d")

def rotationBody : Bytes := Bytes.utf8 "\x7b\"signing_key\":\"new\"\x7d"

def ttlBody : Bytes := Bytes.utf8 "\x7b\"default_ttl\":60\x7d"

/-- The texts that the run reads and writes. -/
def texts : List (Json × Bytes) :=
  [(storedPolicyToJson (policy "old" 0 604800), record "[111,108,100]" "0" "604800"),
    (storedPolicyToJson (policy "new" 1 604800), record "[110,101,119]" "1" "604800"),
    (storedPolicyToJson (policy "old" 0 60), record "[111,108,100]" "0" "60"),
    (storedPolicyToJson (policy "new" 1 60), record "[110,101,119]" "1" "60"),
    (.obj [("signing_key", .str "new")], rotationBody), (.obj [("default_ttl", .posInt 60)], ttlBody)]

def state : AppState where
  platform := Platform.ofJson texts (by decide +kernel) [((rootKey, Bytes.utf8 "s3cret"), secretHash)]
  rootKey := rootKey

def id : Uuid := Uuid.fromU128 0x0b7e4ac26f0e4a539d6b1f2f0c3f9a11

def bucket : Segment := ⟨"0b7e4ac2-6f0e-4a53-9d6b-1f2f0c3f9a11", by decide, by decide⟩

/-- The store after the creation of the bucket. -/
def start : Store :=
  ((Request.createBucket id (.ok ⟨"a@b.c", some "s3cret", none, none, some "old", none⟩)).perform state Store.empty).2

/-- An update with the secret key. -/
def update (body : Bytes) : PolicyUpdate where
  query := none
  authorization := some (Bytes.utf8 "Bearer s3cret")
  clock := fun _ => OffsetDateTime.unixEpoch
  body := .ok body
  refused := fun _ impossible => by cases impossible

/-- The first caller rotates the signing key, the second changes the time to
live. -/
def updates : Fin 2 -> PolicyUpdate
  | 0 => update rotationBody
  | 1 => update ttlBody

/-- Both callers look the policy up before either writes. -/
def overlapping : List (Fin 2) := [0, 0, 0, 0, 1, 1, 1, 1, 0, 0, 0, 1, 1, 1]

def sequential : List (Fin 2) := [0, 0, 0, 0, 0, 0, 0, 1, 1, 1, 1, 1, 1, 1]

def final (schedule : List (Fin 2)) : Option (Config storageOps Store (Fin 2) Empty Response) :=
  Config.execute (service state.platform) (updateCalls state updates bucket) (Config.initial start) schedule

/-- The answer of a caller that has finished. -/
def answer : Phase storageOps Empty Response -> Option Response
  | .finished response => some response
  | _ => none

theorem finished_of_answer {phase : Phase storageOps Empty Response} {response : Response}
    (answered : answer phase = some response) : phase = .finished response := by
  cases phase with
  | finished result =>
      cases answered
      rfl
  | idle | acquiring _ | running _ | releasing _ _ => cases answered

/-- Neither order of the two updates gives the policy that the overlapping run
stores. -/
theorem serial_orders (order : List (Fin 2)) (nodup : order.Nodup) (everyone : forall i, i ∈ order) :
    applyInTurn state updates order (policy "old" 0 604800) ≠ .ok (policy "old" 0 60) := by
  have pair : order.length = 2 := by
    have perm : order.Perm [0, 1] :=
      (List.perm_ext_iff_of_nodup nodup (by decide)).mpr (fun i => ⟨fun _ => by fin_cases i <;> decide,
        fun _ => everyone i⟩)
    exact perm.length_eq
  have both : forall first second : Fin 2, [first, second].Nodup ->
      applyInTurn state updates [first, second] (policy "old" 0 604800) ≠ .ok (policy "old" 0 60) := by
    decide +kernel
  rcases List.length_eq_two.mp pair with ⟨first, second, rfl⟩
  exact both first second nodup

end Rotation

open Rotation in
/-- Run one after the other, both updates take effect. -/
theorem sequential_updates_serialize :
    Exists fun config => final sequential = some config ∧
      Exists fun order : List (Fin 2) => Exists fun result : BucketPolicy =>
        order.Nodup ∧ (forall i, i ∈ order ↔ config.phase i = .finished (Response.ofStatus 204)) ∧
        applyInTurn state updates order (policy "old" 0 604800) = .ok result ∧
        config.shared.lookupPolicy state.platform ⟨bucket.text⟩ = .ok (some result) ∧
        (forall i value, i ∈ order -> SetsAlone state updates UpdatePolicyJson.signingKey order i value ->
          result.signingKey = value.map Bytes.utf8) ∧
        (forall i value, i ∈ order -> SetsAlone state updates UpdatePolicyJson.readKey order i value ->
          applyNullableHash state value = .ok result.readKeyHash) := by
  have ended : (final sequential).map (fun config => (answer (config.phase 0), answer (config.phase 1))) =
      some (some (Response.ofStatus 204), some (Response.ofStatus 204)) := by
    decide +kernel
  rcases Option.map_eq_some_iff.mp ended with ⟨config, run, values⟩
  have first := finished_of_answer (congrArg Prod.fst values)
  have second := finished_of_answer (congrArg Prod.snd values)
  exact ⟨config, run, updates_serialize state bucket updates start (policy "old" 0 604800) (by decide +kernel)
    sequential config run (by decide +kernel) (fun i =>
      match i with
      | 0 => .inr first
      | 1 => .inr second)⟩

open Rotation in
/-- A rotation that was acknowledged is undone by an update that does not
mention the signing key. -/
theorem rotation_lost_by_concurrent_update :
    start.lookupPolicy state.platform ⟨bucket.text⟩ = .ok (some (policy "old" 0 604800)) ∧
    Exists fun config => final overlapping = some config ∧
      (forall i, config.phase i = .finished (Response.ofStatus 204)) ∧
      (config.shared.lookupPolicy state.platform ⟨bucket.text⟩).toOption.join.bind BucketPolicy.signingKey =
        some (Bytes.utf8 "old") ∧
      ¬ Exists fun order : List (Fin 2) => Exists fun result : BucketPolicy =>
        order.Nodup ∧ (forall i, i ∈ order ↔ config.phase i = .finished (Response.ofStatus 204)) ∧
        applyInTurn state updates order (policy "old" 0 604800) = .ok result ∧
        config.shared.lookupPolicy state.platform ⟨bucket.text⟩ = .ok (some result) := by
  have ended : (final overlapping).map (fun config => (answer (config.phase 0), answer (config.phase 1),
        config.shared.lookupPolicy state.platform ⟨bucket.text⟩)) =
      some (some (Response.ofStatus 204), some (Response.ofStatus 204), .ok (some (policy "old" 0 60))) := by
    decide +kernel
  rcases Option.map_eq_some_iff.mp ended with ⟨config, run, values⟩
  have first := finished_of_answer (congrArg Prod.fst values)
  have second := finished_of_answer (congrArg (fun triple => triple.2.1) values)
  have stored : config.shared.lookupPolicy state.platform ⟨bucket.text⟩ = .ok (some (policy "old" 0 60)) :=
    congrArg (fun triple => triple.2.2) values
  have answered : forall i, config.phase i = .finished (Response.ofStatus 204) := fun i =>
    match i with
    | 0 => first
    | 1 => second
  refine ⟨by decide +kernel, config, run, answered, by rw [stored]; rfl, ?_⟩
  rintro ⟨order, result, nodup, complete, applied, same⟩
  have everyone : forall i : Fin 2, i ∈ order := fun i => (complete i).mpr (answered i)
  rw [stored] at same
  cases same
  exact absurd applied (serial_orders order nodup everyone)

end Keydock
