import Keydock.Foundation.Observation

/-!
# Locked calls and unlocked reads

Calls that work under locks, single observations and single operations where no
lock guards are linearizable together, in the order in which their programs
ended.  The state that those programs leave, one after another, is the image of
the shared state; nothing is assumed about the end of the interleaving, so this
also says what an interruption leaves behind.
-/

namespace Effect

variable {S : Signature} {σ ι L ρ Loc Val : Type}

/-! ## The order in which programs end -/

namespace Phase

/-- The result of a call whose program has ended. -/
def result? : Phase S L ρ -> Option ρ
  | .running (.done result) | .releasing result _ | .finished result => some result
  | .idle | .acquiring _ | .running (.call _ _) => none

/-- The call has entered and its program has not ended. -/
def Active : Phase S L ρ -> Prop
  | .running (.call _ _) => True
  | .idle | .acquiring _ | .running (.done _) | .releasing _ _ | .finished _ => False

/-- What is in progress while the call is active. -/
def ongoing (call : Call S L ρ) : Phase S L ρ -> Option (Ongoing S L)
  | .running (.call op next) => some ⟨ρ, call, op, next⟩
  | .idle | .acquiring _ | .running (.done _) | .releasing _ _ | .finished _ => none

theorem ongoing_eq_some {call : Call S L ρ} {phase : Phase S L ρ} {activity : Ongoing S L}
    (found : phase.ongoing call = some activity) : Exists fun op => Exists fun next =>
      phase = .running (.call op next) ∧ activity = ⟨ρ, call, op, next⟩ := by
  unfold ongoing at found
  split at found
  next op next => exact ⟨op, next, rfl, (Option.some.inj found).symm⟩
  next => cases found
  next => cases found
  next => cases found
  next => cases found
  next => cases found

end Phase

namespace Config

variable [DecidableEq ι] [DecidableEq L]

/-- The callers along a schedule, in the order in which their programs end. -/
def settling (sem : Semantics S σ) (calls : ι -> Call S L ρ) : Config S σ ι L ρ -> List ι -> List ι
  | _, [] => []
  | config, i :: rest =>
      match config.step sem calls i with
      | none => []
      | some after =>
          if (config.phase i).result?.isNone ∧ (after.phase i).result?.isSome then i :: settling sem calls after rest
          else settling sem calls after rest

theorem settling_append {sem : Semantics S σ} {calls : ι -> Call S L ρ} {config middle : Config S σ ι L ρ}
    {first : List ι} (run : execute sem calls config first = some middle) (second : List ι) :
    settling sem calls config (first ++ second) =
      settling sem calls config first ++ settling sem calls middle second := by
  induction first generalizing config with
  | nil =>
      cases run
      rfl
  | cons i rest ih =>
      simp only [execute] at run
      simp only [List.cons_append, settling]
      cases stepped : config.step sem calls i with
      | none => rw [stepped] at run; cases run
      | some after =>
          rw [stepped] at run
          simp only [ih run]
          split <;> rfl

end Config

/-! ## The simulation -/

section Observed

variable (memory : Memory σ Loc Val) (sem : Semantics S σ) (guard : Loc -> Option L) (visible : Loc -> Prop)

/-- What the given calls leave when they run one after another. -/
def serially (calls : ι -> Call S L ρ) (start : σ) (order : List ι) : σ :=
  (sem.runEach (fun i => (calls i).body) order start).2

/-- The run invariant: `settled` are the calls whose programs have ended. -/
structure ObservedRun (calls : ι -> Call S L ρ) (start : σ) (settled : List ι) (config : Config S σ ι L ρ) :
    Prop where
  owned : Owned config.owner (fun i => (config.phase i).Holds (calls i))
  distinct : forall i result todo, config.phase i = .releasing result todo -> todo.Nodup
  settled_iff : forall i, i ∈ settled ↔ (config.phase i).result?.isSome = true
  settled_nodup : settled.Nodup
  answers : forall i result, (config.phase i).result? = some result ->
    (i, result) ∈ (sem.runEach (fun i => (calls i).body) settled start).1
  linked : Linked memory sem guard visible config.shared (serially sem calls start settled)
    (fun i => (config.phase i).ongoing (calls i))

variable {memory sem guard visible} {calls : ι -> Call S L ρ} {start : σ} {settled : List ι}
variable {config after : Config S σ ι L ρ} {i : ι}

theorem serially_snoc (calls : ι -> Call S L ρ) (start : σ) (order : List ι) (i : ι) :
    serially sem calls start (order ++ [i]) = (sem.run (calls i).body (serially sem calls start order)).2 := by
  unfold serially
  rw [Semantics.runEach_append]
  rfl

theorem runEach_snoc (calls : ι -> Call S L ρ) (start : σ) (order : List ι) (i : ι) :
    (sem.runEach (fun i => (calls i).body) (order ++ [i]) start).1 =
      (sem.runEach (fun i => (calls i).body) order start).1 ++
        [(i, (sem.run (calls i).body (serially sem calls start order)).1)] := by
  rw [Semantics.runEach_append]
  rfl

theorem ObservedRun.initial (calls : ι -> Call S L ρ) (start : σ) :
    ObservedRun memory sem guard visible calls start [] (Config.initial start) where
  owned := fun _ _ holds => False.elim holds
  distinct := fun _ _ _ impossible => by cases impossible
  settled_iff := fun i => ⟨fun member => False.elim (List.not_mem_nil member), fun impossible => by cases impossible⟩
  settled_nodup := List.nodup_nil
  answers := fun _ _ impossible => by cases impossible
  linked := Linked.quiet start (fun _ => rfl)

variable [DecidableEq ι]

/-- A step after which the same programs have ended. -/
theorem ObservedRun.keep (inv : ObservedRun memory sem guard visible calls start settled config)
    {fresh : Phase S L ρ} (moved : after.phase = Function.update config.phase i fresh)
    (sameResult : fresh.result? = (config.phase i).result?)
    (distinct : forall result todo, fresh = .releasing result todo -> todo.Nodup)
    (owned : Owned after.owner (fun j => (after.phase j).Holds (calls j)))
    (linked : Linked memory sem guard visible after.shared (serially sem calls start settled)
      (fun j => (after.phase j).ongoing (calls j))) :
    ObservedRun memory sem guard visible calls start settled after := by
  have results : forall j, (after.phase j).result? = (config.phase j).result? := by
    intro j
    rw [moved]
    by_cases same : j = i
    · rw [same, Function.update_self, sameResult]
    · rw [Function.update_of_ne same]
  refine ⟨owned, ?_, ?_, inv.settled_nodup, ?_, linked⟩
  · intro j result todo releasing
    rw [moved] at releasing
    by_cases same : j = i
    · rw [same, Function.update_self] at releasing
      exact distinct result todo releasing
    · rw [Function.update_of_ne same] at releasing
      exact inv.distinct j result todo releasing
  · intro j
    rw [results]
    exact inv.settled_iff j
  · intro j result ended
    rw [results] at ended
    exact inv.answers j result ended

/-- In particular, a step that only moves a call between lock phases. -/
theorem ObservedRun.relabel (inv : ObservedRun memory sem guard visible calls start settled config)
    {fresh : Phase S L ρ} (moved : after.phase = Function.update config.phase i fresh)
    (shared : after.shared = config.shared) (sameResult : fresh.result? = (config.phase i).result?)
    (inactive : fresh.ongoing (calls i) = (config.phase i).ongoing (calls i))
    (distinct : forall result todo, fresh = .releasing result todo -> todo.Nodup)
    (owned : Owned after.owner (fun j => (after.phase j).Holds (calls j))) :
    ObservedRun memory sem guard visible calls start settled after := by
  refine inv.keep moved sameResult distinct owned ?_
  have same : (fun j => (after.phase j).ongoing (calls j)) = fun j => (config.phase j).ongoing (calls j) := by
    funext j
    rw [moved]
    by_cases here : j = i
    · rw [here, Function.update_self, inactive]
    · rw [Function.update_of_ne here]
  rw [shared, same]
  exact inv.linked

/-- The end of a program appends its call to the sequential order. -/
theorem ObservedRun.settle (inv : ObservedRun memory sem guard visible calls start settled config) {value : ρ}
    (moved : after.phase = Function.update config.phase i (.running (.done value)))
    (unsettled : (config.phase i).result? = none)
    (answer : (sem.run (calls i).body (serially sem calls start settled)).1 = value)
    (owned : Owned after.owner (fun j => (after.phase j).Holds (calls j)))
    (linked : Linked memory sem guard visible after.shared
      (sem.run (calls i).body (serially sem calls start settled)).2 (fun j => (after.phase j).ongoing (calls j))) :
    ObservedRun memory sem guard visible calls start (settled ++ [i]) after := by
  have here : after.phase i = .running (.done value) := by rw [moved, Function.update_self]
  have there : forall j, j ≠ i -> after.phase j = config.phase j := by
    intro j different
    rw [moved, Function.update_of_ne different]
  have absent : i ∉ settled := by
    intro member
    have ended := (inv.settled_iff i).mp member
    rw [unsettled] at ended
    cases ended
  refine ⟨owned, ?_, ?_, ?_, ?_, ?_⟩
  · intro j result todo releasing
    by_cases same : j = i
    · rw [same, here] at releasing
      cases releasing
    · rw [there j same] at releasing
      exact inv.distinct j result todo releasing
  · intro j
    rw [List.mem_append, List.mem_singleton]
    by_cases same : j = i
    · subst same
      rw [here]
      exact ⟨fun _ => rfl, fun _ => .inr rfl⟩
    · rw [there j same, inv.settled_iff j]
      exact ⟨fun either => either.resolve_right same, .inl⟩
  · exact List.nodup_append.mpr ⟨inv.settled_nodup, List.nodup_singleton i, fun j member k single equal =>
      absent (by rw [← List.mem_singleton.mp single, ← equal]; exact member)⟩
  · intro j result ended
    rw [runEach_snoc, List.mem_append]
    by_cases same : j = i
    · subst same
      rw [here] at ended
      cases ended
      rw [answer]
      exact .inr (List.mem_singleton.mpr rfl)
    · rw [there j same] at ended
      exact .inl (inv.answers j result ended)
  · rw [serially_snoc]
    exact linked

/-- A call enters with all of its locks held. -/
theorem ObservedRun.enter (inv : ObservedRun memory sem guard visible calls start settled config)
    (orderly : (calls i).Orderly memory sem guard visible) (ready : config.phase i = .acquiring [])
    (moved : after.phase = Function.update config.phase i (.running (calls i).body))
    (owner : after.owner = config.owner) (shared : after.shared = config.shared) :
    ObservedRun memory sem guard visible calls start
      (settled ++ if (after.phase i).result?.isSome then [i] else []) after := by
  have here : after.phase i = .running (calls i).body := by rw [moved, Function.update_self]
  have there : forall j, j ≠ i -> after.phase j = config.phase j := by
    intro j different
    rw [moved, Function.update_of_ne different]
  have holding : forall lock, lock ∈ (calls i).locks -> (config.phase i).Holds (calls i) lock := by
    intro lock member
    rw [ready]
    exact ⟨member, List.not_mem_nil⟩
  have owned : Owned after.owner (fun j => (after.phase j).Holds (calls j)) := by
    rw [owner]
    refine inv.owned.keep (fun lock held => ?_) (fun j different => by rw [there j different])
    rw [here] at held
    exact holding lock held
  cases body : (calls i).body with
  | done value =>
      rw [here, body]
      have ran : sem.run (calls i).body (serially sem calls start settled) =
          (value, serially sem calls start settled) := by
        rw [body]
        rfl
      refine inv.settle (body ▸ moved) (by rw [ready]; rfl) (by rw [ran]) owned ?_
      have same : (fun j => (after.phase j).ongoing (calls j)) = fun j => (config.phase j).ongoing (calls j) := by
        funext j
        by_cases equal : j = i
        · rw [equal, here, ready, body]
          rfl
        · rw [there j equal]
      rw [shared, ran, same]
      exact inv.linked
  | call op next =>
      have same : settled ++ (if (after.phase i).result?.isSome then [i] else []) = settled := by
        rw [here, body]
        exact List.append_nil settled
      rw [same]
      refine inv.keep moved (by rw [body, ready]; rfl) (fun _ _ impossible => by cases impossible) owned ?_
      rw [shared]
      have absent : (config.phase i).ongoing (calls i) = none := by rw [ready]; rfl
      have begun : (after.phase i).ongoing (calls i) = some ⟨ρ, calls i, op, next⟩ := by
        rw [here, body]
        rfl
      refine inv.linked.enter absent orderly ?_ body begun (fun j different => by rw [there j different])
      intro j other found
      rcases Phase.ongoing_eq_some found with ⟨op, next, active, rfl⟩
      have different : i ≠ j := by
        rintro rfl
        rw [ready] at active
        cases active
      refine inv.owned.apart different holding (fun lock member => ?_)
      rw [active]
      exact member

/-- An operation of a call.  It is the last one, and the call joins the
sequential order, or the call goes on. -/
theorem ObservedRun.operate (inv : ObservedRun memory sem guard visible calls start settled config)
    {op : S.Op} {next : S.Result op -> Program S ρ} (running : config.phase i = .running (.call op next))
    (moved : after.phase = Function.update config.phase i (.running (next (sem.exec op config.shared).1)))
    (owner : after.owner = config.owner) (shared : after.shared = (sem.exec op config.shared).2) :
    ObservedRun memory sem guard visible calls start
      (settled ++ if (after.phase i).result?.isSome then [i] else []) after := by
  have here : after.phase i = .running (next (sem.exec op config.shared).1) := by rw [moved, Function.update_self]
  have there : forall j, j ≠ i -> after.phase j = config.phase j := by
    intro j different
    rw [moved, Function.update_of_ne different]
  have unsettled : (config.phase i).result? = none := by rw [running]; rfl
  have owned : Owned after.owner (fun j => (after.phase j).Holds (calls j)) := by
    rw [owner]
    refine inv.owned.keep (fun lock held => ?_) (fun j different => by rw [there j different])
    rw [here] at held
    rw [running]
    exact held
  have found : (config.phase i).ongoing (calls i) = some ⟨ρ, calls i, op, next⟩ := by rw [running]; rfl
  have others : forall j, j ≠ i -> (after.phase j).ongoing (calls j) = (config.phase j).ongoing (calls j) := by
    intro j different
    rw [there j different]
  cases rest : next (sem.exec op config.shared).1 with
  | done value =>
      rw [here, rest]
      have gone : (after.phase i).ongoing (calls i) = none := by rw [here, rest]; rfl
      rcases inv.linked.finish found rest gone others with ⟨answer, linked⟩
      exact inv.settle (rest ▸ moved) unsettled answer owned (shared ▸ linked)
  | call later continuation =>
      have same : settled ++ (if (after.phase i).result?.isSome then [i] else []) = settled := by
        rw [here, rest]
        exact List.append_nil settled
      have goes : (after.phase i).ongoing (calls i) = some ⟨ρ, calls i, later, continuation⟩ := by
        rw [here, rest]
        rfl
      rw [same]
      exact inv.keep moved (by rw [rest, unsettled]; rfl) (fun _ _ impossible => by cases impossible) owned
        (shared ▸ inv.linked.advance found rest goes others)

variable [DecidableEq L]

/-- Every step keeps the invariant; the call joins the sequential order when
its program ends. -/
theorem ObservedRun.step (inv : ObservedRun memory sem guard visible calls start settled config)
    (orderly : forall i, (calls i).Orderly memory sem guard visible)
    (stepped : config.step sem calls i = some after) :
    ObservedRun memory sem guard visible calls start
      (settled ++ if (config.phase i).result?.isNone ∧ (after.phase i).result?.isSome then [i] else []) after := by
  -- A step between lock phases does not end a program.
  have unended : forall {fresh : Phase S L ρ}, after.phase = Function.update config.phase i fresh ->
      fresh.result? = (config.phase i).result? ->
      ObservedRun memory sem guard visible calls start settled after ->
      ObservedRun memory sem guard visible calls start
        (settled ++ if (config.phase i).result?.isNone ∧ (after.phase i).result?.isSome then [i] else []) after := by
    intro fresh moved sameResult kept
    have same : (after.phase i).result? = (config.phase i).result? := by
      rw [moved, Function.update_self, sameResult]
    rw [same, if_neg (fun both => by cases result : (config.phase i).result? <;> simp [result] at both),
      List.append_nil]
    exact kept
  have ending : (config.phase i).result? = none ->
      (settled ++ if (config.phase i).result?.isNone ∧ (after.phase i).result?.isSome then [i] else []) =
        settled ++ if (after.phase i).result?.isSome then [i] else [] := by
    intro unsettled
    simp [unsettled]
  have others : forall {fresh : Phase S L ρ}, after.phase = Function.update config.phase i fresh ->
      forall j, j ≠ i -> (after.phase j).Holds (calls j) = (config.phase j).Holds (calls j) := by
    intro fresh moved j different
    rw [moved, Function.update_of_ne different]
  cases phase : config.phase i with
  | idle =>
      simp only [Config.step, phase] at stepped
      cases stepped
      rw [← phase]
      refine unended rfl (by rw [phase]; rfl) (inv.relabel rfl rfl (by rw [phase]; rfl) (by rw [phase]; rfl)
        (fun _ _ impossible => by cases impossible) (inv.owned.keep (fun lock held => ?_) (others rfl)))
      simp only [Config.setPhase, Function.update_self] at held
      exact False.elim (held.2 held.1)
  | acquiring todo =>
      cases todo with
      | nil =>
          simp only [Config.step, phase] at stepped
          cases stepped
          rw [← phase, ending (by rw [phase]; rfl)]
          exact inv.enter (orderly i) phase rfl rfl rfl
      | cons lock todo =>
          simp only [Config.step, phase] at stepped
          by_cases free : config.owner lock = none
          · rw [if_pos free] at stepped
            cases stepped
            rw [← phase]
            refine unended rfl (by rw [phase]; rfl) (inv.relabel rfl rfl (by rw [phase]; rfl) (by rw [phase]; rfl)
              (fun _ _ impossible => by cases impossible) (inv.owned.take free (fun wanted held other => ?_) (others rfl)))
            simp only [Config.setPhase, Function.update_self] at held
            rw [phase]
            exact ⟨held.1, fun listed => (List.mem_cons.mp listed).elim other held.2⟩
          · rw [if_neg free] at stepped
            cases stepped
  | running rest =>
      cases rest with
      | call op next =>
          simp only [Config.step, phase] at stepped
          cases stepped
          rw [← phase, ending (by rw [phase]; rfl)]
          exact inv.operate phase rfl rfl rfl
      | done result =>
          simp only [Config.step, phase] at stepped
          cases stepped
          rw [← phase]
          refine unended rfl (by rw [phase]; rfl) (inv.relabel rfl rfl (by rw [phase]; rfl) (by rw [phase]; rfl) ?_
            (inv.owned.keep (fun lock held => ?_) (others rfl)))
          · intro _ _ releasing
            cases releasing
            exact (calls i).nodup
          · simp only [Config.setPhase, Function.update_self] at held
            rw [phase]
            exact held
  | releasing result todo =>
      have distinct := inv.distinct i result todo phase
      cases todo with
      | nil =>
          simp only [Config.step, phase] at stepped
          cases stepped
          rw [← phase]
          refine unended rfl (by rw [phase]; rfl) (inv.relabel rfl rfl (by rw [phase]; rfl) (by rw [phase]; rfl)
            (fun _ _ impossible => by cases impossible) (inv.owned.keep (fun lock held => ?_) (others rfl)))
          simp only [Config.setPhase, Function.update_self] at held
          exact False.elim held
      | cons lock todo =>
          simp only [Config.step, phase] at stepped
          cases stepped
          have mine : (config.phase i).Holds (calls i) lock := by rw [phase]; exact List.mem_cons_self
          rw [← phase]
          refine unended rfl (by rw [phase]; rfl) (inv.relabel rfl rfl (by rw [phase]; rfl) (by rw [phase]; rfl) ?_
            (inv.owned.drop mine (fun wanted held => ?_) (others rfl)))
          · intro _ _ releasing
            cases releasing
            exact (List.nodup_cons.mp distinct).2
          · simp only [Config.setPhase, Function.update_self] at held
            have listed : wanted ∈ todo := held
            refine ⟨fun same => (List.nodup_cons.mp distinct).1 (same ▸ listed), ?_⟩
            rw [phase]
            exact List.mem_cons_of_mem lock listed
  | finished result =>
      simp only [Config.step, phase] at stepped
      cases stepped

/-- The invariant along a schedule. -/
theorem ObservedRun.execute (inv : ObservedRun memory sem guard visible calls start settled config)
    (orderly : forall i, (calls i).Orderly memory sem guard visible) {schedule : List ι}
    (run : Config.execute sem calls config schedule = some after) :
    ObservedRun memory sem guard visible calls start (settled ++ Config.settling sem calls config schedule) after := by
  induction schedule generalizing config settled with
  | nil =>
      cases run
      rw [Config.settling, List.append_nil]
      exact inv
  | cons i rest ih =>
      simp only [Config.execute] at run
      cases stepped : config.step sem calls i with
      | none => rw [stepped] at run; cases run
      | some middle =>
          rw [stepped] at run
          have later := ih (inv.step orderly stepped) run
          simp only [Config.settling, stepped]
          split at later
          next ended => rwa [if_pos ended, ← List.singleton_append, ← List.append_assoc]
          next unended => rwa [if_neg unended, ← List.append_nil settled]

theorem Config.observedRun (orderly : forall i, (calls i).Orderly memory sem guard visible) {schedule : List ι}
    (run : Config.execute sem calls (Config.initial start) schedule = some config) :
    ObservedRun memory sem guard visible calls start
      (Config.settling sem calls (Config.initial start) schedule) config :=
  (ObservedRun.initial calls start).execute orderly run

/-- A call that answered before another one was invoked ended before it. -/
theorem Config.settling_precedes (orderly : forall i, (calls i).Orderly memory sem guard visible) {j : ι}
    {schedule : List ι} (run : Config.execute sem calls (Config.initial start) schedule = some config)
    (earlier : Config.Before sem calls (Config.initial start) schedule i j)
    (member : j ∈ Config.settling sem calls (Config.initial start) schedule) :
    Precedes (Config.settling sem calls (Config.initial start) schedule) i j := by
  rcases earlier with ⟨before, rest, middle, result, rfl, reached, answered, uninvoked⟩
  have inv := Config.observedRun orderly reached
  have present : i ∈ Config.settling sem calls (Config.initial start) before :=
    (inv.settled_iff i).mpr (by rw [answered]; rfl)
  have absent : j ∉ Config.settling sem calls (Config.initial start) before := by
    intro ended
    have impossible := (inv.settled_iff j).mp ended
    rw [uninvoked] at impossible
    cases impossible
  rw [Config.settling_append reached] at member ⊢
  exact ⟨_, _, rfl, present, (List.mem_append.mp member).resolve_left absent⟩

/-- Locked calls and unlocked observations together are linearizable. -/
theorem Config.linearizable_observed (orderly : forall i, (calls i).Orderly memory sem guard visible)
    {schedule : List ι} (run : Config.execute sem calls (Config.initial start) schedule = some config)
    (quiet : config.Quiescent) :
    Exists fun order : List ι =>
      order.Nodup ∧
      (forall i, i ∈ order ↔ Exists fun result => config.phase i = .finished result) ∧
      (sem.runEach (fun i => (calls i).body) order start).2 = config.shared ∧
      (forall i result, config.phase i = .finished result ->
        (i, result) ∈ (sem.runEach (fun i => (calls i).body) order start).1) ∧
      forall i j, j ∈ order -> Config.Before sem calls (Config.initial start) schedule i j -> Precedes order i j := by
  have inv := Config.observedRun orderly run
  refine ⟨_, inv.settled_nodup, ?_, ?_, ?_, fun i j member earlier =>
    Config.settling_precedes orderly run earlier member⟩
  · intro i
    rw [inv.settled_iff]
    rcases quiet i with idle | ⟨result, finished⟩
    · rw [idle]
      constructor
      · intro impossible
        cases impossible
      · rintro ⟨_, impossible⟩
        cases impossible
    · rw [finished]
      exact ⟨fun _ => ⟨result, rfl⟩, fun _ => rfl⟩
  · refine (inv.linked.eq_of_quiet (fun i => ?_)).symm
    rcases quiet i with idle | ⟨result, finished⟩
    · rw [idle]
      rfl
    · rw [finished]
      rfl
  · intro i result finished
    exact inv.answers i result (by rw [finished]; rfl)

end Observed
end Effect
