import Keydock.Foundation.Interleaving

/-!
# Runs under a condition

Programs that interleave without a common lock keep an invariant only in runs
whose steps meet some condition.  The condition on a step may depend on the
configuration before it and on the shared state in which its caller took the
step before: that is what the caller last observed.

What a caller may still do is read off what remains of its program.
-/

namespace Effect

variable {S : Signature} {σ ι L ρ α : Type}

namespace Program

/-- A property of every operation a program can reach, together with what
follows the operation. -/
def Every (property : (op : S.Op) -> (S.Result op -> Program S α) -> Prop) : Program S α -> Prop
  | .done _ => True
  | .call op next => property op next ∧ forall result, Every property (next result)

/-- Every path to a result in the goal performs a marked operation. -/
def Through (mark : S.Op -> Prop) (goal : α -> Prop) : Program S α -> Prop
  | .done value => ¬ goal value
  | .call op next => mark op ∨ forall result, Through mark goal (next result)

variable {β : Type}

theorem Every.bind {property : (op : S.Op) -> (S.Result op -> Program S α) -> Prop}
    {extended : (op : S.Op) -> (S.Result op -> Program S β) -> Prop} {program : Program S α}
    {next : α -> Program S β} (first : program.Every property)
    (extend : forall op rest, property op rest -> extended op (fun result => rest result >>= next))
    (later : forall value, (next value).Every extended) : (program >>= next).Every extended := by
  induction program with
  | done value => exact later value
  | call op rest ih => exact ⟨extend op rest first.1, fun result => ih result (first.2 result)⟩

theorem Every.mono {property weaker : (op : S.Op) -> (S.Result op -> Program S α) -> Prop}
    {program : Program S α} (every : program.Every property)
    (weaken : forall op rest, property op rest -> weaker op rest) : program.Every weaker := by
  induction program with
  | done value => trivial
  | call op rest ih => exact ⟨weaken op rest every.1, fun result => ih result (every.2 result)⟩

end Program

namespace Config

/-- What remains of a caller's program. -/
def remaining (calls : ι -> Call S L ρ) (config : Config S σ ι L ρ) (i : ι) : Program S ρ :=
  (config.phase i).residual (calls i)

theorem remaining_running {calls : ι -> Call S L ρ} {config : Config S σ ι L ρ} {i : ι} {rest : Program S ρ}
    (running : config.phase i = .running rest) : config.remaining calls i = rest := by
  rw [remaining, running]
  rfl

theorem remaining_finished {calls : ι -> Call S L ρ} {config : Config S σ ι L ρ} {i : ι} {result : ρ}
    (finished : config.phase i = .finished result) : config.remaining calls i = .done result := by
  rw [remaining, finished]
  rfl

variable [DecidableEq ι]
variable {sem : Semantics S σ} {calls : ι -> Call S L ρ} {config after : Config S σ ι L ρ} {i : ι}

theorem remaining_setPhase_of_ne {phase : Phase S L ρ} {j : ι} (different : j ≠ i) :
    (config.setPhase i phase).remaining calls j = config.remaining calls j := by
  have same : (config.setPhase i phase).phase j = config.phase j := Function.update_of_ne different _ _
  rw [remaining, same]
  rfl

theorem remaining_setPhase_of_residual {phase : Phase S L ρ}
    (same : phase.residual (calls i) = (config.phase i).residual (calls i)) (j : ι) :
    (config.setPhase i phase).remaining calls j = config.remaining calls j := by
  by_cases here : j = i
  · subst here
    have updated : (config.setPhase j phase).phase j = phase := Function.update_self _ _ _
    rw [remaining, updated]
    exact same
  · exact remaining_setPhase_of_ne here

variable [DecidableEq L]

/-- A step performs the next operation of its caller, or it changes neither
the shared state nor what remains of any program, because the caller has not
begun or is done. -/
theorem step_cases (stepped : config.step sem calls i = some after) :
    (after.shared = config.shared ∧ (forall j, after.remaining calls j = config.remaining calls j) ∧
      (config.remaining calls i = (calls i).body ∨
        Exists fun result => config.remaining calls i = .done result)) ∨
    (Exists fun op => Exists fun next => config.phase i = .running (.call op next) ∧
      after.shared = (sem.exec op config.shared).2 ∧
      after.remaining calls i = next (sem.exec op config.shared).1 ∧
      forall j, j ≠ i -> after.remaining calls j = config.remaining calls j) := by
  cases phase : config.phase i with
  | idle =>
      simp only [step, phase] at stepped
      cases stepped
      refine .inl ⟨rfl, remaining_setPhase_of_residual (by rw [phase]; rfl), ?_⟩
      exact .inl (by rw [remaining, phase]; rfl)
  | acquiring todo =>
      cases todo with
      | nil =>
          simp only [step, phase] at stepped
          cases stepped
          refine .inl ⟨rfl, remaining_setPhase_of_residual (by rw [phase]; rfl), ?_⟩
          exact .inl (by rw [remaining, phase]; rfl)
      | cons lock todo =>
          simp only [step, phase] at stepped
          split at stepped
          · cases stepped
            refine .inl ⟨rfl, remaining_setPhase_of_residual (by rw [phase]; rfl), ?_⟩
            exact .inl (by rw [remaining, phase]; rfl)
          · cases stepped
  | running rest =>
      cases rest with
      | call op next =>
          simp only [step, phase] at stepped
          cases stepped
          refine .inr ⟨op, next, rfl, rfl, ?_, fun j different => remaining_setPhase_of_ne different⟩
          exact remaining_running (Function.update_self i _ config.phase)
      | done result =>
          simp only [step, phase] at stepped
          cases stepped
          refine .inl ⟨rfl, remaining_setPhase_of_residual (by rw [phase]; rfl), ?_⟩
          exact .inr ⟨result, by rw [remaining, phase]; rfl⟩
  | releasing result todo =>
      cases todo with
      | nil =>
          simp only [step, phase] at stepped
          cases stepped
          refine .inl ⟨rfl, remaining_setPhase_of_residual (by rw [phase]; rfl), ?_⟩
          exact .inr ⟨result, by rw [remaining, phase]; rfl⟩
      | cons lock todo =>
          simp only [step, phase] at stepped
          cases stepped
          refine .inl ⟨rfl, remaining_setPhase_of_residual (by rw [phase]; rfl), ?_⟩
          exact .inr ⟨result, by rw [remaining, phase]; rfl⟩
  | finished result =>
      simp only [step, phase] at stepped
      cases stepped

/-- A program that is done stays done. -/
theorem remaining_done {j : ι} {result : ρ} (done : config.remaining calls j = .done result)
    (stepped : config.step sem calls i = some after) : after.remaining calls j = .done result := by
  rcases step_cases stepped with ⟨_, same, _⟩ | ⟨op, next, running, _, _, others⟩
  · rw [same]
    exact done
  · by_cases here : j = i
    · subst here
      rw [remaining_running running] at done
      cases done
    · rw [others j here]
      exact done

/-- What holds of everything a program can reach still holds of what remains. -/
theorem step_every {property : ι -> (op : S.Op) -> (S.Result op -> Program S ρ) -> Prop}
    (every : forall j, (config.remaining calls j).Every (property j))
    (stepped : config.step sem calls i = some after) (j : ι) : (after.remaining calls j).Every (property j) := by
  rcases step_cases stepped with ⟨_, same, _⟩ | ⟨op, next, running, _, rest, others⟩
  · rw [same]
    exact every j
  · by_cases here : j = i
    · subst here
      have whole := every j
      rw [remaining_running running] at whole
      rw [rest]
      exact whole.2 _
    · rw [others j here]
      exact every j

/-- Every step of a schedule meets a condition.  The second argument is what
each caller last observed. -/
def Along (sem : Semantics S σ) (calls : ι -> Call S L ρ) (condition : Config S σ ι L ρ -> ι -> σ -> Prop) :
    (ι -> σ) -> Config S σ ι L ρ -> List ι -> Prop
  | _, _, [] => True
  | seen, config, i :: rest =>
      condition config i (seen i) ∧
        match config.step sem calls i with
        | none => True
        | some after => Along sem calls condition (Function.update seen i config.shared) after rest

instance decidableAlong (sem : Semantics S σ) (calls : ι -> Call S L ρ)
    (condition : Config S σ ι L ρ -> ι -> σ -> Prop)
    [forall config i last, Decidable (condition config i last)] :
    (seen : ι -> σ) -> (config : Config S σ ι L ρ) -> (schedule : List ι) ->
      Decidable (Along sem calls condition seen config schedule)
  | _, _, [] => .isTrue trivial
  | seen, config, i :: rest =>
      match stepped : config.step sem calls i with
      | none => decidable_of_iff (condition config i (seen i)) (by simp only [Along, stepped, and_true])
      | some after =>
          have := decidableAlong sem calls condition (Function.update seen i config.shared) after rest
          decidable_of_iff
            (condition config i (seen i) ∧
              Along sem calls condition (Function.update seen i config.shared) after rest)
            (by simp only [Along, stepped])

variable {condition : Config S σ ι L ρ -> ι -> σ -> Prop} {seen : ι -> σ}

/-- A property kept by every step that meets the condition holds at the end of
a schedule along which all steps do. -/
theorem Along.preserves (good : (ι -> σ) -> Config S σ ι L ρ -> Prop)
    (kept : forall seen config i after, good seen config -> condition config i (seen i) ->
      config.step sem calls i = some after -> good (Function.update seen i config.shared) after)
    {schedule : List ι} (along : Along sem calls condition seen config schedule) (start : good seen config)
    (run : execute sem calls config schedule = some after) : Exists fun last => good last after := by
  induction schedule generalizing config seen with
  | nil =>
      cases run
      exact ⟨seen, start⟩
  | cons i rest ih =>
      simp only [execute] at run
      cases stepped : config.step sem calls i with
      | none => rw [stepped] at run; cases run
      | some middle =>
          rw [stepped] at run
          have met := along.1
          have later := along.2
          rw [stepped] at later
          exact ih later (kept seen config i middle start met stepped) run

/-- The condition holds along the rest of a schedule. -/
theorem Along.right {first second : List ι} (along : Along sem calls condition seen config (first ++ second))
    (run : execute sem calls config first = some after) :
    Exists fun last => Along sem calls condition last after second := by
  induction first generalizing config seen with
  | nil =>
      cases run
      exact ⟨seen, along⟩
  | cons i rest ih =>
      simp only [execute] at run
      cases stepped : config.step sem calls i with
      | none => rw [stepped] at run; cases run
      | some middle =>
          rw [stepped] at run
          have later := along.2
          rw [stepped] at later
          exact ih later run

theorem Along.left {first second : List ι} (along : Along sem calls condition seen config (first ++ second)) :
    Along sem calls condition seen config first := by
  induction first generalizing config seen with
  | nil => trivial
  | cons i rest ih =>
      refine ⟨along.1, ?_⟩
      have later := along.2
      cases stepped : config.step sem calls i with
      | none => trivial
      | some middle =>
          rw [stepped] at later
          exact ih later

end Config
end Effect
