import Keydock.Foundation.Conditions

/-!
# Simulation between two meanings

One signature may have two meanings, over two kinds of states: the one that is
implemented and the one that says what the implementation is for.  A relation
between the states carries the comparison.  A program is simulated when, on
every path that can be taken from related states, the two meanings give equal
results and keep the states related.

Programs that are simulated on their own are simulated together: a schedule
moves both sides through the same phases, however the programs interleave.
-/

namespace Effect

variable {S : Signature} {σ τ α ι L ρ : Type}

namespace Semantics

variable (sem : Semantics S σ) (other : Semantics S τ) (related : σ -> τ -> Prop)

/-- In related states both meanings give equal results and related states. -/
def Matches (op : S.Op) : Prop :=
  forall state image, related state image ->
    (sem.exec op state).1 = (other.exec op image).1 ∧ related (sem.exec op state).2 (other.exec op image).2

/-- Both meanings agree along every path that related states can take. -/
def Simulated : Program S α -> Prop
  | .done _ => True
  | .call op next => forall state image, related state image ->
      (sem.exec op state).1 = (other.exec op image).1 ∧ related (sem.exec op state).2 (other.exec op image).2 ∧
        Simulated (next (sem.exec op state).1)

variable {sem other related} {program : Program S α}

theorem Simulated.of_every (every : program.Every (fun op _ => sem.Matches other related op)) :
    sem.Simulated other related program := by
  induction program with
  | done value => trivial
  | call op next ih =>
      intro state image linked
      rcases every.1 state image linked with ⟨result, after⟩
      exact ⟨result, after, ih _ (every.2 _)⟩

theorem Simulated.run (simulated : sem.Simulated other related program) {state : σ} {image : τ}
    (linked : related state image) :
    (sem.run program state).1 = (other.run program image).1 ∧
      related (sem.run program state).2 (other.run program image).2 := by
  induction program generalizing state image with
  | done value => exact ⟨rfl, linked⟩
  | call op next ih =>
      rcases simulated state image linked with ⟨result, after, rest⟩
      rw [run_call, run_call, ← result]
      exact ih _ rest after

end Semantics

/-! ## Interleavings -/

namespace Config

/-- The same configuration over another shared state. -/
def mirror (config : Config S σ ι L ρ) (image : τ) : Config S τ ι L ρ where
  shared := image
  owner := config.owner
  phase := config.phase
  entered := config.entered

variable [DecidableEq ι] [DecidableEq L]
variable {sem : Semantics S σ} {other : Semantics S τ} {related : σ -> τ -> Prop} {calls : ι -> Call S L ρ}
variable {config after : Config S σ ι L ρ} {i : ι}

/-- What remains of every program is simulated. -/
def Simulated (sem : Semantics S σ) (other : Semantics S τ) (related : σ -> τ -> Prop) (calls : ι -> Call S L ρ)
    (config : Config S σ ι L ρ) : Prop :=
  forall i, sem.Simulated other related (config.remaining calls i)

/-- A step on one side is the same step on the other. -/
theorem Simulated.step (simulated : config.Simulated sem other related calls) {image : τ}
    (linked : related config.shared image) (stepped : config.step sem calls i = some after) :
    Exists fun imageAfter => (config.mirror image).step other calls i = some (after.mirror imageAfter) ∧
      related after.shared imageAfter ∧ after.Simulated sem other related calls := by
  -- A step without an operation leaves the shared state and the programs as they are.
  have quiet : after.shared = config.shared -> (forall j, after.remaining calls j = config.remaining calls j) ->
      (config.mirror image).step other calls i = some (after.mirror image) ->
      Exists fun imageAfter => (config.mirror image).step other calls i = some (after.mirror imageAfter) ∧
        related after.shared imageAfter ∧ after.Simulated sem other related calls := by
    intro still same moved
    refine ⟨image, moved, still ▸ linked, fun j => ?_⟩
    rw [same]
    exact simulated j
  cases phase : config.phase i with
  | idle =>
      simp only [Config.step, phase] at stepped
      cases stepped
      refine quiet rfl (remaining_setPhase_of_residual (by rw [phase]; rfl)) ?_
      simp only [Config.step, mirror, phase, setPhase]
  | acquiring todo =>
      cases todo with
      | nil =>
          simp only [Config.step, phase] at stepped
          cases stepped
          refine quiet rfl (remaining_setPhase_of_residual (by rw [phase]; rfl)) ?_
          simp only [Config.step, mirror, phase, setPhase]
      | cons lock todo =>
          simp only [Config.step, phase] at stepped
          split at stepped
          next free =>
            cases stepped
            refine quiet rfl (remaining_setPhase_of_residual (by rw [phase]; rfl)) ?_
            simp only [Config.step, mirror, phase, setPhase]
            exact if_pos free
          next => cases stepped
  | running rest =>
      cases rest with
      | call op next =>
          simp only [Config.step, phase] at stepped
          cases stepped
          have mine := simulated i
          rw [remaining_running phase] at mine
          rcases mine config.shared image linked with ⟨result, linkedAfter, later⟩
          refine ⟨(other.exec op image).2, ?_, linkedAfter, fun j => ?_⟩
          · simp only [Config.step, mirror, phase, setPhase, result]
          · by_cases here : j = i
            · subst here
              rw [remaining_running (Function.update_self j _ config.phase)]
              exact later
            · have untouched := simulated j
              rw [← remaining_setPhase_of_ne here] at untouched
              exact untouched
      | done result =>
          simp only [Config.step, phase] at stepped
          cases stepped
          refine quiet rfl (remaining_setPhase_of_residual (by rw [phase]; rfl)) ?_
          simp only [Config.step, mirror, phase, setPhase]
  | releasing result todo =>
      cases todo with
      | nil =>
          simp only [Config.step, phase] at stepped
          cases stepped
          refine quiet rfl (remaining_setPhase_of_residual (by rw [phase]; rfl)) ?_
          simp only [Config.step, mirror, phase, setPhase]
      | cons lock todo =>
          simp only [Config.step, phase] at stepped
          cases stepped
          refine quiet rfl (remaining_setPhase_of_residual (by rw [phase]; rfl)) ?_
          simp only [Config.step, mirror, phase, setPhase]
  | finished result =>
      simp only [Config.step, phase] at stepped
      cases stepped

/-- A schedule on one side is the same schedule on the other. -/
theorem Simulated.execute (simulated : config.Simulated sem other related calls) {image : τ}
    (linked : related config.shared image) {schedule : List ι}
    (run : Config.execute sem calls config schedule = some after) :
    Exists fun imageAfter => Config.execute other calls (config.mirror image) schedule = some (after.mirror imageAfter) ∧
      related after.shared imageAfter := by
  induction schedule generalizing config image with
  | nil =>
      cases run
      exact ⟨image, rfl, linked⟩
  | cons i rest ih =>
      simp only [Config.execute] at run
      cases stepped : config.step sem calls i with
      | none => rw [stepped] at run; cases run
      | some middle =>
          rw [stepped] at run
          rcases simulated.step linked stepped with ⟨imageMiddle, moved, linkedMiddle, later⟩
          rcases ih later linkedMiddle run with ⟨imageAfter, finished, linkedAfter⟩
          refine ⟨imageAfter, ?_, linkedAfter⟩
          simp only [Config.execute, moved]
          exact finished

/-- Simulated calls interleave alike from related states. -/
theorem execute_simulated (simulated : forall i, sem.Simulated other related (calls i).body) {start : σ} {image : τ}
    (linked : related start image) {schedule : List ι}
    (run : Config.execute sem calls (Config.initial start) schedule = some config) :
    Exists fun imageAfter =>
      Config.execute other calls (Config.initial image) schedule = some (config.mirror imageAfter) ∧
        related config.shared imageAfter :=
  have begun : (Config.initial start : Config S σ ι L ρ).Simulated sem other related calls := simulated
  begun.execute linked run

/-- Real time is the same on both sides. -/
theorem before_simulated (simulated : forall i, sem.Simulated other related (calls i).body) {start : σ} {image : τ}
    (linked : related start image) {schedule : List ι} {j : ι}
    (earlier : Config.Before sem calls (Config.initial start) schedule i j) :
    Config.Before other calls (Config.initial image) schedule i j := by
  rcases earlier with ⟨before, later, middle, result, split, reached, finished, idle⟩
  rcases execute_simulated simulated linked reached with ⟨imageMiddle, moved, _⟩
  exact ⟨before, later, _, result, split, moved, finished, idle⟩

end Config
end Effect
