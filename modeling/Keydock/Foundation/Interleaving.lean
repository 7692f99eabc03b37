import Keydock.Foundation.Program
import Mathlib.Data.List.Nodup
import Mathlib.Data.List.Infix

/-!
# Interleaved execution under locks

A call acquires its locks one at a time, runs its program, releases the locks
one at a time and then answers.  A schedule is any list of callers; each entry
lets that caller take its next step, and a step on an occupied lock is not
possible.  Nothing is assumed about fairness or about the number of callers.

The main result is that locking suffices for linearizability.  Assume that
every location of the state has a guarding lock and that a program only reads
and writes locations whose locks its call holds.  Then every interleaving has
the same final state and the same answers as running the calls one after
another, in the order in which they finished acquiring their locks.  That
order extends real time: a call that answered before another was invoked
precedes it.

The invariant of the proof compares two sequential runs over the calls that
have entered: their whole programs from the initial state, and what is left of
their programs from the current state.  An operation of one call moves to the
front of the second run because the remaining programs of the calls before it
are guarded by other locks.
-/

namespace Effect

variable {S : Signature} {σ ι L ρ Loc Val : Type}

/-! ## Locations and confined programs -/

/-- A state is determined by the contents of its locations. -/
structure Memory (σ Loc Val : Type) where
  read : σ -> Loc -> Val
  ext : forall {left right : σ}, (forall x, read left x = read right x) -> left = right

namespace Memory

/-- Two states agree on a set of locations. -/
def Agree (memory : Memory σ Loc Val) (region : Loc -> Prop) (left right : σ) : Prop :=
  forall x, region x -> memory.read left x = memory.read right x

/-- An operation that reads and writes only inside a region. -/
structure Confined (memory : Memory σ Loc Val) (sem : Semantics S σ)
    (region : Loc -> Prop) (op : S.Op) : Prop where
  result : forall left right, memory.Agree region left right ->
    (sem.exec op left).1 = (sem.exec op right).1
  frame : forall state x, ¬ region x ->
    memory.read (sem.exec op state).2 x = memory.read state x
  effect : forall left right, memory.Agree region left right ->
    memory.Agree region (sem.exec op left).2 (sem.exec op right).2

/-- Every operation a program can reach is confined to the region. -/
def ConfinedProgram (memory : Memory σ Loc Val) (sem : Semantics S σ)
    (region : Loc -> Prop) : Program S ρ -> Prop
  | .done _ => True
  | .call op next => memory.Confined sem region op ∧
      forall result, ConfinedProgram memory sem region (next result)

variable {memory : Memory σ Loc Val} {sem : Semantics S σ} {region other : Loc -> Prop}

theorem ConfinedProgram.bind {τ : Type} {program : Program S ρ} {next : ρ -> Program S τ}
    (first : memory.ConfinedProgram sem region program)
    (rest : forall value, memory.ConfinedProgram sem region (next value)) :
    memory.ConfinedProgram sem region (program >>= next) := by
  induction program with
  | done value => exact rest value
  | call op continuation ih => exact ⟨first.1, fun result => ih result (first.2 result)⟩

theorem ConfinedProgram.exceptBind {τ ε : Type} {program : ExceptT ε (Program S) ρ}
    {next : ρ -> ExceptT ε (Program S) τ} (first : memory.ConfinedProgram sem region program.run)
    (rest : forall value, memory.ConfinedProgram sem region (next value).run) :
    memory.ConfinedProgram sem region (program >>= next).run := by
  rw [ExceptT.run_bind]
  refine first.bind (fun outcome => ?_)
  cases outcome with
  | ok value => exact rest value
  | error error => exact trivial

theorem Confined.agree_of_disjoint {op : S.Op} (confined : memory.Confined sem other op)
    (disjoint : forall x, region x -> ¬ other x) (state : σ) :
    memory.Agree region (sem.exec op state).2 state :=
  fun x inside => confined.frame state x (disjoint x inside)

/-- Operations on disjoint regions commute. -/
theorem Confined.comm {first second : S.Op} (confined : memory.Confined sem region first)
    (confinedOther : memory.Confined sem other second)
    (disjoint : forall x, region x -> ¬ other x) (state : σ) :
    (sem.exec first (sem.exec second state).2).2 =
      (sem.exec second (sem.exec first state).2).2 := by
  apply memory.ext
  intro x
  by_cases inside : region x
  · rw [confined.effect _ _ (confinedOther.agree_of_disjoint disjoint state) x inside,
      confinedOther.frame _ x (disjoint x inside)]
  · have swapped : forall y, other y -> ¬ region y := fun y hOther hRegion => disjoint y hRegion hOther
    rw [confined.frame _ x inside]
    by_cases outside : other x
    · exact (confinedOther.effect _ _ (confined.agree_of_disjoint swapped state) x outside).symm
    · rw [confinedOther.frame _ x outside, confinedOther.frame _ x outside,
        confined.frame _ x inside]

/-- An operation may be moved in front of a program confined to a disjoint
region: both results and the final state are the same. -/
theorem ConfinedProgram.run_exec {program : Program S ρ} {op : S.Op}
    (confinedProgram : memory.ConfinedProgram sem other program)
    (confined : memory.Confined sem region op)
    (disjoint : forall x, region x -> ¬ other x) (state : σ) :
    sem.run program (sem.exec op state).2 =
        ((sem.run program state).1, (sem.exec op (sem.run program state).2).2) ∧
      (sem.exec op (sem.run program state).2).1 = (sem.exec op state).1 := by
  induction program generalizing state with
  | done value => exact ⟨rfl, rfl⟩
  | call head next ih =>
      have swapped : forall y, other y -> ¬ region y := fun y hOther hRegion => disjoint y hRegion hOther
      have sameResult := confinedProgram.1.result _ _ (confined.agree_of_disjoint swapped state)
      have sameOther := confined.result _ _ (confinedProgram.1.agree_of_disjoint disjoint state)
      have swap := confined.comm confinedProgram.1 disjoint state
      have rest := ih (sem.exec head state).1 (confinedProgram.2 _) (sem.exec head state).2
      rw [Semantics.run_call, Semantics.run_call, sameResult, ← swap]
      exact ⟨rest.1, rest.2.trans sameOther⟩

end Memory

/-! ## Calls, phases and schedules -/

/-- A call with the locks it takes, in the order in which it takes them. -/
structure Call (S : Signature) (L ρ : Type) where
  locks : List L
  nodup : locks.Nodup
  body : Program S ρ

/-- Where a call stands. -/
inductive Phase (S : Signature) (L ρ : Type)
  | idle
  | acquiring (todo : List L)
  | running (rest : Program S ρ)
  | releasing (result : ρ) (todo : List L)
  | finished (result : ρ)

namespace Phase

/-- The locks a call holds in a phase. -/
def Holds (call : Call S L ρ) : Phase S L ρ -> L -> Prop
  | .idle, _ => False
  | .acquiring todo, lock => lock ∈ call.locks ∧ lock ∉ todo
  | .running _, lock => lock ∈ call.locks
  | .releasing _ todo, lock => lock ∈ todo
  | .finished _, _ => False

/-- Whether the call has acquired all of its locks. -/
def Entered : Phase S L ρ -> Prop
  | .idle | .acquiring _ => False
  | .running _ | .releasing _ _ | .finished _ => True

/-- What remains of a call's program. -/
def residual (call : Call S L ρ) : Phase S L ρ -> Program S ρ
  | .idle | .acquiring _ => call.body
  | .running rest => rest
  | .releasing result _ | .finished result => .done result

@[simp] theorem residual_running (call : Call S L ρ) (rest : Program S ρ) :
    (Phase.running rest).residual call = rest := rfl

end Phase

/-- A configuration.  The field `entered` is a history variable: the calls in
the order in which they finished acquiring their locks.  No step reads it. -/
structure Config (S : Signature) (σ ι L ρ : Type) where
  shared : σ
  owner : L -> Option ι
  phase : ι -> Phase S L ρ
  entered : List ι

namespace Config

def initial (state : σ) : Config S σ ι L ρ where
  shared := state
  owner := fun _ => none
  phase := fun _ => .idle
  entered := []

variable [DecidableEq ι] [DecidableEq L]

def setPhase (config : Config S σ ι L ρ) (i : ι) (phase : Phase S L ρ) : Config S σ ι L ρ :=
  { config with phase := Function.update config.phase i phase }

/-- The next step of caller `i`, when there is one. -/
def step (sem : Semantics S σ) (calls : ι -> Call S L ρ) (config : Config S σ ι L ρ)
    (i : ι) : Option (Config S σ ι L ρ) :=
  match config.phase i with
  | .idle => some (config.setPhase i (.acquiring (calls i).locks))
  | .acquiring [] =>
      some { config.setPhase i (.running (calls i).body) with entered := config.entered ++ [i] }
  | .acquiring (lock :: todo) =>
      if config.owner lock = none then
        some { config.setPhase i (.acquiring todo) with
          owner := Function.update config.owner lock (some i) }
      else none
  | .running (.call op next) =>
      some { config.setPhase i (.running (next (sem.exec op config.shared).1)) with
        shared := (sem.exec op config.shared).2 }
  | .running (.done result) => some (config.setPhase i (.releasing result (calls i).locks))
  | .releasing result [] => some (config.setPhase i (.finished result))
  | .releasing result (lock :: todo) =>
      some { config.setPhase i (.releasing result todo) with
        owner := Function.update config.owner lock none }
  | .finished _ => none

/-- Follow a schedule. -/
def execute (sem : Semantics S σ) (calls : ι -> Call S L ρ) :
    Config S σ ι L ρ -> List ι -> Option (Config S σ ι L ρ)
  | config, [] => some config
  | config, i :: rest =>
      match config.step sem calls i with
      | none => none
      | some after => execute sem calls after rest

theorem execute_append (sem : Semantics S σ) (calls : ι -> Call S L ρ)
    (config : Config S σ ι L ρ) (first second : List ι) :
    execute sem calls config (first ++ second) =
      (execute sem calls config first).bind (fun middle => execute sem calls middle second) := by
  induction first generalizing config with
  | nil => rfl
  | cons i rest ih =>
      simp only [List.cons_append, execute]
      cases config.step sem calls i with
      | none => rfl
      | some after => exact ih after

/-- A property kept by every step holds at the end of every schedule. -/
theorem execute_preserves {sem : Semantics S σ} {calls : ι -> Call S L ρ}
    {good : Config S σ ι L ρ -> Prop}
    (kept : forall config i after, good config -> config.step sem calls i = some after -> good after)
    {config after : Config S σ ι L ρ} {schedule : List ι} (start : good config)
    (run : execute sem calls config schedule = some after) : good after := by
  induction schedule generalizing config with
  | nil =>
      cases run
      exact start
  | cons i rest ih =>
      simp only [execute] at run
      cases stepped : config.step sem calls i with
      | none => rw [stepped] at run; cases run
      | some middle =>
          rw [stepped] at run
          exact ih (kept config i middle start stepped) run

/-- No call is between its invocation and its answer. -/
def Quiescent (config : Config S σ ι L ρ) : Prop :=
  forall i, config.phase i = .idle ∨ Exists fun result => config.phase i = .finished result

/-- Call `i` answered before call `j` was invoked. -/
def Before (sem : Semantics S σ) (calls : ι -> Call S L ρ) (start : Config S σ ι L ρ)
    (schedule : List ι) (i j : ι) : Prop :=
  Exists fun before => Exists fun after => Exists fun middle => Exists fun result =>
    schedule = before ++ after ∧ execute sem calls start before = some middle ∧
      middle.phase i = .finished result ∧ middle.phase j = .idle

end Config

/-! ## Sequential execution of several programs -/

namespace Semantics

/-- Run the programs of a list of callers one after another. -/
def runEach (sem : Semantics S σ) (program : ι -> Program S ρ) :
    List ι -> σ -> List (ι × ρ) × σ
  | [], state => ([], state)
  | i :: rest, state =>
      let first := sem.run (program i) state
      let later := runEach sem program rest first.2
      ((i, first.1) :: later.1, later.2)

theorem runEach_append (sem : Semantics S σ) (program : ι -> Program S ρ)
    (first second : List ι) (state : σ) :
    sem.runEach program (first ++ second) state =
      ((sem.runEach program first state).1 ++
          (sem.runEach program second (sem.runEach program first state).2).1,
        (sem.runEach program second (sem.runEach program first state).2).2) := by
  induction first generalizing state with
  | nil => rfl
  | cons i rest ih => simp only [List.cons_append, runEach, ih, List.cons_append]

/-- The results are listed in the order of the callers. -/
theorem runEach_callers (sem : Semantics S σ) (program : ι -> Program S ρ) (order : List ι) (state : σ) :
    (sem.runEach program order state).1.map Prod.fst = order := by
  induction order generalizing state with
  | nil => rfl
  | cons i rest ih => simp only [runEach, List.map_cons, ih]

theorem runEach_congr (sem : Semantics S σ) {left right : ι -> Program S ρ} (order : List ι)
    (same : forall i, i ∈ order -> left i = right i) (state : σ) :
    sem.runEach left order state = sem.runEach right order state := by
  induction order generalizing state with
  | nil => rfl
  | cons i rest ih =>
      have head := same i List.mem_cons_self
      have tail := ih (fun j member => same j (List.mem_cons_of_mem i member))
      simp only [runEach, head, tail]

/-- Finished programs change nothing. -/
theorem runEach_state (sem : Semantics S σ) {program : ι -> Program S ρ} (order : List ι)
    (finished : forall i, i ∈ order -> Exists fun result => program i = .done result) (state : σ) :
    (sem.runEach program order state).2 = state := by
  induction order with
  | nil => rfl
  | cons i rest ih =>
      rcases finished i List.mem_cons_self with ⟨result, done⟩
      have tail := ih (fun j member => finished j (List.mem_cons_of_mem i member))
      simp only [runEach, done, run_done, tail]

/-- Finished programs repeat their results. -/
theorem runEach_result (sem : Semantics S σ) {program : ι -> Program S ρ} (order : List ι)
    (finished : forall i, i ∈ order -> Exists fun result => program i = .done result) (state : σ)
    {i : ι} {result : ρ} (member : i ∈ order) (done : program i = .done result) :
    (i, result) ∈ (sem.runEach program order state).1 := by
  induction order with
  | nil => cases member
  | cons head rest ih =>
      rcases finished head List.mem_cons_self with ⟨first, doneFirst⟩
      have tail := ih (fun j inside => finished j (List.mem_cons_of_mem head inside))
      simp only [runEach, doneFirst, run_done]
      rcases List.mem_cons.mp member with same | later
      · subst same
        rw [done] at doneFirst
        cases doneFirst
        exact List.mem_cons_self
      · exact List.mem_cons_of_mem _ (tail later)

/-- Move an operation in front of a list of programs confined elsewhere. -/
theorem runEach_exec {memory : Memory σ Loc Val} (sem : Semantics S σ)
    (program : ι -> Program S ρ) (order : List ι) {region : Loc -> Prop} {op : S.Op}
    (confined : memory.Confined sem region op)
    (elsewhere : forall i, i ∈ order -> Exists fun other : Loc -> Prop =>
      memory.ConfinedProgram sem other (program i) ∧ forall x, region x -> ¬ other x)
    (state : σ) :
    sem.runEach program order (sem.exec op state).2 =
        ((sem.runEach program order state).1, (sem.exec op (sem.runEach program order state).2).2) ∧
      (sem.exec op (sem.runEach program order state).2).1 = (sem.exec op state).1 := by
  induction order generalizing state with
  | nil => exact ⟨rfl, rfl⟩
  | cons i rest ih =>
      rcases elsewhere i List.mem_cons_self with ⟨other, confinedProgram, disjoint⟩
      have head := confinedProgram.run_exec confined disjoint state
      have tail := ih (fun j member => elsewhere j (List.mem_cons_of_mem i member))
        (sem.run (program i) state).2
      simp only [runEach]
      rw [head.1]
      exact ⟨by rw [tail.1], tail.2.trans head.2⟩

end Semantics

/-! ## The invariant of a locked run -/

section Locked

variable (memory : Memory σ Loc Val) (sem : Semantics S σ) (guardOf : Loc -> L)

/-- The locations a call may touch: those guarded by its locks. -/
def Call.region (call : Call S L ρ) (x : Loc) : Prop :=
  guardOf x ∈ call.locks

/-- Every program of a family stays inside its own call's region. -/
def Disciplined (calls : ι -> Call S L ρ) : Prop :=
  forall i, memory.ConfinedProgram sem ((calls i).region guardOf) (calls i).body

/-- The run invariant, relative to the initial state. -/
structure LockedRun (calls : ι -> Call S L ρ) (start : σ) (config : Config S σ ι L ρ) : Prop where
  owned : forall i lock, (config.phase i).Holds (calls i) lock -> config.owner lock = some i
  distinct : forall i result todo, config.phase i = .releasing result todo -> todo.Nodup
  confined : forall i, memory.ConfinedProgram sem ((calls i).region guardOf)
    ((config.phase i).residual (calls i))
  entered_iff : forall i, i ∈ config.entered ↔ (config.phase i).Entered
  entered_nodup : config.entered.Nodup
  replay : sem.runEach (fun i => (calls i).body) config.entered start =
    sem.runEach (fun i => (config.phase i).residual (calls i)) config.entered config.shared

variable {memory sem guardOf} {calls : ι -> Call S L ρ} {start : σ}
variable {config after : Config S σ ι L ρ} {i : ι}

theorem LockedRun.initial (disciplined : Disciplined memory sem guardOf calls) :
    LockedRun memory sem guardOf calls start (Config.initial start) where
  owned := by
    intro i lock holds
    exact False.elim holds
  distinct := by
    intro i result todo impossible
    cases impossible
  confined := disciplined
  entered_iff := by
    intro i
    constructor
    · intro member
      exact False.elim (List.not_mem_nil member)
    · intro entered
      exact False.elim entered
  entered_nodup := List.nodup_nil
  replay := rfl

/-- Two calls that are both running share no guarded location. -/
theorem LockedRun.disjoint (inv : LockedRun memory sem guardOf calls start config) {j : ι}
    {mine theirs : Program S ρ} (running : config.phase i = .running mine)
    (runningOther : config.phase j = .running theirs) (different : j ≠ i) (x : Loc)
    (inside : (calls i).region guardOf x) : ¬ (calls j).region guardOf x := by
  intro insideOther
  have first := inv.owned i (guardOf x) (by rw [running]; exact inside)
  have second := inv.owned j (guardOf x) (by rw [runningOther]; exact insideOther)
  exact different (Option.some.inj (second.symm.trans first))

/-- Remaining programs of calls other than a running one are confined away
from it: they are either running under other locks or already finished. -/
theorem LockedRun.elsewhere (inv : LockedRun memory sem guardOf calls start config) {j : ι}
    {mine : Program S ρ} (running : config.phase i = .running mine)
    (member : j ∈ config.entered) (different : j ≠ i) :
    Exists fun other : Loc -> Prop =>
      memory.ConfinedProgram sem other ((config.phase j).residual (calls j)) ∧
        forall x, (calls i).region guardOf x -> ¬ other x := by
  have entered := (inv.entered_iff j).mp member
  cases phase : config.phase j with
  | idle => rw [phase] at entered; exact False.elim entered
  | acquiring todo => rw [phase] at entered; exact False.elim entered
  | running rest =>
      refine ⟨(calls j).region guardOf, ?_, inv.disjoint running phase different⟩
      have confined := inv.confined j
      rw [phase] at confined
      exact confined
  | releasing result todo => exact ⟨fun _ => False, trivial, fun _ _ absurdity => absurdity⟩
  | finished result => exact ⟨fun _ => False, trivial, fun _ _ absurdity => absurdity⟩

variable [DecidableEq ι]

private theorem residual_update (calls : ι -> Call S L ρ) (phase : ι -> Phase S L ρ) (fresh : Phase S L ρ)
    (same : fresh.residual (calls i) = (phase i).residual (calls i)) :
    (fun j => (Function.update phase i fresh j).residual (calls j)) =
      fun j => (phase j).residual (calls j) := by
  funext j
  by_cases equal : j = i
  · subst j
    rw [Function.update_self]
    exact same
  · rw [Function.update_of_ne equal]

/-- A step that only moves a call between lock phases keeps the invariant,
provided that the lock table still records every holder. -/
theorem LockedRun.relabel (inv : LockedRun memory sem guardOf calls start config)
    {fresh : Phase S L ρ} {owner : L -> Option ι}
    (sameResidual : fresh.residual (calls i) = (config.phase i).residual (calls i))
    (sameEntered : fresh.Entered ↔ (config.phase i).Entered)
    (distinct : forall result todo, fresh = .releasing result todo -> todo.Nodup)
    (ownedHere : forall lock, fresh.Holds (calls i) lock -> owner lock = some i)
    (ownedElsewhere : forall j lock, j ≠ i -> (config.phase j).Holds (calls j) lock ->
      owner lock = some j) :
    LockedRun memory sem guardOf calls start { config.setPhase i fresh with owner := owner } := by
  have residuals := residual_update calls config.phase fresh sameResidual
  refine ⟨?_, ?_, ?_, ?_, inv.entered_nodup, ?_⟩
  · intro j lock holds
    by_cases equal : j = i
    · subst j
      simp only [Config.setPhase, Function.update_self] at holds
      exact ownedHere lock holds
    · simp only [Config.setPhase, Function.update_of_ne equal] at holds
      exact ownedElsewhere j lock equal holds
  · intro j result todo releasing
    by_cases equal : j = i
    · subst j
      simp only [Config.setPhase, Function.update_self] at releasing
      exact distinct result todo releasing
    · simp only [Config.setPhase, Function.update_of_ne equal] at releasing
      exact inv.distinct j result todo releasing
  · intro j
    have here := congrFun residuals j
    simp only [Config.setPhase] at here ⊢
    rw [here]
    exact inv.confined j
  · intro j
    by_cases equal : j = i
    · subst j
      simp only [Config.setPhase, Function.update_self]
      exact (inv.entered_iff i).trans sameEntered.symm
    · simp only [Config.setPhase, Function.update_of_ne equal]
      exact inv.entered_iff j
  · simp only [Config.setPhase]
    rw [residuals]
    exact inv.replay

/-- Entering the critical section appends the call to the sequential order. -/
theorem LockedRun.enter (inv : LockedRun memory sem guardOf calls start config)
    (ready : config.phase i = .acquiring []) :
    LockedRun memory sem guardOf calls start
      { config.setPhase i (.running (calls i).body) with entered := config.entered ++ [i] } := by
  have residuals := residual_update calls config.phase (.running (calls i).body)
    (by rw [ready]; rfl)
  have absent : i ∉ config.entered := by
    intro member
    have entered := (inv.entered_iff i).mp member
    rw [ready] at entered
    exact entered
  refine ⟨?_, ?_, ?_, ?_, ?_, ?_⟩
  · intro j lock holds
    by_cases equal : j = i
    · subst j
      simp only [Config.setPhase, Function.update_self] at holds
      exact inv.owned i lock (by rw [ready]; exact ⟨holds, List.not_mem_nil⟩)
    · simp only [Config.setPhase, Function.update_of_ne equal] at holds
      exact inv.owned j lock holds
  · intro j result todo releasing
    by_cases equal : j = i
    · subst j
      simp only [Config.setPhase, Function.update_self] at releasing
      cases releasing
    · simp only [Config.setPhase, Function.update_of_ne equal] at releasing
      exact inv.distinct j result todo releasing
  · intro j
    have here := congrFun residuals j
    simp only [Config.setPhase] at here ⊢
    rw [here]
    exact inv.confined j
  · intro j
    by_cases equal : j = i
    · subst j
      simp only [Config.setPhase, Function.update_self, Phase.Entered, iff_true]
      exact List.mem_append.mpr (Or.inr List.mem_cons_self)
    · simp only [Config.setPhase, Function.update_of_ne equal, List.mem_append, List.mem_singleton,
        equal, or_false]
      exact inv.entered_iff j
  · exact List.nodup_append.mpr ⟨inv.entered_nodup, List.nodup_cons.mpr ⟨List.not_mem_nil, List.nodup_nil⟩,
      fun j member k single same => absent (by
        rw [List.mem_singleton.mp single] at same
        exact same ▸ member)⟩
  · simp only [Config.setPhase]
    rw [residuals, Semantics.runEach_append, Semantics.runEach_append, inv.replay]
    simp only [Semantics.runEach, ready, Phase.residual]

/-- An operation of a running call keeps the invariant.  The operation is
moved in front of what the earlier calls still have to do. -/
theorem LockedRun.operate (inv : LockedRun memory sem guardOf calls start config)
    {op : S.Op} {next : S.Result op -> Program S ρ}
    (running : config.phase i = .running (.call op next)) :
    LockedRun memory sem guardOf calls start
      { config.setPhase i (.running (next (sem.exec op config.shared).1)) with
        shared := (sem.exec op config.shared).2 } := by
  have confined := inv.confined i
  rw [running] at confined
  have elsewhere : forall j, j ≠ i ->
      (Function.update config.phase i (.running (next (sem.exec op config.shared).1)) j).residual (calls j) =
        (config.phase j).residual (calls j) := by
    intro j different
    rw [Function.update_of_ne different]
  refine ⟨?_, ?_, ?_, ?_, inv.entered_nodup, ?_⟩
  · intro j lock holds
    by_cases equal : j = i
    · subst j
      simp only [Config.setPhase, Function.update_self] at holds
      exact inv.owned i lock (by rw [running]; exact holds)
    · simp only [Config.setPhase, Function.update_of_ne equal] at holds
      exact inv.owned j lock holds
  · intro j result todo releasing
    by_cases equal : j = i
    · subst j
      simp only [Config.setPhase, Function.update_self] at releasing
      cases releasing
    · simp only [Config.setPhase, Function.update_of_ne equal] at releasing
      exact inv.distinct j result todo releasing
  · intro j
    by_cases equal : j = i
    · subst j
      simp only [Config.setPhase, Function.update_self]
      exact confined.2 _
    · simp only [Config.setPhase, Function.update_of_ne equal]
      exact inv.confined j
  · intro j
    by_cases equal : j = i
    · subst j
      simp only [Config.setPhase, Function.update_self]
      have entered := inv.entered_iff i
      rw [running] at entered
      exact entered
    · simp only [Config.setPhase, Function.update_of_ne equal]
      exact inv.entered_iff j
  · have member : i ∈ config.entered := (inv.entered_iff i).mpr (by rw [running]; trivial)
    rcases List.append_of_mem member with ⟨before, later, split⟩
    have nodup := inv.entered_nodup
    rw [split] at nodup
    have notBefore : i ∉ before := fun inside =>
      (List.nodup_append.mp nodup).2.2 i inside i List.mem_cons_self rfl
    have notLater : i ∉ later := (List.nodup_cons.mp (List.nodup_append.mp nodup).2.1).1
    have moved := sem.runEach_exec (fun j => (config.phase j).residual (calls j)) before confined.1
      (fun j inside => inv.elsewhere running (by rw [split]; exact List.mem_append.mpr (Or.inl inside))
        (fun same => notBefore (same ▸ inside))) config.shared
    simp only [Config.setPhase]
    rw [inv.replay, split, Semantics.runEach_append, Semantics.runEach_append]
    rw [sem.runEach_congr before
      (fun j inside => elsewhere j (fun same => notBefore (same ▸ inside))), moved.1]
    simp only [Semantics.runEach, Function.update_self, running, Phase.residual_running,
      Semantics.run_call, moved.2]
    rw [sem.runEach_congr later
      (fun j inside => elsewhere j (fun same => notLater (same ▸ inside)))]

variable [DecidableEq L]

/-- Every step keeps the invariant. -/
theorem LockedRun.step (inv : LockedRun memory sem guardOf calls start config)
    (stepped : config.step sem calls i = some after) :
    LockedRun memory sem guardOf calls start after := by
  have elsewhere : forall j lock, j ≠ i -> (config.phase j).Holds (calls j) lock ->
      config.owner lock = some j := fun j lock _ holds => inv.owned j lock holds
  cases phase : config.phase i with
  | idle =>
      simp only [Config.step, phase] at stepped
      cases stepped
      exact inv.relabel (by rw [phase]; rfl) (by rw [phase]; exact Iff.rfl) (by intros _ _ h; cases h)
        (fun lock holds => False.elim (holds.2 holds.1)) elsewhere
  | acquiring todo =>
      cases todo with
      | nil =>
          simp only [Config.step, phase] at stepped
          cases stepped
          exact inv.enter phase
      | cons lock todo =>
          simp only [Config.step, phase] at stepped
          by_cases free : config.owner lock = none
          · rw [if_pos free] at stepped
            cases stepped
            refine inv.relabel (by rw [phase]; rfl) (by rw [phase]; exact Iff.rfl)
              (by intros _ _ h; cases h) ?_ ?_
            · intro wanted holds
              by_cases same : wanted = lock
              · rw [same, Function.update_self]
              · rw [Function.update_of_ne same]
                exact inv.owned i wanted (by
                  rw [phase]
                  exact ⟨holds.1, fun listed => (List.mem_cons.mp listed).elim same holds.2⟩)
            · intro j wanted different holds
              have owned := inv.owned j wanted holds
              rw [Function.update_of_ne (fun same => by
                rw [same, free] at owned
                cases owned)]
              exact owned
          · rw [if_neg free] at stepped
            cases stepped
  | running rest =>
      cases rest with
      | call op next =>
          simp only [Config.step, phase] at stepped
          cases stepped
          exact inv.operate phase
      | done result =>
          simp only [Config.step, phase] at stepped
          cases stepped
          refine inv.relabel (by rw [phase]; rfl) (by rw [phase]; exact Iff.rfl) ?_ ?_ elsewhere
          · intro _ _ releasing
            cases releasing
            exact (calls i).nodup
          · intro lock holds
            exact inv.owned i lock (by rw [phase]; exact holds)
  | releasing result todo =>
      have distinct := inv.distinct i result todo phase
      cases todo with
      | nil =>
          simp only [Config.step, phase] at stepped
          cases stepped
          exact inv.relabel (by rw [phase]; rfl) (by rw [phase]; exact Iff.rfl) (by intros _ _ h; cases h)
            (fun lock holds => False.elim holds) elsewhere
      | cons lock todo =>
          simp only [Config.step, phase] at stepped
          cases stepped
          have held := inv.owned i lock (by rw [phase]; exact List.mem_cons_self)
          refine inv.relabel (by rw [phase]; rfl) (by rw [phase]; exact Iff.rfl) ?_ ?_ ?_
          · intro _ _ releasing
            cases releasing
            exact (List.nodup_cons.mp distinct).2
          · intro wanted holds
            have listed : wanted ∈ todo := holds
            have different : wanted ≠ lock := fun same => (List.nodup_cons.mp distinct).1 (same ▸ listed)
            rw [Function.update_of_ne different]
            exact inv.owned i wanted (by rw [phase]; exact List.mem_cons_of_mem lock holds)
          · intro j wanted different holds
            have owned := inv.owned j wanted holds
            rw [Function.update_of_ne (fun same => by
              rw [same, held] at owned
              exact different (Option.some.inj owned).symm)]
            exact owned
  | finished result =>
      simp only [Config.step, phase] at stepped
      cases stepped

theorem LockedRun.execute (disciplined : Disciplined memory sem guardOf calls)
    {schedule : List ι} (run : Config.execute sem calls (Config.initial start) schedule = some config) :
    LockedRun memory sem guardOf calls start config :=
  Config.execute_preserves (fun _ _ _ inv stepped => inv.step stepped)
    (LockedRun.initial disciplined) run

end Locked

/-! ## The order of entering extends real time -/

section RealTime

variable [DecidableEq ι] [DecidableEq L]
variable {sem : Semantics S σ} {calls : ι -> Call S L ρ} {config after : Config S σ ι L ρ} {i j : ι}

theorem Config.step_entered (stepped : config.step sem calls i = some after) :
    config.entered <+: after.entered := by
  unfold Config.step at stepped
  split at stepped
  all_goals first
    | (cases stepped; exact List.prefix_refl _)
    | (cases stepped; exact List.prefix_append _ _)
    | (split at stepped <;> cases stepped; exact List.prefix_refl _)
    | cases stepped

theorem Config.execute_entered {schedule : List ι}
    (run : Config.execute sem calls config schedule = some after) :
    config.entered <+: after.entered :=
  Config.execute_preserves
    (fun _ _ _ (grown : config.entered <+: _) stepped => grown.trans (Config.step_entered stepped))
    (List.prefix_refl _) run

/-- Element `i` stands before element `j`. -/
def Precedes (order : List ι) (i j : ι) : Prop :=
  Exists fun before => Exists fun later => order = before ++ later ∧ i ∈ before ∧ j ∈ later

variable {memory : Memory σ Loc Val} {guardOf : Loc -> L} {start : σ}

/-- A call that answered before another one was invoked entered before it. -/
theorem Config.before_precedes (disciplined : Disciplined memory sem guardOf calls)
    {schedule : List ι} (run : Config.execute sem calls (Config.initial start) schedule = some config)
    (earlier : Config.Before sem calls (Config.initial start) schedule i j)
    (member : j ∈ config.entered) : Precedes config.entered i j := by
  rcases earlier with ⟨before, rest, middle, result, split, reached, answered, uninvoked⟩
  rw [split, Config.execute_append, reached] at run
  have inv := LockedRun.execute disciplined reached
  rcases Config.execute_entered run with ⟨later, grown⟩
  have present : i ∈ middle.entered := (inv.entered_iff i).mpr (by rw [answered]; trivial)
  have absent : j ∉ middle.entered := by
    intro entered
    have impossible := (inv.entered_iff j).mp entered
    rw [uninvoked] at impossible
    exact impossible
  refine ⟨middle.entered, later, grown.symm, present, ?_⟩
  rw [← grown] at member
  exact (List.mem_append.mp member).resolve_left absent

/-- Locked calls are linearizable.  When no call is pending, the calls that
answered can be ordered, respecting real time, so that running their programs
one after another from the initial state yields the current state and every
answer. -/
theorem Config.linearizable (disciplined : Disciplined memory sem guardOf calls)
    {schedule : List ι} (run : Config.execute sem calls (Config.initial start) schedule = some config)
    (quiet : config.Quiescent) :
    Exists fun order : List ι =>
      order.Nodup ∧
      (forall i, i ∈ order ↔ Exists fun result => config.phase i = .finished result) ∧
      (sem.runEach (fun i => (calls i).body) order start).2 = config.shared ∧
      (forall i result, config.phase i = .finished result ->
        (i, result) ∈ (sem.runEach (fun i => (calls i).body) order start).1) ∧
      forall i j, j ∈ order -> Config.Before sem calls (Config.initial start) schedule i j ->
        Precedes order i j := by
  have inv := LockedRun.execute disciplined run
  have answered : forall i, i ∈ config.entered ↔ Exists fun result => config.phase i = .finished result := by
    intro i
    rw [inv.entered_iff]
    rcases quiet i with idle | ⟨result, finished⟩
    · rw [idle]
      exact ⟨fun impossible => False.elim impossible, fun ⟨_, impossible⟩ => by cases impossible⟩
    · rw [finished]
      exact ⟨fun _ => ⟨result, rfl⟩, fun _ => trivial⟩
  have residuals : forall i, i ∈ config.entered -> Exists fun result =>
      config.phase i = .finished result ∧ (config.phase i).residual (calls i) = .done result := by
    intro i member
    rcases (answered i).mp member with ⟨result, finished⟩
    exact ⟨result, finished, by rw [finished]; rfl⟩
  refine ⟨config.entered, inv.entered_nodup, answered, ?_, ?_,
    fun i j member earlier => Config.before_precedes disciplined run earlier member⟩
  · rw [inv.replay]
    exact sem.runEach_state config.entered
      (fun i member => (residuals i member).imp fun _ both => both.2) config.shared
  · intro i result finished
    rw [inv.replay]
    exact sem.runEach_result config.entered
      (fun i member => (residuals i member).imp fun _ both => both.2)
      config.shared ((answered i).mpr ⟨result, finished⟩) (by rw [finished]; rfl)

end RealTime
end Effect
