import Keydock.Foundation.Observation
import Keydock.Foundation.Conditions

/-!
# Calls that pass for single operations

A process is a program whose operations are themselves calls: each of them
takes its locks, runs a program of smaller operations and gives the locks back,
and between two of its calls the process holds nothing.  On a machine the small
steps of all processes interleave.

When every call is orderly the machine cannot be told from one on which each
call is a single operation.  A schedule of the machine is condensed to the steps
at which calls end, and the condensed schedule, run with whole calls as
operations, takes every process through the same program to the same result.
It keeps real time: a process that finished before another one began does so
there as well.  This is what allows a property of programs to be proved with
whole calls as its smallest steps.
-/

namespace Effect

variable {S T : Signature} {σ ι L ρ Loc Val : Type}

/-- Where a process stands: between two calls, or in a phase of one. -/
inductive Stage (S T : Signature) (L ρ : Type)
  | idle
  | between (rest : Program S ρ)
  | acquiring (op : S.Op) (next : S.Result op -> Program S ρ) (todo : List L)
  | running (op : S.Op) (next : S.Result op -> Program S ρ) (rest : Program T (S.Result op))
  | releasing (op : S.Op) (next : S.Result op -> Program S ρ) (result : S.Result op) (todo : List L)
  | finished (result : ρ)

namespace Stage

/-- The locks a process holds in a stage. -/
def Holds (impl : (op : S.Op) -> Call T L (S.Result op)) : Stage S T L ρ -> L -> Prop
  | .acquiring op _ todo, lock => lock ∈ (impl op).locks ∧ lock ∉ todo
  | .running op _ _, lock => lock ∈ (impl op).locks
  | .releasing _ _ _ todo, lock => lock ∈ todo
  | .idle, _ | .between _, _ | .finished _, _ => False

/-- The call in progress. -/
def ongoing (impl : (op : S.Op) -> Call T L (S.Result op)) : Stage S T L ρ -> Option (Ongoing T L)
  | .running op _ (.call step rest) => some ⟨S.Result op, impl op, step, rest⟩
  | .idle | .between _ | .acquiring _ _ _ | .running _ _ (.done _) | .releasing _ _ _ _ | .finished _ => none

/-- The phase of the process when calls are single operations: a call has not
begun until its program ends. -/
def whole : Stage S T L ρ -> Phase S Empty ρ
  | .idle => .idle
  | .between rest => .running rest
  | .acquiring op next _ => .running (.call op next)
  | .running op next (.call _ _) => .running (.call op next)
  | .running _ next (.done result) => .running (next result)
  | .releasing _ next result _ => .running (next result)
  | .finished result => .finished result

/-- The steps with whole calls that a step from one stage to another stands
for.  Beginning and finishing take two steps there. -/
def condensed (i : ι) : Stage S T L ρ -> Stage S T L ρ -> List ι
  | .idle, _ => [i, i]
  | .between (.done _), _ => [i, i]
  | .acquiring _ _ [], .running _ _ (.done _) => [i]
  | .running _ _ (.call _ _), .running _ _ (.done _) => [i]
  | _, _ => []

theorem ongoing_eq_some {impl : (op : S.Op) -> Call T L (S.Result op)} {stage : Stage S T L ρ}
    {activity : Ongoing T L} (found : stage.ongoing impl = some activity) :
    Exists fun op => Exists fun next => Exists fun step => Exists fun rest =>
      stage = .running op next (.call step rest) ∧ activity = ⟨S.Result op, impl op, step, rest⟩ := by
  unfold ongoing at found
  split at found
  next op next step rest => exact ⟨op, next, step, rest, rfl, (Option.some.inj found).symm⟩
  all_goals cases found

/-- With whole calls the same processes finish. -/
theorem whole_finished {stage : Stage S T L ρ} {result : ρ} :
    stage.whole = .finished result ↔ stage = .finished result := by
  cases stage with
  | running op next rest => cases rest <;> simp [whole]
  | idle | between rest | acquiring op next todo | releasing op next result todo | finished result => simp [whole]

end Stage

/-- A machine on which processes interleave in the small steps of their calls. -/
structure Machine (S T : Signature) (σ ι L ρ : Type) where
  shared : σ
  owner : L -> Option ι
  stage : ι -> Stage S T L ρ

namespace Machine

def initial (state : σ) : Machine S T σ ι L ρ where
  shared := state
  owner := fun _ => none
  stage := fun _ => .idle

variable [DecidableEq ι] [DecidableEq L]

def setStage (machine : Machine S T σ ι L ρ) (i : ι) (stage : Stage S T L ρ) : Machine S T σ ι L ρ :=
  { machine with stage := Function.update machine.stage i stage }

/-- The next step of process `i`, when there is one. -/
def step (sem : Semantics T σ) (impl : (op : S.Op) -> Call T L (S.Result op)) (programs : ι -> Program S ρ)
    (machine : Machine S T σ ι L ρ) (i : ι) : Option (Machine S T σ ι L ρ) :=
  match machine.stage i with
  | .idle => some (machine.setStage i (.between (programs i)))
  | .between (.done result) => some (machine.setStage i (.finished result))
  | .between (.call op next) => some (machine.setStage i (.acquiring op next (impl op).locks))
  | .acquiring op next [] => some (machine.setStage i (.running op next (impl op).body))
  | .acquiring op next (lock :: todo) =>
      if machine.owner lock = none then
        some { machine.setStage i (.acquiring op next todo) with
          owner := Function.update machine.owner lock (some i) }
      else none
  | .running op next (.call small rest) =>
      some { machine.setStage i (.running op next (rest (sem.exec small machine.shared).1)) with
        shared := (sem.exec small machine.shared).2 }
  | .running op next (.done result) => some (machine.setStage i (.releasing op next result (impl op).locks))
  | .releasing _ next result [] => some (machine.setStage i (.between (next result)))
  | .releasing op next result (lock :: todo) =>
      some { machine.setStage i (.releasing op next result todo) with
        owner := Function.update machine.owner lock none }
  | .finished _ => none

/-- Follow a schedule. -/
def execute (sem : Semantics T σ) (impl : (op : S.Op) -> Call T L (S.Result op)) (programs : ι -> Program S ρ) :
    Machine S T σ ι L ρ -> List ι -> Option (Machine S T σ ι L ρ)
  | machine, [] => some machine
  | machine, i :: rest =>
      match machine.step sem impl programs i with
      | none => none
      | some after => execute sem impl programs after rest

/-- The schedule with whole calls that a schedule stands for. -/
def condense (sem : Semantics T σ) (impl : (op : S.Op) -> Call T L (S.Result op)) (programs : ι -> Program S ρ) :
    Machine S T σ ι L ρ -> List ι -> List ι
  | _, [] => []
  | machine, i :: rest =>
      match machine.step sem impl programs i with
      | none => []
      | some after => Stage.condensed i (machine.stage i) (after.stage i) ++ condense sem impl programs after rest

/-- Process `i` finished before process `j` began. -/
def Before (sem : Semantics T σ) (impl : (op : S.Op) -> Call T L (S.Result op)) (programs : ι -> Program S ρ)
    (start : Machine S T σ ι L ρ) (schedule : List ι) (i j : ι) : Prop :=
  Exists fun before => Exists fun after => Exists fun middle => Exists fun result =>
    schedule = before ++ after ∧ execute sem impl programs start before = some middle ∧
      middle.stage i = .finished result ∧ middle.stage j = .idle

variable {sem : Semantics T σ} {impl : (op : S.Op) -> Call T L (S.Result op)} {programs : ι -> Program S ρ}
variable {machine middle after : Machine S T σ ι L ρ}

theorem execute_append (machine : Machine S T σ ι L ρ) (first second : List ι) :
    execute sem impl programs machine (first ++ second) =
      (execute sem impl programs machine first).bind (fun middle => execute sem impl programs middle second) := by
  induction first generalizing machine with
  | nil => rfl
  | cons i rest ih =>
      simp only [List.cons_append, execute]
      cases machine.step sem impl programs i with
      | none => rfl
      | some after => exact ih after

theorem condense_append {first : List ι} (run : execute sem impl programs machine first = some middle)
    (second : List ι) :
    condense sem impl programs machine (first ++ second) =
      condense sem impl programs machine first ++ condense sem impl programs middle second := by
  induction first generalizing machine with
  | nil =>
      cases run
      rfl
  | cons i rest ih =>
      simp only [execute] at run
      simp only [List.cons_append, condense]
      cases stepped : machine.step sem impl programs i with
      | none => rw [stepped] at run; cases run
      | some after =>
          rw [stepped] at run
          simp only [ih run, List.append_assoc]

end Machine

/-! ## Whole calls as operations -/

/-- The meaning of a call that nothing interrupts. -/
def Semantics.atomically (sem : Semantics T σ) (impl : (op : S.Op) -> Call T L (S.Result op)) : Semantics S σ where
  exec op state := sem.run (impl op).body state

/-- A process whose calls are its operations. -/
def Program.unlocked (program : Program S ρ) : Call S Empty ρ where
  locks := []
  nodup := List.nodup_nil
  body := program

namespace Config

variable [DecidableEq ι] (sem : Semantics S σ) (programs : ι -> Program S ρ) {config : Config S σ ι Empty ρ} {i : ι}

/-- A process begins in two steps. -/
theorem execute_begin (idle : config.phase i = .idle) : Exists fun after =>
    execute sem (fun i => (programs i).unlocked) config [i, i] = some after ∧ after.phase i = .running (programs i) ∧
      (forall j, j ≠ i -> after.phase j = config.phase j) ∧ after.shared = config.shared := by
  simp only [execute, step, idle, setPhase, Function.update_self, Program.unlocked]
  refine ⟨_, rfl, Function.update_self _ _ _, fun j different => ?_, rfl⟩
  exact (Function.update_of_ne different _ _).trans (Function.update_of_ne different _ _)

/-- A process whose program is done finishes in two steps. -/
theorem execute_finish {result : ρ} (done : config.phase i = .running (.done result)) : Exists fun after =>
    execute sem (fun i => (programs i).unlocked) config [i, i] = some after ∧ after.phase i = .finished result ∧
      (forall j, j ≠ i -> after.phase j = config.phase j) ∧ after.shared = config.shared := by
  simp only [execute, step, done, setPhase, Function.update_self, Program.unlocked]
  refine ⟨_, rfl, Function.update_self _ _ _, fun j different => ?_, rfl⟩
  exact (Function.update_of_ne different _ _).trans (Function.update_of_ne different _ _)

theorem execute_operate {op : S.Op} {next : S.Result op -> Program S ρ}
    (running : config.phase i = .running (.call op next)) : Exists fun after =>
    execute sem (fun i => (programs i).unlocked) config [i] = some after ∧
      after.phase i = .running (next (sem.exec op config.shared).1) ∧
      (forall j, j ≠ i -> after.phase j = config.phase j) ∧ after.shared = (sem.exec op config.shared).2 := by
  simp only [execute, step, running, setPhase]
  exact ⟨_, rfl, Function.update_self _ _ _, fun j different => Function.update_of_ne different _ _, rfl⟩

end Config

section Atomic

variable (memory : Memory σ Loc Val) (sem : Semantics T σ) (guard : Loc -> Option L) (visible : Loc -> Prop)
variable (impl : (op : S.Op) -> Call T L (S.Result op))

/-- The machine beside the configuration in which calls are operations. -/
structure Condensed (machine : Machine S T σ ι L ρ) (config : Config S σ ι Empty ρ) : Prop where
  owned : Owned machine.owner (fun i => (machine.stage i).Holds impl)
  distinct : forall i op next result todo, machine.stage i = .releasing op next result todo -> todo.Nodup
  phases : forall i, config.phase i = (machine.stage i).whole
  linked : Linked memory sem guard visible machine.shared config.shared (fun i => (machine.stage i).ongoing impl)

variable {memory sem guard visible impl} {programs : ι -> Program S ρ}
variable {machine after : Machine S T σ ι L ρ} {config : Config S σ ι Empty ρ} {i : ι}

theorem Condensed.initial (start : σ) :
    Condensed memory sem guard visible impl (Machine.initial start : Machine S T σ ι L ρ) (Config.initial start) where
  owned := fun _ _ holds => False.elim holds
  distinct := fun _ _ _ _ _ impossible => by cases impossible
  phases := fun _ => rfl
  linked := Linked.quiet start (fun _ => rfl)

variable [DecidableEq ι]

/-- A step of the machine, given the image of the shared state and the phase
that the process reaches there. -/
theorem Condensed.move (inv : Condensed memory sem guard visible impl machine config) {fresh : Stage S T L ρ}
    {configAfter : Config S σ ι Empty ρ} (moved : after.stage = Function.update machine.stage i fresh)
    (owned : Owned after.owner (fun j => (after.stage j).Holds impl))
    (distinct : forall op next result todo, fresh = .releasing op next result todo -> todo.Nodup)
    (phase : configAfter.phase i = fresh.whole) (phases : forall j, j ≠ i -> configAfter.phase j = config.phase j)
    (linked : Linked memory sem guard visible after.shared configAfter.shared (fun j => (after.stage j).ongoing impl)) :
    Condensed memory sem guard visible impl after configAfter := by
  refine ⟨owned, ?_, ?_, linked⟩
  · intro j op next result todo releasing
    rw [moved] at releasing
    by_cases same : j = i
    · rw [same, Function.update_self] at releasing
      exact distinct op next result todo releasing
    · rw [Function.update_of_ne same] at releasing
      exact inv.distinct j op next result todo releasing
  · intro j
    rw [moved]
    by_cases same : j = i
    · rw [same, Function.update_self, phase]
    · rw [Function.update_of_ne same, phases j same]
      exact inv.phases j

/-- A step on which no call begins, goes on or ends. -/
theorem Condensed.relabel (inv : Condensed memory sem guard visible impl machine config) {fresh : Stage S T L ρ}
    {configAfter : Config S σ ι Empty ρ} (moved : after.stage = Function.update machine.stage i fresh)
    (shared : after.shared = machine.shared) (inactive : fresh.ongoing impl = (machine.stage i).ongoing impl)
    (owned : Owned after.owner (fun j => (after.stage j).Holds impl))
    (distinct : forall op next result todo, fresh = .releasing op next result todo -> todo.Nodup)
    (phase : configAfter.phase i = fresh.whole) (phases : forall j, j ≠ i -> configAfter.phase j = config.phase j)
    (image : configAfter.shared = config.shared) :
    Condensed memory sem guard visible impl after configAfter := by
  refine inv.move moved owned distinct phase phases ?_
  have same : (fun j => (after.stage j).ongoing impl) = fun j => (machine.stage j).ongoing impl := by
    funext j
    rw [moved]
    by_cases here : j = i
    · rw [here, Function.update_self, inactive]
    · rw [Function.update_of_ne here]
  rw [shared, image, same]
  exact inv.linked

/-- A call enters; a call without operations ends at once. -/
theorem Condensed.enter (inv : Condensed memory sem guard visible impl machine config)
    {op : S.Op} {next : S.Result op -> Program S ρ} (orderly : (impl op).Orderly memory sem guard visible)
    (ready : machine.stage i = .acquiring op next [])
    (moved : after.stage = Function.update machine.stage i (.running op next (impl op).body))
    (owner : after.owner = machine.owner) (shared : after.shared = machine.shared) :
    Exists fun configAfter => Config.execute (sem.atomically impl) (fun i => (programs i).unlocked) config
        (Stage.condensed i (machine.stage i) (after.stage i)) = some configAfter ∧
      Condensed memory sem guard visible impl after configAfter := by
  have here : after.stage i = .running op next (impl op).body := by rw [moved, Function.update_self]
  have there : forall j, j ≠ i -> after.stage j = machine.stage j := by
    intro j different
    rw [moved, Function.update_of_ne different]
  have holding : forall lock, lock ∈ (impl op).locks -> (machine.stage i).Holds impl lock := by
    intro lock member
    rw [ready]
    exact ⟨member, List.not_mem_nil⟩
  have owned : Owned after.owner (fun j => (after.stage j).Holds impl) := by
    rw [owner]
    refine inv.owned.keep (fun lock held => ?_) (fun j different => by rw [there j different])
    rw [here] at held
    exact holding lock held
  have absent : (machine.stage i).ongoing impl = none := by rw [ready]; rfl
  have phase : config.phase i = .running (.call op next) := by rw [inv.phases, ready]; rfl
  cases body : (impl op).body with
  | done result =>
      have ran : (sem.atomically impl).exec op config.shared = (result, config.shared) := by
        simp only [Semantics.atomically, body, Semantics.run_done]
      rcases Config.execute_operate (sem.atomically impl) programs phase with
        ⟨configAfter, executed, arrived, others, image⟩
      rw [ran] at arrived image
      refine ⟨configAfter, ?_, inv.relabel moved shared ?_ owned (fun _ _ _ _ impossible => by cases impossible) ?_
        others image⟩
      · rw [ready, here, body]
        exact executed
      · rw [body, absent]
        rfl
      · rw [body]
        exact arrived
  | call small rest =>
      refine ⟨config, ?_, inv.move moved owned (fun _ _ _ _ impossible => by cases impossible) ?_ (fun _ _ => rfl) ?_⟩
      · rw [ready, here, body]
        rfl
      · rw [body]
        exact phase
      · have begun : (after.stage i).ongoing impl = some ⟨S.Result op, impl op, small, rest⟩ := by
          rw [here, body]
          rfl
        rw [shared]
        refine inv.linked.enter absent orderly ?_ body begun (fun j different => by rw [there j different])
        intro j other found
        rcases Stage.ongoing_eq_some found with ⟨otherOp, _, _, _, active, rfl⟩
        have different : i ≠ j := by
          rintro rfl
          rw [ready] at active
          cases active
        refine inv.owned.apart different holding (fun lock member => ?_)
        rw [active]
        exact member

/-- An operation inside a call.  After the last one the whole call has run. -/
theorem Condensed.operate (inv : Condensed memory sem guard visible impl machine config)
    {op : S.Op} {next : S.Result op -> Program S ρ} {small : T.Op} {rest : T.Result small -> Program T (S.Result op)}
    (running : machine.stage i = .running op next (.call small rest))
    (moved : after.stage =
      Function.update machine.stage i (.running op next (rest (sem.exec small machine.shared).1)))
    (owner : after.owner = machine.owner) (shared : after.shared = (sem.exec small machine.shared).2) :
    Exists fun configAfter => Config.execute (sem.atomically impl) (fun i => (programs i).unlocked) config
        (Stage.condensed i (machine.stage i) (after.stage i)) = some configAfter ∧
      Condensed memory sem guard visible impl after configAfter := by
  have here : after.stage i = .running op next (rest (sem.exec small machine.shared).1) := by
    rw [moved, Function.update_self]
  have there : forall j, j ≠ i -> after.stage j = machine.stage j := by
    intro j different
    rw [moved, Function.update_of_ne different]
  have owned : Owned after.owner (fun j => (after.stage j).Holds impl) := by
    rw [owner]
    refine inv.owned.keep (fun lock held => ?_) (fun j different => by rw [there j different])
    rw [here] at held
    rw [running]
    exact held
  have found : (machine.stage i).ongoing impl = some ⟨S.Result op, impl op, small, rest⟩ := by rw [running]; rfl
  have others : forall j, j ≠ i -> (after.stage j).ongoing impl = (machine.stage j).ongoing impl := by
    intro j different
    rw [there j different]
  have phase : config.phase i = .running (.call op next) := by rw [inv.phases, running]; rfl
  cases left : rest (sem.exec small machine.shared).1 with
  | done result =>
      have gone : (after.stage i).ongoing impl = none := by rw [here, left]; rfl
      rcases inv.linked.finish found left gone others with ⟨answer, linked⟩
      rcases Config.execute_operate (sem.atomically impl) programs phase with
        ⟨configAfter, executed, arrived, phases, image⟩
      refine ⟨configAfter, ?_, inv.move moved owned (fun _ _ _ _ impossible => by cases impossible) ?_ phases ?_⟩
      · rw [running, here, left]
        exact executed
      · rw [left, arrived]
        exact congrArg (fun value => Phase.running (next value)) answer
      · rw [shared, image]
        exact linked
  | call later continuation =>
      have goes : (after.stage i).ongoing impl = some ⟨S.Result op, impl op, later, continuation⟩ := by
        rw [here, left]
        rfl
      refine ⟨config, ?_, inv.move moved owned (fun _ _ _ _ impossible => by cases impossible) ?_ (fun _ _ => rfl)
        (shared ▸ inv.linked.advance found left goes others)⟩
      · rw [running, here, left]
        rfl
      · rw [left]
        exact phase

variable [DecidableEq L]

/-- Every step of the machine is none, one or two steps with whole calls. -/
theorem Condensed.step (inv : Condensed memory sem guard visible impl machine config)
    (orderly : forall op, (impl op).Orderly memory sem guard visible)
    (stepped : machine.step sem impl programs i = some after) :
    Exists fun configAfter => Config.execute (sem.atomically impl) (fun i => (programs i).unlocked) config
        (Stage.condensed i (machine.stage i) (after.stage i)) = some configAfter ∧
      Condensed memory sem guard visible impl after configAfter := by
  have others : forall {fresh : Stage S T L ρ}, after.stage = Function.update machine.stage i fresh ->
      forall j, j ≠ i -> (after.stage j).Holds impl = (machine.stage j).Holds impl := by
    intro fresh moved j different
    rw [moved, Function.update_of_ne different]
  -- A step on which no call begins or ends, and no process begins or finishes.
  have quiet : forall {fresh : Stage S T L ρ}, after.stage = Function.update machine.stage i fresh ->
      after.shared = machine.shared -> fresh.ongoing impl = (machine.stage i).ongoing impl ->
      Owned after.owner (fun j => (after.stage j).Holds impl) ->
      (forall op next result todo, fresh = .releasing op next result todo -> todo.Nodup) ->
      fresh.whole = (machine.stage i).whole -> Stage.condensed i (machine.stage i) fresh = [] ->
      Exists fun configAfter => Config.execute (sem.atomically impl) (fun i => (programs i).unlocked) config
          (Stage.condensed i (machine.stage i) (after.stage i)) = some configAfter ∧
        Condensed memory sem guard visible impl after configAfter := by
    intro fresh moved shared inactive owned distinct same silent
    refine ⟨config, ?_, inv.relabel moved shared inactive owned distinct ?_ (fun _ _ => rfl) rfl⟩
    · rw [moved, Function.update_self, silent]
      rfl
    · rw [inv.phases, same]
  cases stage : machine.stage i with
  | idle =>
      simp only [Machine.step, stage] at stepped
      cases stepped
      have idle : config.phase i = .idle := by rw [inv.phases, stage]; rfl
      rcases Config.execute_begin (sem.atomically impl) programs idle with
        ⟨configAfter, executed, arrived, phases, image⟩
      refine ⟨configAfter, executed, inv.relabel rfl rfl (by rw [stage]; rfl)
        (inv.owned.keep (fun lock held => ?_) (others rfl)) (fun _ _ _ _ impossible => by cases impossible) arrived
        phases image⟩
      simp only [Machine.setStage, Function.update_self] at held
      exact False.elim held
  | between rest =>
      cases rest with
      | done result =>
          simp only [Machine.step, stage] at stepped
          cases stepped
          have done : config.phase i = .running (.done result) := by rw [inv.phases, stage]; rfl
          rcases Config.execute_finish (sem.atomically impl) programs done with
            ⟨configAfter, executed, arrived, phases, image⟩
          refine ⟨configAfter, executed, inv.relabel rfl rfl (by rw [stage]; rfl)
            (inv.owned.keep (fun lock held => ?_) (others rfl)) (fun _ _ _ _ impossible => by cases impossible) arrived
            phases image⟩
          simp only [Machine.setStage, Function.update_self] at held
          exact False.elim held
      | call op next =>
          simp only [Machine.step, stage] at stepped
          cases stepped
          rw [← stage]
          refine quiet rfl rfl (by rw [stage]; rfl) (inv.owned.keep (fun lock held => ?_) (others rfl))
            (fun _ _ _ _ impossible => by cases impossible) (by rw [stage]; rfl) (by rw [stage]; rfl)
          simp only [Machine.setStage, Function.update_self] at held
          exact False.elim (held.2 held.1)
  | acquiring op next todo =>
      cases todo with
      | nil =>
          simp only [Machine.step, stage] at stepped
          cases stepped
          rw [← stage]
          exact inv.enter (orderly op) stage rfl rfl rfl
      | cons lock todo =>
          simp only [Machine.step, stage] at stepped
          by_cases free : machine.owner lock = none
          · rw [if_pos free] at stepped
            cases stepped
            rw [← stage]
            refine quiet rfl rfl (by rw [stage]; rfl) (inv.owned.take free (fun wanted held other => ?_) (others rfl))
              (fun _ _ _ _ impossible => by cases impossible) (by rw [stage]; rfl) (by rw [stage]; rfl)
            simp only [Machine.setStage, Function.update_self] at held
            rw [stage]
            exact ⟨held.1, fun listed => (List.mem_cons.mp listed).elim other held.2⟩
          · rw [if_neg free] at stepped
            cases stepped
  | running op next rest =>
      cases rest with
      | call small rest =>
          simp only [Machine.step, stage] at stepped
          cases stepped
          rw [← stage]
          exact inv.operate stage rfl rfl rfl
      | done result =>
          simp only [Machine.step, stage] at stepped
          cases stepped
          rw [← stage]
          refine quiet rfl rfl (by rw [stage]; rfl) (inv.owned.keep (fun lock held => ?_) (others rfl)) ?_
            (by rw [stage]; rfl) (by rw [stage]; rfl)
          · simp only [Machine.setStage, Function.update_self] at held
            rw [stage]
            exact held
          · intro _ _ _ _ releasing
            cases releasing
            exact (impl op).nodup
  | releasing op next result todo =>
      have distinct := inv.distinct i op next result todo stage
      cases todo with
      | nil =>
          simp only [Machine.step, stage] at stepped
          cases stepped
          rw [← stage]
          refine quiet rfl rfl (by rw [stage]; rfl) (inv.owned.keep (fun lock held => ?_) (others rfl))
            (fun _ _ _ _ impossible => by cases impossible) (by rw [stage]; rfl) (by rw [stage]; rfl)
          simp only [Machine.setStage, Function.update_self] at held
          exact False.elim held
      | cons lock todo =>
          simp only [Machine.step, stage] at stepped
          cases stepped
          have mine : (machine.stage i).Holds impl lock := by rw [stage]; exact List.mem_cons_self
          rw [← stage]
          refine quiet rfl rfl (by rw [stage]; rfl) (inv.owned.drop mine (fun wanted held => ?_) (others rfl)) ?_
            (by rw [stage]; rfl) (by rw [stage]; rfl)
          · simp only [Machine.setStage, Function.update_self] at held
            have listed : wanted ∈ todo := held
            refine ⟨fun same => (List.nodup_cons.mp distinct).1 (same ▸ listed), ?_⟩
            rw [stage]
            exact List.mem_cons_of_mem lock listed
          · intro _ _ _ _ releasing
            cases releasing
            exact (List.nodup_cons.mp distinct).2
  | finished result =>
      simp only [Machine.step, stage] at stepped
      cases stepped

/-- A schedule of the machine is its condensed schedule with whole calls. -/
theorem Condensed.execute (inv : Condensed memory sem guard visible impl machine config)
    (orderly : forall op, (impl op).Orderly memory sem guard visible) {schedule : List ι}
    (run : Machine.execute sem impl programs machine schedule = some after) :
    Exists fun configAfter => Config.execute (sem.atomically impl) (fun i => (programs i).unlocked) config
        (Machine.condense sem impl programs machine schedule) = some configAfter ∧
      Condensed memory sem guard visible impl after configAfter := by
  induction schedule generalizing machine config with
  | nil =>
      cases run
      exact ⟨config, rfl, inv⟩
  | cons i rest ih =>
      simp only [Machine.execute] at run
      cases stepped : machine.step sem impl programs i with
      | none => rw [stepped] at run; cases run
      | some middle =>
          rw [stepped] at run
          rcases inv.step orderly stepped with ⟨configMiddle, first, invMiddle⟩
          rcases ih invMiddle run with ⟨configAfter, second, invAfter⟩
          refine ⟨configAfter, ?_, invAfter⟩
          simp only [Machine.condense, stepped]
          rw [Config.execute_append, first]
          exact second

theorem Machine.condensed (orderly : forall op, (impl op).Orderly memory sem guard visible) {start : σ}
    {schedule : List ι} (run : Machine.execute sem impl programs (Machine.initial start) schedule = some machine) :
    Exists fun config => Config.execute (sem.atomically impl) (fun i => (programs i).unlocked) (Config.initial start)
        (Machine.condense sem impl programs (Machine.initial start) schedule) = some config ∧
      Condensed memory sem guard visible impl machine config :=
  (Condensed.initial start).execute orderly run

/-- Condensing keeps real time. -/
theorem Machine.before_condense (orderly : forall op, (impl op).Orderly memory sem guard visible) {start : σ}
    {schedule : List ι} {j : ι} (earlier : Machine.Before sem impl programs (Machine.initial start) schedule i j) :
    Config.Before (sem.atomically impl) (fun i => (programs i).unlocked) (Config.initial start)
      (Machine.condense sem impl programs (Machine.initial start) schedule) i j := by
  rcases earlier with ⟨before, later, middle, result, rfl, reached, finished, idle⟩
  rcases Machine.condensed orderly reached with ⟨config, executed, inv⟩
  refine ⟨_, _, config, result, Machine.condense_append reached later, executed, ?_, ?_⟩
  · rw [inv.phases, finished]
    rfl
  · rw [inv.phases, idle]
    rfl

end Atomic
end Effect
