import Mathlib.Logic.Function.Basic
import Mathlib.Tactic.Common

/-!
# Programs over a shared state

A program is a tree of atomic operations on a shared state.  Each node names
one operation and continues with its result, so the tree records exactly the
points at which another program may intervene.  Running a program without
interruption is its sequential meaning; the interleaved meaning is given in
`Interleaving`.

Nothing here depends on what the operations are.  A signature lists them with
their result types, and a semantics says what each does to a state.
-/

namespace Effect

/-- The operations a program may perform, with the type of each result. -/
structure Signature where
  Op : Type
  Result : Op -> Type

/-- A finite tree of operations.  The continuation receives the result. -/
inductive Program (S : Signature) (α : Type) : Type
  | done (value : α)
  | call (op : S.Op) (next : S.Result op -> Program S α)

namespace Program

variable {S : Signature} {α β : Type}

def bind (program : Program S α) (next : α -> Program S β) : Program S β :=
  match program with
  | .done value => next value
  | .call op rest => .call op (fun result => (rest result).bind next)

instance : Monad (Program S) where
  pure := .done
  bind := bind

/-- Perform one operation and return its result. -/
def perform (op : S.Op) : Program S (S.Result op) :=
  .call op .done

@[simp] theorem pure_eq (value : α) : (pure value : Program S α) = .done value := rfl

@[simp] theorem done_bind (value : α) (next : α -> Program S β) :
    (Program.done value >>= next) = next value := rfl

@[simp] theorem call_bind (op : S.Op) (rest : S.Result op -> Program S α)
    (next : α -> Program S β) :
    (Program.call op rest >>= next) = .call op (fun result => rest result >>= next) := rfl

@[simp] theorem perform_bind (op : S.Op) (next : S.Result op -> Program S β) :
    (perform op >>= next) = .call op next := rfl

instance : LawfulMonad (Program S) :=
  LawfulMonad.mk' (Program S)
    (by
      intro α program
      induction program with
      | done value => rfl
      | call op rest ih => exact congrArg (Program.call op) (funext ih))
    (by intros; rfl)
    (by
      intro α β γ program first second
      induction program with
      | done value => rfl
      | call op rest ih => exact congrArg (Program.call op) (funext ih))

end Program

/-- What every operation does to a state. -/
structure Semantics (S : Signature) (σ : Type) where
  exec : (op : S.Op) -> σ -> S.Result op × σ

namespace Semantics

variable {S : Signature} {σ α β ε : Type} (sem : Semantics S σ)

/-- The uninterrupted meaning of a program. -/
def run : Program S α -> σ -> α × σ
  | .done value, state => (value, state)
  | .call op next, state => run (next (sem.exec op state).1) (sem.exec op state).2

@[simp] theorem run_done (value : α) (state : σ) :
    sem.run (.done value) state = (value, state) := rfl

@[simp] theorem run_call (op : S.Op) (next : S.Result op -> Program S α) (state : σ) :
    sem.run (.call op next) state =
      sem.run (next (sem.exec op state).1) (sem.exec op state).2 := rfl

@[simp] theorem run_bind (program : Program S α) (next : α -> Program S β) (state : σ) :
    sem.run (program >>= next) state =
      sem.run (next (sem.run program state).1) (sem.run program state).2 := by
  induction program generalizing state with
  | done value => rfl
  | call op rest ih => exact ih _ _

/-- Sequencing of fallible programs, with the error branch made explicit. -/
theorem run_exceptBind (program : ExceptT ε (Program S) α)
    (next : α -> ExceptT ε (Program S) β) (state : σ) :
    sem.run (program >>= next).run state =
      match sem.run program.run state with
      | (.ok value, after) => sem.run (next value).run after
      | (.error error, after) => (.error error, after) := by
  rw [ExceptT.run_bind, run_bind]
  rcases sem.run program.run state with ⟨outcome, after⟩
  cases outcome <;> rfl

/-- A semantics whose operations look like those of another one through a view
runs every program as that one does. -/
theorem run_view {τ : Type} {other : Semantics S τ} (view : σ -> τ)
    (result : forall op state, (sem.exec op state).1 = (other.exec op (view state)).1)
    (state : forall op state, view (sem.exec op state).2 = (other.exec op (view state)).2)
    (program : Program S α) (start : σ) :
    (sem.run program start).1 = (other.run program (view start)).1 ∧
      view (sem.run program start).2 = (other.run program (view start)).2 := by
  induction program generalizing start with
  | done value => exact ⟨rfl, rfl⟩
  | call op next ih =>
      rw [run_call, run_call, ← result op start, ← state op start]
      exact ih _ _

/-! ## Checked programs -/

/-- The program fails without a change, or succeeds with the postcondition. -/
def Guards (program : ExceptT ε (Program S) α) (state : σ) (post : α -> σ -> Prop) : Prop :=
  match sem.run program.run state with
  | (.ok value, after) => post value after
  | (.error _, after) => after = state

/-- A program that succeeds without a change may precede a checked one. -/
theorem Guards.bind {program : ExceptT ε (Program S) α} {next : α -> ExceptT ε (Program S) β} {state : σ}
    {post : β -> σ -> Prop}
    (first : sem.Guards program state (fun value middle => middle = state ∧ sem.Guards (next value) state post)) :
    sem.Guards (program >>= next) state post := by
  unfold Guards at first ⊢
  rw [run_exceptBind]
  generalize sem.run program.run state = ended at first ⊢
  rcases ended with ⟨outcome, middle⟩
  cases outcome with
  | error error => exact first
  | ok value =>
      rcases first with ⟨rfl, rest⟩
      exact rest

theorem Guards.mono {program : ExceptT ε (Program S) α} {state : σ} {post weaker : α -> σ -> Prop}
    (guards : sem.Guards program state post) (weaken : forall value after, post value after -> weaker value after) :
    sem.Guards program state weaker := by
  unfold Guards at guards ⊢
  generalize sem.run program.run state = ended at guards ⊢
  rcases ended with ⟨outcome, after⟩
  cases outcome with
  | error error => exact guards
  | ok value => exact weaken value after guards

/-! ## Two runs of one program -/

/-- From related states the program gives equal results and related states. -/
def Couples (relation : σ -> σ -> Prop) (program : Program S α) : Prop :=
  forall left right, relation left right ->
    (sem.run program left).1 = (sem.run program right).1 ∧
      relation (sem.run program left).2 (sem.run program right).2

theorem Couples.done {relation : σ -> σ -> Prop} (value : α) : sem.Couples relation (.done value) :=
  fun _ _ related => ⟨rfl, related⟩

theorem Couples.bind {relation : σ -> σ -> Prop} {program : Program S α} {next : α -> Program S β}
    (first : sem.Couples relation program) (rest : forall value, sem.Couples relation (next value)) :
    sem.Couples relation (program >>= next) := by
  intro left right related
  rcases first left right related with ⟨same, middle⟩
  rw [run_bind, run_bind, same]
  exact rest _ _ _ middle

theorem Couples.exceptBind {relation : σ -> σ -> Prop} {program : ExceptT ε (Program S) α}
    {next : α -> ExceptT ε (Program S) β} (first : sem.Couples relation program.run)
    (rest : forall value, sem.Couples relation (next value).run) :
    sem.Couples relation (program >>= next).run := by
  rw [ExceptT.run_bind]
  refine Couples.bind sem first (fun outcome => ?_)
  cases outcome with
  | ok value => exact rest value
  | error error => exact Couples.done sem _

end Semantics
end Effect
