import Keydock.Foundation.Interleaving
import Mathlib.Order.WellFounded

/-!
# Progress under ordered locks

Locks are not reentrant: a caller that wants a lock waits as long as anyone
owns it, itself included.  When every call takes its locks in ascending order,
a caller waits only for a lock above all those it holds.  The owner of that
lock can move, or it waits for a lock that is higher still; since the ascent
ends, some caller that has begun and not answered can move.
-/

namespace Effect

variable {S : Signature} {σ ι L ρ : Type}

/-- The call has been invoked and has not answered. -/
def Phase.Pending : Phase S L ρ -> Prop
  | .idle | .finished _ => False
  | .acquiring _ | .running _ | .releasing _ _ => True

/-- What the lock table records: an owned lock is held by its owner, and a
caller that acquires has a final segment of its locks before it. -/
structure LockTable (calls : ι -> Call S L ρ) (config : Config S σ ι L ρ) : Prop where
  held : forall lock i, config.owner lock = some i -> (config.phase i).Holds (calls i) lock
  remaining : forall i todo, config.phase i = .acquiring todo -> todo <:+ (calls i).locks

namespace LockTable

variable {calls : ι -> Call S L ρ} {config after : Config S σ ι L ρ} {i : ι} {sem : Semantics S σ}

theorem initial (start : σ) : LockTable calls (Config.initial start : Config S σ ι L ρ) where
  held := by
    intro lock i owned
    cases owned
  remaining := by
    intro i todo acquiring
    cases acquiring

/-- A caller never waits for a lock that it holds. -/
theorem not_own (table : LockTable calls config) {lock : L} {todo : List L}
    (waiting : config.phase i = .acquiring (lock :: todo)) : config.owner lock ≠ some i := by
  intro owned
  have holds := table.held lock i owned
  rw [waiting] at holds
  exact holds.2 List.mem_cons_self

/-- What a waiting caller holds lies below what it waits for. -/
theorem held_below [Preorder L] (table : LockTable calls config)
    (ascending : (calls i).locks.Pairwise (fun left right => left < right)) {lock wanted : L} {todo : List L}
    (owned : config.owner lock = some i) (waiting : config.phase i = .acquiring (wanted :: todo)) :
    lock < wanted := by
  have holds := table.held lock i owned
  rw [waiting] at holds
  rcases holds with ⟨mine, taken⟩
  rcases table.remaining i _ waiting with ⟨earlier, split⟩
  rw [← split] at ascending mine
  have before : lock ∈ earlier := (List.mem_append.mp mine).resolve_right taken
  exact (List.pairwise_append.mp ascending).2.2 lock before wanted List.mem_cons_self

variable [DecidableEq ι]

/-- A step changes the phase of its caller and the owner of the lock it takes
or gives back. -/
theorem move (table : LockTable calls config) {fresh : Phase S L ρ} (owner : L -> Option ι)
    (owners : forall lock j, j ≠ i -> owner lock = some j -> config.owner lock = some j)
    (heldHere : forall lock, owner lock = some i -> fresh.Holds (calls i) lock)
    (remainingHere : forall todo, fresh = .acquiring todo -> todo <:+ (calls i).locks)
    (owned : after.owner = owner) (moved : after.phase = Function.update config.phase i fresh) :
    LockTable calls after := by
  constructor
  · intro lock j holder
    rw [owned] at holder
    rw [moved]
    by_cases here : j = i
    · subst here
      rw [Function.update_self]
      exact heldHere lock holder
    · rw [Function.update_of_ne here]
      exact table.held lock j (owners lock j here holder)
  · intro j todo acquiring
    rw [moved] at acquiring
    by_cases here : j = i
    · subst here
      rw [Function.update_self] at acquiring
      exact remainingHere todo acquiring
    · rw [Function.update_of_ne here] at acquiring
      exact table.remaining j todo acquiring

variable [DecidableEq L]

/-- Every step keeps the lock table. -/
theorem step (table : LockTable calls config) (stepped : config.step sem calls i = some after) :
    LockTable calls after := by
  have here := table.held
  cases phase : config.phase i with
  | idle =>
      simp only [Config.step, phase] at stepped
      cases stepped
      refine table.move config.owner (fun _ _ _ same => same) ?_ ?_ rfl rfl
      · intro lock owned
        have holds := here lock i owned
        rw [phase] at holds
        exact False.elim holds
      · intro todo acquiring
        cases acquiring
        exact List.suffix_refl _
  | acquiring todo =>
      have suffix := table.remaining i todo phase
      cases todo with
      | nil =>
          simp only [Config.step, phase] at stepped
          cases stepped
          refine table.move config.owner (fun _ _ _ same => same) ?_ (fun _ impossible => by cases impossible) rfl rfl
          intro lock owned
          have holds := here lock i owned
          rw [phase] at holds
          exact holds.1
      | cons lock todo =>
          simp only [Config.step, phase] at stepped
          split at stepped
          next =>
            cases stepped
            refine table.move (Function.update config.owner lock (some i)) ?_ ?_ ?_ rfl rfl
            · intro wanted j different owned
              by_cases same : wanted = lock
              · rw [same, Function.update_self] at owned
                exact absurd (Option.some.inj owned).symm different
              · rw [Function.update_of_ne same] at owned
                exact owned
            · intro wanted owned
              by_cases same : wanted = lock
              · subst same
                -- The locks of a call are distinct, so the one just taken is
                -- not among those still to take.
                have distinct := List.Nodup.sublist suffix.sublist (calls i).nodup
                exact ⟨suffix.subset List.mem_cons_self, (List.nodup_cons.mp distinct).1⟩
              · rw [Function.update_of_ne same] at owned
                have holds := here wanted i owned
                rw [phase] at holds
                exact ⟨holds.1, fun listed => holds.2 (List.mem_cons_of_mem lock listed)⟩
            · intro rest acquiring
              cases acquiring
              exact (List.suffix_cons lock todo).trans suffix
          next => cases stepped
  | running rest =>
      cases rest with
      | call op next =>
          simp only [Config.step, phase] at stepped
          cases stepped
          refine table.move config.owner (fun _ _ _ same => same) ?_ (fun _ impossible => by cases impossible) rfl rfl
          intro lock owned
          have holds := here lock i owned
          rw [phase] at holds
          exact holds
      | done result =>
          simp only [Config.step, phase] at stepped
          cases stepped
          refine table.move config.owner (fun _ _ _ same => same) ?_ (fun _ impossible => by cases impossible) rfl rfl
          intro lock owned
          have holds := here lock i owned
          rw [phase] at holds
          exact holds
  | releasing result todo =>
      cases todo with
      | nil =>
          simp only [Config.step, phase] at stepped
          cases stepped
          refine table.move config.owner (fun _ _ _ same => same) ?_ (fun _ impossible => by cases impossible) rfl rfl
          intro lock owned
          have holds := here lock i owned
          rw [phase] at holds
          exact absurd holds List.not_mem_nil
      | cons lock todo =>
          simp only [Config.step, phase] at stepped
          cases stepped
          have other : forall wanted holder, Function.update config.owner lock none wanted = some holder ->
              wanted ≠ lock ∧ config.owner wanted = some holder := by
            intro wanted holder owned
            by_cases same : wanted = lock
            · rw [same, Function.update_self] at owned
              cases owned
            · rw [Function.update_of_ne same] at owned
              exact ⟨same, owned⟩
          refine table.move (Function.update config.owner lock none) (fun wanted j _ owned => (other wanted j owned).2)
            ?_ (fun _ impossible => by cases impossible) rfl rfl
          intro wanted owned
          rcases other wanted i owned with ⟨different, before⟩
          have holds := here wanted i before
          rw [phase] at holds
          exact (List.mem_cons.mp holds).resolve_left different
  | finished result =>
      simp only [Config.step, phase] at stepped
      cases stepped

theorem execute {start : σ} {schedule : List ι}
    (run : Config.execute sem calls (Config.initial start) schedule = some config) : LockTable calls config :=
  Config.execute_preserves (fun _ _ _ table stepped => table.step stepped) (initial start) run

/-- Behind every caller that waits for a lock there is one that can move. -/
theorem waiting_progress [Preorder L] [WellFoundedGT L] (table : LockTable calls config)
    (ascending : forall i, (calls i).locks.Pairwise (fun left right => left < right)) (lock : L) :
    forall i todo, config.phase i = .acquiring (lock :: todo) ->
      Exists fun j => (config.phase j).Pending ∧ (config.step sem calls j).isSome = true := by
  induction lock using WellFoundedGT.induction with
  | ind lock higher =>
      intro i todo waiting
      cases owner : config.owner lock with
      | none =>
          refine ⟨i, by rw [waiting]; trivial, ?_⟩
          simp only [Config.step, waiting, owner, if_true, Option.isSome_some]
      | some j =>
          have holds := table.held lock j owner
          cases phase : config.phase j with
          | idle => rw [phase] at holds; exact False.elim holds
          | finished result => rw [phase] at holds; exact False.elim holds
          | acquiring rest =>
              cases rest with
              | nil => exact ⟨j, by rw [phase]; trivial, by simp only [Config.step, phase, Option.isSome_some]⟩
              | cons wanted rest => exact higher wanted (table.held_below (ascending j) owner phase) j rest phase
          | running rest =>
              refine ⟨j, by rw [phase]; trivial, ?_⟩
              cases rest <;> simp only [Config.step, phase, Option.isSome_some]
          | releasing result rest =>
              refine ⟨j, by rw [phase]; trivial, ?_⟩
              cases rest <;> simp only [Config.step, phase, Option.isSome_some]

/-- As long as a call is pending, a pending call can move. -/
theorem progress [Preorder L] [WellFoundedGT L] (table : LockTable calls config)
    (ascending : forall i, (calls i).locks.Pairwise (fun left right => left < right))
    (pending : (config.phase i).Pending) :
    Exists fun j => (config.phase j).Pending ∧ (config.step sem calls j).isSome = true := by
  cases phase : config.phase i with
  | idle => rw [phase] at pending; exact False.elim pending
  | finished result => rw [phase] at pending; exact False.elim pending
  | acquiring todo =>
      cases todo with
      | nil => exact ⟨i, pending, by simp only [Config.step, phase, Option.isSome_some]⟩
      | cons lock todo => exact table.waiting_progress ascending lock i todo phase
  | running rest =>
      refine ⟨i, pending, ?_⟩
      cases rest <;> simp only [Config.step, phase, Option.isSome_some]
  | releasing result todo =>
      refine ⟨i, pending, ?_⟩
      cases todo <;> simp only [Config.step, phase, Option.isSome_some]

end LockTable
end Effect
