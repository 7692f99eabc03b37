import Keydock.Foundation.Interleaving

/-!
# Unlocked reads between locked calls

A store may serve reads without a lock while locked calls are under way.  Call
a part of the state visible.  Assume that a locked call changes the visible
part only with its last operation, and that a read is a single operation whose
result the visible part determines.  Then calls and reads together are
linearizable, in the order in which their programs ended.

The argument is a simulation.  At every point of an interleaving the visible
part of the state is the one that the programs which have ended leave when they
run one after another.  The rest of the state differs from theirs only at
locations guarded by calls still running, and there it is what the call has
done so far on its own.  Nothing is assumed about the end of the interleaving,
so this also says what an interruption leaves behind.
-/

namespace Effect

variable {S : Signature} {σ ι L ρ Loc Val : Type}

/-! ## Programs on their way -/

/-- Run without interruption, the program comes by this remainder in this
state. -/
inductive Semantics.Passes (sem : Semantics S σ) (program : Program S ρ) (start : σ) : Program S ρ -> σ -> Prop
  | here : Semantics.Passes sem program start program start
  | later {op : S.Op} {next : S.Result op -> Program S ρ} {middle : σ}
      (earlier : Semantics.Passes sem program start (.call op next) middle) :
      Semantics.Passes sem program start (next (sem.exec op middle).1) (sem.exec op middle).2

namespace Semantics.Passes

variable {sem : Semantics S σ} {program rest : Program S ρ} {start middle : σ}

theorem run (passes : sem.Passes program start rest middle) : sem.run program start = sem.run rest middle := by
  induction passes with
  | here => rfl
  | later earlier ih => rw [ih, Semantics.run_call]

end Semantics.Passes

namespace Program

/-- The program performs at most one operation, of a given kind. -/
def Once (kind : S.Op -> Prop) : Program S ρ -> Prop
  | .done _ => True
  | .call op next => kind op ∧ forall result, Exists fun value => next result = .done value

variable {kind : S.Op -> Prop} {program rest : Program S ρ}

theorem Once.map {τ : Type} (once : program.Once kind) (answer : ρ -> τ) :
    (program >>= fun value => .done (answer value)).Once kind := by
  cases program with
  | done value => trivial
  | call op next =>
      refine ⟨once.1, fun result => ?_⟩
      rcases once.2 result with ⟨value, ended⟩
      exact ⟨answer value, congrArg (fun rest => rest >>= fun value => .done (answer value)) ended⟩

/-- A program of one operation has not begun as long as it is not done. -/
theorem Once.passes {sem : Semantics S σ} {start middle : σ} (once : program.Once kind)
    (passes : sem.Passes program start rest middle) :
    (rest = program ∧ middle = start) ∨ Exists fun value => rest = .done value := by
  induction passes with
  | here => exact .inl ⟨rfl, rfl⟩
  | later earlier ih =>
      rcases ih with ⟨same, _⟩ | ⟨value, impossible⟩
      · rw [← same] at once
        exact .inr (once.2 _)
      · cases impossible

end Program

namespace Memory

variable (memory : Memory σ Loc Val) (sem : Semantics S σ) (visible : Loc -> Prop)

/-- Only the last operation of the program changes the visible part. -/
def ShowsLast : Program S ρ -> Prop
  | .done _ => True
  | .call op next =>
      (forall state, memory.Agree visible (sem.exec op state).2 state ∨
        Exists fun value => next (sem.exec op state).1 = .done value) ∧
      forall result, ShowsLast (next result)

/-- An operation that changes nothing and whose result the visible part
determines. -/
structure Observes (op : S.Op) : Prop where
  result : forall left right, memory.Agree visible left right -> (sem.exec op left).1 = (sem.exec op right).1
  unchanged : forall state, (sem.exec op state).2 = state

variable {memory sem visible} {region : Loc -> Prop} {program rest : Program S ρ} {start middle : σ}

theorem Agree.symm {left right : σ} (agree : memory.Agree region left right) : memory.Agree region right left :=
  fun x inside => (agree x inside).symm

theorem Agree.trans {first second third : σ} (earlier : memory.Agree region first second)
    (later : memory.Agree region second third) : memory.Agree region first third :=
  fun x inside => (earlier x inside).trans (later x inside)

theorem ConfinedProgram.passes (confined : memory.ConfinedProgram sem region program)
    (passes : sem.Passes program start rest middle) : memory.ConfinedProgram sem region rest := by
  induction passes with
  | here => exact confined
  | later earlier ih => exact ih.2 _

theorem ShowsLast.passes (late : memory.ShowsLast sem visible program)
    (passes : sem.Passes program start rest middle) : memory.ShowsLast sem visible rest := by
  induction passes with
  | here => exact late
  | later earlier ih => exact ih.2 _

theorem ShowsLast.mono {less : Loc -> Prop} (late : memory.ShowsLast sem visible program)
    (weaker : forall x, less x -> visible x) : memory.ShowsLast sem less program := by
  induction program with
  | done value => trivial
  | call op next ih =>
      refine ⟨fun state => ?_, fun result => ih result (late.2 result)⟩
      exact (late.1 state).imp_left (fun agree x inside => agree x (weaker x inside))

/-- An operation that changes nothing in sight may come first. -/
theorem ShowsLast.hidden {op : S.Op} {next : S.Result op -> Program S ρ}
    (unseen : forall state, memory.Agree visible (sem.exec op state).2 state)
    (rest : forall result, memory.ShowsLast sem visible (next result)) :
    memory.ShowsLast sem visible (.call op next) :=
  ⟨fun state => .inl (unseen state), rest⟩

theorem ShowsLast.last {op : S.Op} {next : S.Result op -> Program S ρ}
    (ends : forall result, Exists fun value => next result = .done value) :
    memory.ShowsLast sem visible (.call op next) := by
  refine ⟨fun state => .inr (ends _), fun result => ?_⟩
  rcases ends result with ⟨value, ended⟩
  rw [ended]
  trivial

/-- What is done with the result shows nothing. -/
theorem ShowsLast.map {τ : Type} (late : memory.ShowsLast sem visible program) (answer : ρ -> τ) :
    memory.ShowsLast sem visible (program >>= fun value => .done (answer value)) := by
  induction program with
  | done value => trivial
  | call op next ih =>
      refine ⟨fun state => (late.1 state).imp_right ?_, fun result => ih result (late.2 result)⟩
      rintro ⟨value, ended⟩
      exact ⟨answer value, congrArg (fun rest => rest >>= fun value => .done (answer value)) ended⟩

/-- Until its last operation the program has changed nothing in sight. -/
theorem ShowsLast.unseen (late : memory.ShowsLast sem visible program) {op : S.Op}
    {next : S.Result op -> Program S ρ} (passes : sem.Passes program start (.call op next) middle) :
    memory.Agree visible middle start := by
  generalize reached : Program.call op next = rest at passes
  induction passes generalizing op next with
  | here => exact fun _ _ => rfl
  | @later head continuation state earlier ih =>
      rcases (late.passes earlier).1 state with hidden | ⟨value, ended⟩
      · exact hidden.trans (ih rfl)
      · rw [ended] at reached
        cases reached

/-- Observing changes nothing. -/
theorem Observes.unchanged_run (once : program.Once (memory.Observes sem visible)) (state : σ) :
    (sem.run program state).2 = state := by
  cases program with
  | done value => rfl
  | call op next =>
      rcases once.2 (sem.exec op state).1 with ⟨value, ended⟩
      rw [Semantics.run_call, ended, once.1.unchanged]
      rfl

/-- A confined program leaves the other locations alone. -/
theorem ConfinedProgram.frame (confined : memory.ConfinedProgram sem region program) (state : σ) {x : Loc}
    (outside : ¬ region x) : memory.read (sem.run program state).2 x = memory.read state x := by
  induction program generalizing state with
  | done value => rfl
  | call op next ih =>
      rw [Semantics.run_call, ih _ (confined.2 _) _]
      exact confined.1.frame state x outside

/-- From a state that looks the same inside the region, the program comes by
the same remainders. -/
theorem ConfinedProgram.transfer (confined : memory.ConfinedProgram sem region program) {other : σ}
    (agree : memory.Agree region start other) (passes : sem.Passes program start rest middle) :
    Exists fun met => sem.Passes program other rest met ∧ memory.Agree region middle met := by
  induction passes with
  | here => exact ⟨other, .here, agree⟩
  | later earlier ih =>
      rcases ih with ⟨met, arrives, same⟩
      have operation := (confined.passes earlier).1
      refine ⟨_, ?_, operation.effect _ _ same⟩
      rw [operation.result _ _ same]
      exact arrives.later

end Memory

/-! ## Locks and their holders -/

/-- The locations a call works on: those guarded by one of its locks. -/
def Call.domain (guard : Loc -> Option L) (call : Call S L ρ) (x : Loc) : Prop :=
  Exists fun lock => guard x = some lock ∧ lock ∈ call.locks

/-- Whoever holds a lock owns it. -/
def Owned (owner : L -> Option ι) (holds : ι -> L -> Prop) : Prop :=
  forall i lock, holds i lock -> owner lock = some i

namespace Owned

variable {owner : L -> Option ι} {holds after : ι -> L -> Prop} {i j : ι}

/-- Callers that hold all the locks of their calls work apart. -/
theorem apart {τ : Type} (owned : Owned owner holds) {guard : Loc -> Option L} {mine : Call S L ρ}
    {theirs : Call S L τ} (different : i ≠ j) (first : forall lock, lock ∈ mine.locks -> holds i lock)
    (second : forall lock, lock ∈ theirs.locks -> holds j lock) (x : Loc) (inside : mine.domain guard x) :
    ¬ theirs.domain guard x := by
  rintro ⟨other, guardedOther, listedOther⟩
  rcases inside with ⟨lock, guarded, listed⟩
  have same : lock = other := Option.some.inj (guarded.symm.trans guardedOther)
  subst same
  have both := (owned i lock (first lock listed)).symm.trans (owned j lock (second lock listedOther))
  exact different (Option.some.inj both)

theorem keep (owned : Owned owner holds) (here : forall lock, after i lock -> holds i lock)
    (there : forall j, j ≠ i -> after j = holds j) : Owned owner after := by
  intro j lock held
  by_cases same : j = i
  · subst same
    exact owned j lock (here lock held)
  · rw [there j same] at held
    exact owned j lock held

variable [DecidableEq L]

/-- A free lock is taken. -/
theorem take (owned : Owned owner holds) {lock : L} (free : owner lock = none)
    (here : forall wanted, after i wanted -> wanted ≠ lock -> holds i wanted)
    (there : forall j, j ≠ i -> after j = holds j) : Owned (Function.update owner lock (some i)) after := by
  intro j wanted held
  by_cases same : j = i
  · subst same
    by_cases taken : wanted = lock
    · rw [taken, Function.update_self]
    · rw [Function.update_of_ne taken]
      exact owned j wanted (here wanted held taken)
  · rw [there j same] at held
    have holder := owned j wanted held
    have other : wanted ≠ lock := by
      rintro rfl
      rw [free] at holder
      cases holder
    rw [Function.update_of_ne other]
    exact holder

/-- A lock is given back by its holder. -/
theorem drop (owned : Owned owner holds) {lock : L} (mine : holds i lock)
    (here : forall wanted, after i wanted -> wanted ≠ lock ∧ holds i wanted)
    (there : forall j, j ≠ i -> after j = holds j) : Owned (Function.update owner lock none) after := by
  intro j wanted held
  by_cases same : j = i
  · subst same
    rw [Function.update_of_ne (here wanted held).1]
    exact owned j wanted (here wanted held).2
  · rw [there j same] at held
    have holder := owned j wanted held
    have other : wanted ≠ lock := by
      rintro rfl
      exact same (Option.some.inj (holder.symm.trans (owned i wanted mine)))
    rw [Function.update_of_ne other]
    exact holder

end Owned

/-! ## Calls in progress -/

/-- A call in progress: its next operation and what follows it. -/
structure Ongoing (S : Signature) (L : Type) where
  Result : Type
  call : Call S L Result
  op : S.Op
  next : S.Result op -> Program S Result

section Linked

variable (memory : Memory σ Loc Val) (sem : Semantics S σ) (guard : Loc -> Option L) (visible : Loc -> Prop)

/-- A call works under its locks and shows its effect last, or makes one
observation, or performs one operation where no lock guards. -/
inductive Call.Orderly (call : Call S L ρ) : Prop
  | locked (confined : memory.ConfinedProgram sem (call.domain guard) call.body)
      (late : memory.ShowsLast sem visible call.body)
  | observing (once : call.body.Once (memory.Observes sem visible))
  | unguarded (once : call.body.Once (memory.Confined sem (fun x => guard x = none)))

/-- The shared state and the image in which only whole calls have run. -/
structure Linked (shared image : σ) (ongoing : ι -> Option (Ongoing S L)) : Prop where
  orderly : forall i activity, ongoing i = some activity -> activity.call.Orderly memory sem guard visible
  apart : forall i j mine theirs, i ≠ j -> ongoing i = some mine -> ongoing j = some theirs ->
    forall x, mine.call.domain guard x -> ¬ theirs.call.domain guard x
  shown : memory.Agree visible shared image
  elsewhere : forall x, (forall i activity, ongoing i = some activity -> ¬ activity.call.domain guard x) ->
    memory.read shared x = memory.read image x
  underway : forall i activity, ongoing i = some activity -> Exists fun middle =>
    sem.Passes activity.call.body image (.call activity.op activity.next) middle ∧
      memory.Agree (activity.call.domain guard) shared middle

namespace Linked

variable {memory sem guard visible} {shared image sharedAfter imageAfter : σ}
variable {ongoing after : ι -> Option (Ongoing S L)} {activity : Ongoing S L} {i : ι}

theorem quiet (state : σ) (none : forall i, ongoing i = none) :
    Linked memory sem guard visible state state ongoing where
  orderly := fun i activity here => by rw [none i] at here; cases here
  apart := fun i _ mine _ _ here => by rw [none i] at here; cases here
  shown := fun _ _ => rfl
  elsewhere := fun _ _ => rfl
  underway := fun i activity here => by rw [none i] at here; cases here

/-- Without calls in progress nothing is hidden. -/
theorem eq_of_quiet (linked : Linked memory sem guard visible shared image ongoing) (none : forall i, ongoing i = none) :
    shared = image :=
  memory.ext (fun x => linked.elsewhere x (fun i activity here => by rw [none i] at here; cases here))

/-- Where no lock guards, nothing is hidden. -/
theorem unguarded (linked : Linked memory sem guard visible shared image ongoing) :
    memory.Agree (fun x => guard x = none) shared image := by
  intro x free
  refine linked.elsewhere x (fun i activity here inside => ?_)
  rcases inside with ⟨lock, guarded, _⟩
  rw [free] at guarded
  cases guarded

/-- How far a call has come is not affected by what happens outside its
domain. -/
theorem undisturbed (linked : Linked memory sem guard visible shared image ongoing) (here : ongoing i = some activity)
    (sharedAgree : memory.Agree (activity.call.domain guard) sharedAfter shared)
    (imageAgree : memory.Agree (activity.call.domain guard) image imageAfter) :
    Exists fun middle => sem.Passes activity.call.body imageAfter (.call activity.op activity.next) middle ∧
      memory.Agree (activity.call.domain guard) sharedAfter middle := by
  rcases linked.underway i activity here with ⟨middle, passes, agree⟩
  have unbegun : forall {property : S.Op -> Prop}, activity.call.body.Once property -> Exists fun middle =>
      sem.Passes activity.call.body imageAfter (.call activity.op activity.next) middle ∧
        memory.Agree (activity.call.domain guard) sharedAfter middle := by
    intro property once
    rcases once.passes passes with ⟨whole, rfl⟩ | ⟨value, impossible⟩
    · rw [whole]
      exact ⟨imageAfter, .here, (sharedAgree.trans agree).trans imageAgree⟩
    · cases impossible
  cases linked.orderly i activity here with
  | locked confined late =>
      rcases confined.transfer imageAgree passes with ⟨met, arrives, same⟩
      exact ⟨met, arrives, (sharedAgree.trans agree).trans same⟩
  | observing once => exact unbegun once
  | unguarded once => exact unbegun once

/-- A call enters while no other one works on its domain. -/
theorem enter (linked : Linked memory sem guard visible shared image ongoing) (absent : ongoing i = none)
    (orderly : activity.call.Orderly memory sem guard visible)
    (clear : forall j other, ongoing j = some other -> forall x, activity.call.domain guard x ->
      ¬ other.call.domain guard x)
    (begins : activity.call.body = .call activity.op activity.next) (here : after i = some activity)
    (there : forall j, j ≠ i -> after j = ongoing j) : Linked memory sem guard visible shared image after := by
  have split : forall j other, after j = some other -> (j = i ∧ other = activity) ∨ (j ≠ i ∧ ongoing j = some other) := by
    intro j other found
    by_cases same : j = i
    · rw [same, here] at found
      exact .inl ⟨same, (Option.some.inj found).symm⟩
    · rw [there j same] at found
      exact .inr ⟨same, found⟩
  refine ⟨?_, ?_, linked.shown, ?_, ?_⟩
  · intro j other found
    rcases split j other found with ⟨rfl, rfl⟩ | ⟨_, before⟩
    · exact orderly
    · exact linked.orderly j other before
  · intro j k mine theirs different first second x inside
    rcases split j mine first with ⟨rfl, rfl⟩ | ⟨_, before⟩
    · rcases split k theirs second with ⟨same, _⟩ | ⟨_, beforeOther⟩
      · exact absurd same.symm different
      · exact clear k theirs beforeOther x inside
    · rcases split k theirs second with ⟨rfl, rfl⟩ | ⟨_, beforeOther⟩
      · exact fun insideOther => clear j mine before x insideOther inside
      · exact linked.apart j k mine theirs different before beforeOther x inside
  · intro x free
    refine linked.elsewhere x (fun j other before => free j other ?_)
    have different : j ≠ i := by
      rintro rfl
      rw [absent] at before
      cases before
    rw [there j different]
    exact before
  · intro j other found
    rcases split j other found with ⟨rfl, rfl⟩ | ⟨_, before⟩
    · refine ⟨image, by rw [← begins]; exact .here, fun x inside => linked.elsewhere x (fun k other before => ?_)⟩
      exact clear k other before x inside
    · exact linked.underway j other before

/-- An operation that is not the last one of its call. -/
theorem advance (linked : Linked memory sem guard visible shared image ongoing) (here : ongoing i = some activity)
    {op : S.Op} {next : S.Result op -> Program S activity.Result}
    (rest : activity.next (sem.exec activity.op shared).1 = .call op next)
    (moved : after i = some ⟨activity.Result, activity.call, op, next⟩)
    (there : forall j, j ≠ i -> after j = ongoing j) :
    Linked memory sem guard visible (sem.exec activity.op shared).2 image after := by
  rcases linked.underway i activity here with ⟨middle, passes, agree⟩
  have impossible : forall {property : S.Op -> Prop}, activity.call.body.Once property -> False := by
    intro property once
    rcases once.passes passes with ⟨whole, _⟩ | ⟨value, ended⟩
    · rw [← whole] at once
      rcases once.2 (sem.exec activity.op shared).1 with ⟨value, ended⟩
      rw [rest] at ended
      cases ended
    · cases ended
  have orderly := linked.orderly i activity here
  cases orderly with
  | observing once => exact False.elim (impossible once)
  | unguarded once => exact False.elim (impossible once)
  | locked confined late =>
      have operation := (confined.passes passes).1
      have sameResult := operation.result _ _ agree
      have hidden : memory.Agree visible (sem.exec activity.op shared).2 shared := by
        rcases (late.passes passes).1 shared with hidden | ⟨value, ended⟩
        · exact hidden
        · rw [rest] at ended
          cases ended
      have split : forall j other, after j = some other -> Exists fun before => ongoing j = some before ∧
          (forall x, other.call.domain guard x ↔ before.call.domain guard x) ∧
          other.call.Orderly memory sem guard visible := by
        intro j other found
        by_cases same : j = i
        · rw [same, moved] at found
          rw [← Option.some.inj found, same]
          exact ⟨activity, here, fun x => Iff.rfl, .locked confined late⟩
        · rw [there j same] at found
          exact ⟨other, found, fun x => Iff.rfl, linked.orderly j other found⟩
      refine ⟨?_, ?_, hidden.trans linked.shown, ?_, ?_⟩
      · intro j other found
        rcases split j other found with ⟨_, _, _, orderly⟩
        exact orderly
      · intro j k mine theirs different first second x inside insideOther
        rcases split j mine first with ⟨mineBefore, before, same, _⟩
        rcases split k theirs second with ⟨theirsBefore, beforeOther, sameOther, _⟩
        exact linked.apart j k mineBefore theirsBefore different before beforeOther x ((same x).mp inside)
          ((sameOther x).mp insideOther)
      · intro x free
        have outside : ¬ activity.call.domain guard x := free i ⟨activity.Result, activity.call, op, next⟩ moved
        rw [operation.frame shared x outside]
        refine linked.elsewhere x (fun j other before => ?_)
        by_cases same : j = i
        · rw [same, here] at before
          rw [← Option.some.inj before]
          exact outside
        · exact free j other (by rw [there j same]; exact before)
      · intro j other found
        by_cases same : j = i
        · rw [same, moved] at found
          rw [← Option.some.inj found]
          refine ⟨_, ?_, operation.effect _ _ agree⟩
          rw [← rest, sameResult]
          exact passes.later
        · rw [there j same] at found
          refine linked.undisturbed found (fun x inside => operation.frame shared x ?_) (fun _ _ => rfl)
          exact linked.apart j i other activity same found here x inside

/-- A call ends: what it changed since it was entered lies in a region that no
other call works on, and there the two states agree. -/
theorem settle (linked : Linked memory sem guard visible shared image ongoing) (region : Loc -> Prop)
    (here : ongoing i = some activity) (covers : forall x, activity.call.domain guard x -> region x)
    (clear : forall j other, j ≠ i -> ongoing j = some other -> forall x, other.call.domain guard x -> ¬ region x)
    (sharedFrame : forall x, ¬ region x -> memory.read sharedAfter x = memory.read shared x)
    (imageFrame : forall x, ¬ region x -> memory.read imageAfter x = memory.read image x)
    (arrived : memory.Agree region sharedAfter imageAfter) (left : after i = none)
    (there : forall j, j ≠ i -> after j = ongoing j) :
    Linked memory sem guard visible sharedAfter imageAfter after := by
  have split : forall j other, after j = some other -> j ≠ i ∧ ongoing j = some other := by
    intro j other found
    have different : j ≠ i := by
      rintro rfl
      rw [left] at found
      cases found
    exact ⟨different, by rw [← there j different]; exact found⟩
  refine ⟨?_, ?_, ?_, ?_, ?_⟩
  · intro j other found
    exact linked.orderly j other (split j other found).2
  · intro j k mine theirs different first second
    exact linked.apart j k mine theirs different (split j mine first).2 (split k theirs second).2
  · intro x seen
    by_cases inside : region x
    · exact arrived x inside
    · rw [sharedFrame x inside, imageFrame x inside]
      exact linked.shown x seen
  · intro x free
    by_cases inside : region x
    · exact arrived x inside
    · rw [sharedFrame x inside, imageFrame x inside]
      refine linked.elsewhere x (fun j other before => ?_)
      by_cases same : j = i
      · rw [same, here] at before
        rw [← Option.some.inj before]
        exact fun mine => inside (covers x mine)
      · exact free j other (by rw [there j same]; exact before)
  · intro j other found
    rcases split j other found with ⟨different, before⟩
    refine linked.undisturbed before (fun x inside => sharedFrame x ?_) (fun x inside => (imageFrame x ?_).symm)
    · exact clear j other different before x inside
    · exact clear j other different before x inside

/-- The last operation of a call: in the image the whole call runs, with the
same result. -/
theorem finish (linked : Linked memory sem guard visible shared image ongoing) (here : ongoing i = some activity)
    {value : activity.Result} (rest : activity.next (sem.exec activity.op shared).1 = .done value)
    (left : after i = none) (there : forall j, j ≠ i -> after j = ongoing j) :
    (sem.run activity.call.body image).1 = value ∧
      Linked memory sem guard visible (sem.exec activity.op shared).2 (sem.run activity.call.body image).2 after := by
  rcases linked.underway i activity here with ⟨middle, passes, agree⟩
  have clear : forall j other, j ≠ i -> ongoing j = some other -> forall x, other.call.domain guard x ->
      ¬ activity.call.domain guard x :=
    fun j other different before => linked.apart j i other activity different before here
  cases linked.orderly i activity here with
  | locked confined late =>
      have operation := (confined.passes passes).1
      have ran : sem.run activity.call.body image = (value, (sem.exec activity.op middle).2) := by
        rw [passes.run, Semantics.run_call, ← operation.result _ _ agree, rest]
        rfl
      refine ⟨by rw [ran], linked.settle _ here (fun _ inside => inside) clear ?_ ?_ ?_ left there⟩
      · exact fun x outside => operation.frame shared x outside
      · exact fun x outside => confined.frame image outside
      · rw [ran]
        exact operation.effect _ _ agree
  | observing once =>
      rcases once.passes passes with ⟨whole, rfl⟩ | ⟨_, impossible⟩
      · rw [← whole] at once
        have ran : sem.run activity.call.body middle = (value, middle) := by
          rw [← whole, Semantics.run_call, ← once.1.result _ _ linked.shown, rest, once.1.unchanged]
          rfl
        rw [ran, once.1.unchanged]
        exact ⟨rfl, linked.settle _ here (fun _ inside => inside) clear (fun _ _ => rfl) (fun _ _ => rfl) agree left there⟩
      · cases impossible
  | unguarded once =>
      rcases once.passes passes with ⟨whole, rfl⟩ | ⟨_, impossible⟩
      · rw [← whole] at once
        have ran : sem.run activity.call.body middle = (value, (sem.exec activity.op middle).2) := by
          rw [← whole, Semantics.run_call, ← once.1.result _ _ linked.unguarded, rest]
          rfl
        rw [ran]
        -- The operation may also have locks; what they guard it leaves alone.
        refine ⟨rfl, linked.settle (fun x => guard x = none ∨ activity.call.domain guard x) here
          (fun _ inside => .inr inside) ?_ ?_ ?_ ?_ left there⟩
        · rintro j other different before x inside (free | mine)
          · rcases inside with ⟨lock, guarded, _⟩
            rw [free] at guarded
            cases guarded
          · exact clear j other different before x inside mine
        · exact fun x outside => once.1.frame shared x (fun free => outside (.inl free))
        · exact fun x outside => once.1.frame middle x (fun free => outside (.inl free))
        · intro x inside
          by_cases free : guard x = none
          · exact once.1.effect _ _ linked.unguarded x free
          · rw [once.1.frame shared x free, once.1.frame middle x free]
            exact agree x (inside.resolve_left free)
      · cases impossible

end Linked
end Linked
end Effect
