import Mathlib.Data.List.Infix
import Mathlib.Logic.Function.Basic

/-!
# Requests over an unreliable network

Callers send requests to a service.  An attempt may be lost on its way, it may
arrive late, and the answer may be lost or left unread; the caller then sends
the request again, as often as its limit allows.  Meanwhile other things happen
to the state of the service.

What is performed is recorded in the order in which it happens.  A request is
performed at most as often as it may be sent, and a caller that has read an
answer knows that its request was performed and what the state was then.
Requests that change nothing can be left out of the record.
-/

namespace Delivery

/-- A service with what else may happen to its state. -/
structure Service (ρ δ σ α : Type) where
  perform : ρ -> σ -> α × σ
  disturb : δ -> σ -> σ

inductive Move (ι δ : Type)
  | send (i : ι)
  | arrive (i : ι)
  | lose (i : ι)
  | accept (i : ι) (position : Nat)
  | other (event : δ)

/-- What happens apart from the callers. -/
def Move.event? {ι δ : Type} : Move ι δ -> Option δ
  | .other event => some event
  | _ => none

structure Config (ι δ σ α : Type) where
  shared : σ
  sent : ι -> Nat
  inFlight : ι -> Nat
  answers : ι -> List α
  result : ι -> Option α
  history : List (ι ⊕ δ)

/-- Nothing has been sent yet. -/
def Config.initial {ι δ σ α : Type} (start : σ) : Config ι δ σ α where
  shared := start
  sent := fun _ => 0
  inFlight := fun _ => 0
  answers := fun _ => []
  result := fun _ => none
  history := []

section Runs

variable {ι ρ δ σ α : Type} [DecidableEq ι] (service : Service ρ δ σ α) (calls : ι -> ρ) (limit : ι -> Nat)

/-- One move of the network or of a caller, when it is possible. -/
def step (config : Config ι δ σ α) : Move ι δ -> Option (Config ι δ σ α)
  | .send i =>
      if config.result i = none ∧ config.sent i < limit i then
        some { config with
          sent := Function.update config.sent i (config.sent i + 1)
          inFlight := Function.update config.inFlight i (config.inFlight i + 1) }
      else none
  | .arrive i =>
      if 0 < config.inFlight i then
        let performed := service.perform (calls i) config.shared
        some { config with
          shared := performed.2
          inFlight := Function.update config.inFlight i (config.inFlight i - 1)
          answers := Function.update config.answers i (config.answers i ++ [performed.1])
          history := config.history ++ [.inl i] }
      else none
  | .lose i =>
      if 0 < config.inFlight i then
        some { config with inFlight := Function.update config.inFlight i (config.inFlight i - 1) }
      else none
  | .accept i position =>
      if config.result i = none then
        (config.answers i)[position]?.map (fun answer =>
          { config with result := Function.update config.result i (some answer) })
      else none
  | .other event =>
      some { config with shared := service.disturb event config.shared, history := config.history ++ [.inr event] }

/-- The configuration after some moves, when all of them are possible. -/
def execute (config : Config ι δ σ α) (moves : List (Move ι δ)) : Option (Config ι δ σ α) :=
  moves.foldlM (step service calls limit) config

/-- What an entry of the record does to the state. -/
def apply (state : σ) : ι ⊕ δ -> σ
  | .inl i => (service.perform (calls i) state).2
  | .inr event => service.disturb event state

/-- The state after a record. -/
def replay (history : List (ι ⊕ δ)) (state : σ) : σ := history.foldl (apply service calls) state

/-- The entry is a performance of the request. -/
def isCall (i : ι) : ι ⊕ δ -> Bool
  | .inl j => j = i
  | .inr _ => false

/-- How often the request was performed. -/
def performances (i : ι) (history : List (ι ⊕ δ)) : Nat := history.countP (isCall i)

/-- The request was performed at some point of the record with this answer. -/
def Answered (start : σ) (history : List (ι ⊕ δ)) (i : ι) (answer : α) : Prop :=
  Exists fun before => before ++ [.inl i] <+: history ∧
    answer = (service.perform (calls i) (replay service calls before start)).1

/-- The record without the requests that change nothing. -/
def essential (safe : ι -> Bool) (history : List (ι ⊕ δ)) : List (ι ⊕ δ) :=
  history.filter (Sum.elim (fun i => !safe i) (fun _ => true))

/-- The state is that of the record, and the record is that of the moves. -/
structure Accounted (start : σ) (config : Config ι δ σ α) : Prop where
  replayed : config.shared = replay service calls config.history start
  bounded : forall i, config.inFlight i + performances i config.history ≤ config.sent i
  limited : forall i, config.sent i ≤ limit i
  answered : forall i answer, answer ∈ config.answers i -> Answered service calls start config.history i answer
  accepted : forall i answer, config.result i = some answer -> Answered service calls start config.history i answer

end Runs

section Records

variable {ι ρ δ σ α : Type} {service : Service ρ δ σ α} {calls : ι -> ρ}

theorem replay_snoc (history : List (ι ⊕ δ)) (entry : ι ⊕ δ) (start : σ) :
    replay service calls (history ++ [entry]) start = apply service calls (replay service calls history start) entry :=
  List.foldl_append ..

theorem Answered.extend {start : σ} {history : List (ι ⊕ δ)} {i : ι} {answer : α}
    (answered : Answered service calls start history i answer) (entry : ι ⊕ δ) :
    Answered service calls start (history ++ [entry]) i answer := by
  rcases answered with ⟨before, initial, same⟩
  exact ⟨before, initial.trans (List.prefix_append history [entry]), same⟩

/-- Requests that change nothing may be left out. -/
theorem replay_essential {safe : ι -> Bool}
    (unchanged : forall i state, safe i = true -> (service.perform (calls i) state).2 = state)
    (history : List (ι ⊕ δ)) (start : σ) :
    replay service calls (essential safe history) start = replay service calls history start := by
  induction history generalizing start with
  | nil => rfl
  | cons entry rest ih =>
      change replay service calls _ _ = replay service calls rest (apply service calls start entry)
      cases entry with
      | inl i =>
          cases harmless : safe i with
          | true =>
              have same : apply service calls start (.inl i : ι ⊕ δ) = start := unchanged i start harmless
              rw [same, ← ih start]
              simp [essential, harmless]
          | false =>
              rw [← ih]
              simp [essential, harmless, replay]
      | inr event =>
          rw [← ih]
          rfl

theorem events_essential (safe : ι -> Bool) (history : List (ι ⊕ δ)) :
    (essential safe history).filterMap Sum.getRight? = history.filterMap Sum.getRight? := by
  unfold essential
  rw [List.filterMap_filter]
  refine List.filterMap_congr ?_
  intro entry _
  cases entry with
  | inl i => cases safe i <;> simp
  | inr event => rfl

/-- An answer is the one that the request has at a point of the shortened
record, and the request stands at this point when it may change something. -/
theorem Answered.essential {safe : ι -> Bool}
    (unchanged : forall i state, safe i = true -> (service.perform (calls i) state).2 = state) {start : σ}
    {history : List (ι ⊕ δ)} {i : ι} {answer : α} (answered : Answered service calls start history i answer) :
    Exists fun before =>
      (if safe i then before else before ++ [.inl i]) <+: Delivery.essential safe history ∧
      answer = (service.perform (calls i) (replay service calls before start)).1 := by
  rcases answered with ⟨before, initial, same⟩
  refine ⟨Delivery.essential safe before, ?_, ?_⟩
  · have shortened := initial.filter (Sum.elim (fun i => !safe i) (fun _ => true))
    rw [List.filter_append] at shortened
    cases harmless : safe i with
    | true =>
        simp [harmless] at shortened
        exact shortened
    | false =>
        simp [harmless] at shortened
        exact shortened
  · rw [same, replay_essential unchanged]

variable [DecidableEq ι]

theorem performances_snoc (i : ι) (history : List (ι ⊕ δ)) (entry : ι ⊕ δ) :
    performances i (history ++ [entry]) = performances i history + if isCall i entry then 1 else 0 := by
  unfold performances
  rw [List.countP_append, List.countP_singleton]

theorem performances_essential {safe : ι -> Bool} {i : ι} (harmful : safe i = false) (history : List (ι ⊕ δ)) :
    performances i (essential safe history) = performances i history := by
  unfold performances essential
  rw [List.countP_filter]
  refine List.countP_congr ?_
  intro entry _
  cases entry with
  | inl j =>
      by_cases same : j = i
      · subst same
        simp [isCall, harmful]
      · simp [isCall, same]
  | inr event => simp [isCall]

end Records

namespace Accounted

variable {ι ρ δ σ α : Type} [DecidableEq ι] {service : Service ρ δ σ α} {calls : ι -> ρ} {limit : ι -> Nat}
variable {start : σ} {config after : Config ι δ σ α}

theorem initial : Accounted service calls limit start (Config.initial start) where
  replayed := rfl
  bounded := fun _ => Nat.le_refl 0
  limited := fun _ => Nat.zero_le _
  answered := fun _ _ member => by cases member
  accepted := fun _ _ impossible => by cases impossible

/-- A move keeps the accounts. -/
theorem step {move : Move ι δ} (accounted : Accounted service calls limit start config)
    (moved : Delivery.step service calls limit config move = some after) :
    Accounted service calls limit start after := by
  cases move with
  | send i =>
      simp only [Delivery.step, Option.ite_none_right_eq_some, Option.some.injEq] at moved
      rcases moved with ⟨⟨_, allowed⟩, rfl⟩
      refine ⟨accounted.replayed, ?_, ?_, accounted.answered, accounted.accepted⟩
      · intro j
        have bounded := accounted.bounded j
        by_cases same : j = i
        · subst same
          simp only [Function.update_self]
          omega
        · simp only [Function.update_of_ne same]
          exact bounded
      · intro j
        by_cases same : j = i
        · subst same
          simp only [Function.update_self]
          exact allowed
        · simp only [Function.update_of_ne same]
          exact accounted.limited j
  | arrive i =>
      simp only [Delivery.step, Option.ite_none_right_eq_some, Option.some.injEq] at moved
      rcases moved with ⟨present, rfl⟩
      refine ⟨?_, ?_, accounted.limited, ?_, fun j answer known => (accounted.accepted j answer known).extend _⟩
      · rw [replay_snoc, ← accounted.replayed]
        rfl
      · intro j
        have bounded := accounted.bounded j
        rw [performances_snoc]
        by_cases same : j = i
        · subst same
          simp only [Function.update_self, isCall, decide_true, if_true]
          omega
        · have other : isCall j (.inl i : ι ⊕ δ) = false := by simpa [isCall] using fun equal => same equal.symm
          simp only [Function.update_of_ne same, other]
          exact bounded
      · intro j answer member
        by_cases same : j = i
        · subst same
          simp only [Function.update_self, List.mem_append, List.mem_singleton] at member
          rcases member with member | rfl
          · exact (accounted.answered j answer member).extend _
          · exact ⟨config.history, List.prefix_rfl, by rw [← accounted.replayed]⟩
        · simp only [Function.update_of_ne same] at member
          exact (accounted.answered j answer member).extend _
  | lose i =>
      simp only [Delivery.step, Option.ite_none_right_eq_some, Option.some.injEq] at moved
      rcases moved with ⟨_, rfl⟩
      refine ⟨accounted.replayed, ?_, accounted.limited, accounted.answered, accounted.accepted⟩
      intro j
      have bounded := accounted.bounded j
      by_cases same : j = i
      · subst same
        simp only [Function.update_self]
        omega
      · simp only [Function.update_of_ne same]
        exact bounded
  | accept i position =>
      simp only [Delivery.step, Option.ite_none_right_eq_some, Option.map_eq_some_iff] at moved
      rcases moved with ⟨_, answer, listed, rfl⟩
      refine ⟨accounted.replayed, accounted.bounded, accounted.limited, accounted.answered, ?_⟩
      intro j other known
      by_cases same : j = i
      · subst same
        simp only [Function.update_self, Option.some.injEq] at known
        subst known
        exact accounted.answered j answer (List.mem_of_getElem? listed)
      · simp only [Function.update_of_ne same] at known
        exact accounted.accepted j other known
  | other event =>
      simp only [Delivery.step, Option.some.injEq] at moved
      subst moved
      refine ⟨?_, ?_, accounted.limited, fun j answer member => (accounted.answered j answer member).extend _,
        fun j answer known => (accounted.accepted j answer known).extend _⟩
      · rw [replay_snoc, ← accounted.replayed]
        rfl
      · intro j
        have bounded := accounted.bounded j
        rw [performances_snoc]
        exact bounded

/-- All moves of a run keep the accounts. -/
theorem execute (moves : List (Move ι δ)) (accounted : Accounted service calls limit start config)
    (run : Delivery.execute service calls limit config moves = some after) :
    Accounted service calls limit start after := by
  induction moves generalizing config with
  | nil =>
      cases run
      exact accounted
  | cons move rest ih =>
      rcases Option.bind_eq_some_iff.mp run with ⟨middle, moved, later⟩
      exact ih (accounted.step moved) later

/-- The other events of a run are recorded in their order. -/
theorem events_execute (moves : List (Move ι δ))
    (run : Delivery.execute service calls limit config moves = some after) :
    after.history.filterMap Sum.getRight? =
      config.history.filterMap Sum.getRight? ++ moves.filterMap Move.event? := by
  induction moves generalizing config with
  | nil =>
      cases run
      simp
  | cons move rest ih =>
      rcases Option.bind_eq_some_iff.mp run with ⟨middle, moved, later⟩
      rw [ih later]
      cases move with
      | send i | lose i =>
          simp only [Delivery.step, Option.ite_none_right_eq_some, Option.some.injEq] at moved
          rcases moved with ⟨_, rfl⟩
          rfl
      | arrive i =>
          simp only [Delivery.step, Option.ite_none_right_eq_some, Option.some.injEq] at moved
          rcases moved with ⟨_, rfl⟩
          rw [List.filterMap_append, List.append_assoc]
          rfl
      | accept i position =>
          simp only [Delivery.step, Option.ite_none_right_eq_some, Option.map_eq_some_iff] at moved
          rcases moved with ⟨_, _, _, rfl⟩
          rfl
      | other event =>
          simp only [Delivery.step, Option.some.injEq] at moved
          subst moved
          rw [List.filterMap_append, List.append_assoc]
          rfl

/-- A request is performed at most as often as it may be sent. -/
theorem performances_le (accounted : Accounted service calls limit start config) (i : ι) :
    performances i config.history ≤ limit i := by
  have bounded := accounted.bounded i
  have limited := accounted.limited i
  omega

end Accounted

end Delivery
