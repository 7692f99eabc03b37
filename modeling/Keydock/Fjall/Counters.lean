import Keydock.Fjall.Linearizable

/-!
# Counters under concurrency

The sequential meaning of a key that only integer increments touch: each
acknowledged increment adds its delta, a refused one changes nothing.  Together
with linearizability this accounts for every interleaving.

The account is kept only while the entry lives.  An increment that finds the
entry expired starts again from zero, which is what a counter with a time to
live is for, so the deltas acknowledged before are gone.
-/

namespace Keydock

open Effect Adapter

/-- The integer a counter entry holds; a missing entry counts as zero. -/
def counterValue : Option Bytes -> Option Int
  | none => some 0
  | some bytes =>
      match decodeEntry bytes with
      | .error _ => none
      | .ok entry =>
          match CounterValue.fromStored entry.value with
          | .ok (.int number) => some number.toInt
          | _ => none

/-- The entry, if there is one, has not expired. -/
def Alive (now : OffsetDateTime) (found : Option Bytes) : Prop :=
  forall bytes entry, found = some bytes -> decodeEntry bytes = .ok entry -> entry.expiredAt now = false

theorem alive_iff (now : OffsetDateTime) (found : Option Bytes) :
    (found.bind (fun bytes => (decodeEntry bytes).toOption)).any (fun entry => entry.expiredAt now) = false ↔
      Alive now found := by
  constructor
  · rintro living bytes entry rfl decoded
    rw [Option.bind_some, decoded] at living
    exact living
  · intro alive
    rw [Option.any_eq_false]
    intro entry read
    rcases Option.bind_eq_some_iff.mp read with ⟨bytes, present, taken⟩
    refine alive bytes entry present ?_
    cases decoded : decodeEntry bytes with
    | error error =>
        rw [decoded] at taken
        cases taken
    | ok other =>
        rw [decoded] at taken
        cases taken
        rfl

instance (now : OffsetDateTime) (found : Option Bytes) : Decidable (Alive now found) :=
  decidable_of_iff _ (alive_iff now found)

theorem currentValue_of_alive {now : OffsetDateTime} {found : Option Bytes} {number : Int}
    (counts : counterValue found = some number) (alive : Alive now found) :
    Exists fun current : Int64 => FjallStore.currentValue now found = .ok (.int current) ∧
      current.toInt = number := by
  cases found with
  | none =>
      cases counts
      exact ⟨0, rfl, rfl⟩
  | some bytes =>
      simp only [counterValue] at counts
      cases decoded : decodeEntry bytes with
      | error error => rw [decoded] at counts; cases counts
      | ok entry =>
          rw [decoded] at counts
          simp only at counts
          have living := alive bytes entry rfl decoded
          split at counts
          next current read =>
            refine ⟨current, ?_, Option.some.inj counts⟩
            simp only [FjallStore.currentValue, decoded, living, Bool.false_eq_true, if_false, read, Except.mapError]
          next => cases counts

theorem counterValue_storedInt (number : Int64) (expiresAt : Option OffsetDateTime) :
    counterValue (some (entryBytes (CounterValue.storedInt number) expiresAt)) = some number.toInt := by
  simp only [counterValue, decodeEntry_entryBytes, CounterValue.fromStored_storedInt]

theorem alive_entryBytes {now : OffsetDateTime} {value : StoredValue} {expiresAt : Option OffsetDateTime}
    (later : forall expiry, expiresAt = some expiry -> now < expiry.floorSecond) :
    Alive now (some (entryBytes value expiresAt)) := by
  intro bytes entry same decoded
  cases same
  rw [decodeEntry_entryBytes] at decoded
  cases decoded
  cases expiresAt with
  | none => rfl
  | some expiry =>
      have order := later expiry rfl
      exact decide_eq_false (Int.not_le.mpr order)

namespace StoreCall

/-- What an acknowledged integer increment adds to a storage key. -/
def credit (storageKey : Bytes) : StoreCall -> StoreAnswer -> Int
  | .increment _ bucket key (.int delta) _, .increment (.ok _) =>
      if dataStorageKey bucket key = storageKey then delta.toInt else 0
  | _, _ => 0

/-- A call answers what its operation answers. -/
theorem run_body (call : StoreCall) (store : Store) :
    storage.run call.body store =
      match call with
      | .set bucket key value expiresAt =>
          (.set (eval (FjallStore.set bucket key value expiresAt) store).1,
            (eval (FjallStore.set bucket key value expiresAt) store).2)
      | .delete bucket key =>
          (.delete (eval (FjallStore.delete bucket key) store).1, (eval (FjallStore.delete bucket key) store).2)
      | .increment now bucket key op expiresAt =>
          (.increment (eval (FjallStore.increment now bucket key op expiresAt) store).1,
            (eval (FjallStore.increment now bucket key op expiresAt) store).2)
      | .applyBatch bucket ops =>
          (.applyBatch (eval (FjallStore.applyBatch bucket ops) store).1,
            (eval (FjallStore.applyBatch bucket ops) store).2)
      | .sweepEntry nowTs row =>
          (.sweepEntry (storage.run (Keydock.sweepEntry nowTs row) store).1,
            (storage.run (Keydock.sweepEntry nowTs row) store).2) := by
  cases call <;> simp only [body, Semantics.run_bind, Program.pure_eq, Semantics.run_done, eval]

/-- A call leaves every entry alone whose storage key it does not lock. -/
theorem frame {storageKey : Bytes} (call : StoreCall) (untouched : storageKey ∉ call.storageKeys)
    (store : Store) :
    (storage.run call.body store).2.data[storageKey]? = store.data[storageKey]? := by
  have put : forall bucket key value expiresAt, storageKey ≠ dataStorageKey bucket key ->
      (store.put (dataStorageKey bucket key) value expiresAt).data[storageKey]? = store.data[storageKey]? := by
    intro bucket key value expiresAt different
    simp only [Store.put, Keyspace.get_insert, if_neg (Ne.symm different)]
  cases call with
  | set bucket key value expiresAt =>
      simp only [run_body, FjallStore.eval_set]
      exact put bucket key value expiresAt (fun same => untouched (List.mem_singleton.mpr same))
  | delete bucket key =>
      simp only [run_body, FjallStore.eval_delete]
      simp only [Store.erase, Keyspace.get_remove]
      rw [if_neg (fun same => untouched (List.mem_singleton.mpr same.symm))]
  | increment now bucket key op expiresAt =>
      simp only [run_body, FjallStore.eval_increment]
      split
      · rfl
      · exact put bucket key _ expiresAt (fun same => untouched (List.mem_singleton.mpr same))
  | applyBatch bucket ops =>
      simp only [run_body, FjallStore.eval_applyBatch]
      clear put
      induction ops generalizing store with
      | nil => rfl
      | cons op rest ih =>
          have elsewhere : storageKey ≠ dataStorageKey bucket op.key :=
            fun same => untouched (List.mem_cons.mpr (Or.inl same))
          rw [List.foldl_cons, ih _ (fun member => untouched (List.mem_cons_of_mem _ member))]
          cases op with
          | set key value expiresAt =>
              simp only [Store.applyTxnOp, Store.put, Keyspace.get_insert]
              exact if_neg (Ne.symm elsewhere)
          | delete key =>
              simp only [Store.applyTxnOp, Store.erase, Keyspace.get_remove]
              exact if_neg (Ne.symm elsewhere)
  | sweepEntry nowTs row =>
      simp only [run_body]
      rcases row with error | ⟨expiryKey, value⟩
      · rfl
      · simp only [Keydock.sweepEntry]
        simp only [storageKeys] at untouched
        cases parsed : parseExpiryIndexKey expiryKey with
        | none => rfl
        | some parts =>
            rcases parts with ⟨expiresUnix, named⟩
            simp only [parsed] at untouched ⊢
            split
            next => rfl
            next due =>
              rw [if_neg due] at untouched
              have different : named ≠ storageKey := fun same => untouched (List.mem_singleton.mpr same.symm)
              simp only [Semantics.run_bind, run_sweepLocked, Program.pure_eq, Semantics.run_done, Store.sweepRow]
              split
              · rfl
              · split
                · simp only [Store.erase, Keyspace.get_remove, if_neg different]
                · rfl

theorem credit_of_untouched {storageKey : Bytes} (call : StoreCall) (untouched : storageKey ∉ call.storageKeys)
    (answer : StoreAnswer) : call.credit storageKey answer = 0 := by
  unfold credit
  split
  next now bucket key delta expiresAt value =>
    exact if_neg (fun same => untouched (List.mem_singleton.mpr same.symm))
  next => rfl

/-- One increment: an acknowledged delta is added, a refused one changes
nothing. -/
theorem increment_counts {now : OffsetDateTime} {bucket : BucketId} {key : Key} (delta : Int64)
    (expiresAt : Option OffsetDateTime) {store : Store} {number : Int}
    (counts : counterValue store.data[dataStorageKey bucket key]? = some number)
    (alive : Alive now store.data[dataStorageKey bucket key]?) :
    let call := StoreCall.increment now bucket key (.int delta) expiresAt
    let ran := storage.run call.body store
    counterValue ran.2.data[dataStorageKey bucket key]? =
        some (number + call.credit (dataStorageKey bucket key) ran.1) ∧
      (ran.2 = store ∨ Exists fun value =>
        ran.2.data[dataStorageKey bucket key]? = some (entryBytes value expiresAt)) := by
  intro call ran
  rcases currentValue_of_alive counts alive with ⟨current, read, same⟩
  simp only [ran, call, run_body, FjallStore.eval_increment, mergedValue, read, CounterOp.apply]
  cases added : checkedAdd current delta with
  | none =>
      simp only [credit, Int.add_zero]
      exact ⟨counts, Or.inl trivial⟩
  | some sum =>
      have total := toInt_of_checkedAdd added
      simp only [CounterValue.intoStored_int, Except.mapError, credit, if_true]
      have found : (store.put (dataStorageKey bucket key) (CounterValue.storedInt sum) expiresAt).data[dataStorageKey bucket key]? =
          some (entryBytes (CounterValue.storedInt sum) expiresAt) := by
        simp only [Store.put, Keyspace.get_insert, if_true]
      refine ⟨?_, Or.inr ⟨_, found⟩⟩
      rw [found, counterValue_storedInt, total, same]

/-- An increment of the storage key finds the entry alive. -/
def FindsAlive (storageKey : Bytes) : StoreCall -> Store -> Prop
  | .increment now bucket key _ _, store =>
      dataStorageKey bucket key = storageKey -> Alive now store.data[storageKey]?
  | _, _ => True

instance (storageKey : Bytes) (call : StoreCall) (store : Store) : Decidable (call.FindsAlive storageKey store) :=
  match call with
  | .increment now bucket key _ _ =>
      inferInstanceAs (Decidable (dataStorageKey bucket key = storageKey -> Alive now store.data[storageKey]?))
  | .set _ _ _ _ | .delete _ _ | .applyBatch _ _ | .sweepEntry _ _ => isTrue trivial

theorem findsAlive_of_alive {storageKey : Bytes} {store : Store} (call : StoreCall)
    (alive : forall now bucket key op expiresAt, call = .increment now bucket key op expiresAt ->
      Alive now store.data[storageKey]?) : call.FindsAlive storageKey store := by
  cases call with
  | increment now bucket key op expiresAt => exact fun _ => alive now bucket key op expiresAt rfl
  | _ => trivial

end StoreCall

/-! ## Sequences of calls -/

/-- A storage key used as an integer counter: it starts from an integer, and
only integer increments touch it. -/
structure IntegerCounter {ι : Type} (calls : ι -> StoreCall) (start : Store) (storageKey : Bytes)
    (number : Int) : Prop where
  counts : counterValue start.data[storageKey]? = some number
  onlyIncrements : forall i, storageKey ∈ (calls i).storageKeys ->
    Exists fun now => Exists fun bucket => Exists fun key => Exists fun delta => Exists fun expiresAt =>
      calls i = .increment now bucket key (.int delta) expiresAt

/-- Every increment of the storage key finds the entry missing or not expired
when its turn in the order comes. -/
def AliveAlong {ι : Type} (calls : ι -> StoreCall) (storageKey : Bytes) : List ι -> Store -> Prop
  | [], _ => True
  | i :: rest, store =>
      (calls i).FindsAlive storageKey store ∧
        AliveAlong calls storageKey rest (storage.run (calls i).body store).2

instance decidableAliveAlong {ι : Type} (calls : ι -> StoreCall) (storageKey : Bytes) :
    (order : List ι) -> (store : Store) -> Decidable (AliveAlong calls storageKey order store)
  | [], _ => isTrue trivial
  | i :: rest, store =>
      @instDecidableAnd _ _ inferInstance
        (decidableAliveAlong calls storageKey rest (storage.run (calls i).body store).2)

section Sequence

variable {ι : Type} {calls : ι -> StoreCall} {start : Store} {storageKey : Bytes} {number : Int}

/-- What a call does to a counter's entry: an increment keeps it or writes it
with its own expiry, any other call leaves it alone. -/
theorem IntegerCounter.kept_or_written (counter : IntegerCounter calls start storageKey number) (i : ι)
    {store : Store} {current : Int} (counts : counterValue store.data[storageKey]? = some current)
    (finds : (calls i).FindsAlive storageKey store) :
    let ran := storage.run (calls i).body store
    counterValue ran.2.data[storageKey]? = some (current + (calls i).credit storageKey ran.1) ∧
      (ran.2.data[storageKey]? = store.data[storageKey]? ∨
        Exists fun now => Exists fun bucket => Exists fun key => Exists fun op => Exists fun expiresAt =>
          Exists fun value => calls i = .increment now bucket key op expiresAt ∧
            dataStorageKey bucket key = storageKey ∧
            ran.2.data[storageKey]? = some (entryBytes value expiresAt)) := by
  intro ran
  by_cases touched : storageKey ∈ (calls i).storageKeys
  · rcases counter.onlyIncrements i touched with ⟨now, bucket, key, delta, expiresAt, call⟩
    have named : dataStorageKey bucket key = storageKey := by
      rw [call] at touched
      exact (List.mem_singleton.mp touched).symm
    subst named
    rw [call] at finds
    have step := StoreCall.increment_counts delta expiresAt counts (finds rfl)
    simp only [← call] at step
    refine ⟨step.1, step.2.imp (fun unchanged => congrArg (fun after => after.data[_]?) unchanged) ?_⟩
    rintro ⟨value, written⟩
    exact ⟨now, bucket, key, _, expiresAt, value, call, rfl, written⟩
  · have frame := StoreCall.frame (calls i) touched store
    simp only [ran, StoreCall.credit_of_untouched (calls i) touched, Int.add_zero, frame]
    exact ⟨counts, Or.inl trivial⟩

/-- The sequential account: the deltas acknowledged along an order in which the
entry stays alive add up. -/
theorem IntegerCounter.runEach (counter : IntegerCounter calls start storageKey number) {order : List ι}
    {store : Store} {current : Int} (counts : counterValue store.data[storageKey]? = some current)
    (alive : AliveAlong calls storageKey order store) :
    counterValue (storage.runEach (fun i => (calls i).body) order store).2.data[storageKey]? =
      some (current + ((storage.runEach (fun i => (calls i).body) order store).1.map
        (fun result => (calls result.1).credit storageKey result.2)).sum) := by
  induction order generalizing store current with
  | nil => simpa [Semantics.runEach] using counts
  | cons i rest ih =>
      simp only [Semantics.runEach, List.map_cons, List.sum_cons]
      rw [← Int.add_assoc]
      exact ih (counter.kept_or_written i counts alive.1).1 alive.2

/-- A condition on the calls alone: where no increment reads the clock after
the expiry another one sets, nor after that of the initial entry, the entry
stays alive along every order.  The induction carries that the entry is the
initial one or one that an earlier increment wrote. -/
theorem IntegerCounter.aliveAlong (counter : IntegerCounter calls start storageKey number)
    (spaced : forall i j now bucket key op expiresAt otherNow otherBucket otherKey otherOp expiry, i ≠ j ->
      calls i = .increment now bucket key op expiresAt ->
      calls j = .increment otherNow otherBucket otherKey otherOp (some expiry) ->
      dataStorageKey otherBucket otherKey = storageKey -> now < expiry.floorSecond)
    {order : List ι} (nodup : order.Nodup) {store : Store} {current : Int}
    (counts : counterValue store.data[storageKey]? = some current)
    (alive : forall i, i ∈ order -> forall now bucket key op expiresAt,
      calls i = .increment now bucket key op expiresAt -> Alive now store.data[storageKey]?) :
    AliveAlong calls storageKey order store := by
  induction order generalizing store current with
  | nil => trivial
  | cons i rest ih =>
      have distinct := List.nodup_cons.mp nodup
      have finds := (calls i).findsAlive_of_alive (alive i List.mem_cons_self)
      have step := counter.kept_or_written i counts finds
      refine ⟨finds, ih distinct.2 step.1 ?_⟩
      intro j member now bucket key op expiresAt call
      rcases step.2 with kept | ⟨otherNow, otherBucket, otherKey, otherOp, otherExpiry, value, other, named, written⟩
      · rw [kept]
        exact alive j (List.mem_cons_of_mem i member) now bucket key op expiresAt call
      · rw [written]
        apply alive_entryBytes
        rintro expiry rfl
        exact spaced j i now bucket key op expiresAt otherNow otherBucket otherKey otherOp expiry
          (fun same => distinct.1 (same ▸ member)) call other named

end Sequence

/-- What the answered calls of a configuration add to a storage key. -/
def acknowledged {ι : Type} (calls : ι -> StoreCall) (config : Config keyspaceOps Store ι Stripe StoreAnswer)
    (storageKey : Bytes) (i : ι) : Int :=
  match config.phase i with
  | .finished answer => (calls i).credit storageKey answer
  | _ => 0

/-- Concurrent writes are linearizable, and an integer counter whose entry stays
alive along the order ends at its initial value plus the sum of the
acknowledged deltas. -/
theorem writes_linearizable_counters_exact {ι : Type} [DecidableEq ι] (stripe : Bytes -> Stripe)
    (calls : ι -> StoreCall) (start : Store) (schedule : List ι)
    (config : Config keyspaceOps Store ι Stripe StoreAnswer)
    (run : Config.execute storage (fun i => (calls i).locked stripe) (Config.initial start) schedule = some config)
    (quiet : config.Quiescent) :
    Exists fun order : List ι =>
      order.Nodup ∧
      (forall i, i ∈ order ↔ Exists fun answer => config.phase i = .finished answer) ∧
      (forall i j, j ∈ order ->
        Config.Before storage (fun i => (calls i).locked stripe) (Config.initial start) schedule i j ->
        Precedes order i j) ∧
      (storage.runEach (fun i => (calls i).body) order start).2 = config.shared ∧
      (forall i answer, config.phase i = .finished answer ->
        (i, answer) ∈ (storage.runEach (fun i => (calls i).body) order start).1) ∧
      (forall storageKey number, IntegerCounter calls start storageKey number ->
        AliveAlong calls storageKey order start ->
        counterValue config.shared.data[storageKey]? =
          some (number + (order.map (acknowledged calls config storageKey)).sum)) := by
  rcases Config.linearizable (disciplined stripe calls) run quiet with
    ⟨order, nodup, answered, state, results, realTime⟩
  have bodies : (fun i => ((calls i).locked stripe).body) = fun i => (calls i).body := rfl
  rw [bodies] at state results
  refine ⟨order, nodup, answered, realTime, state, results, ?_⟩
  intro storageKey number counter alive
  have account := counter.runEach counter.counts alive
  -- Each caller appears once, so its recorded result is the answer it gave.
  have callers := storage.runEach_callers (fun i => (calls i).body) order start
  have unique : ((storage.runEach (fun i => (calls i).body) order start).1.map Prod.fst).Nodup := by
    rw [callers]
    exact nodup
  have credits : (storage.runEach (fun i => (calls i).body) order start).1.map
      (fun result => (calls result.1).credit storageKey result.2) =
      (storage.runEach (fun i => (calls i).body) order start).1.map
        (acknowledged calls config storageKey ∘ Prod.fst) := by
    apply List.map_congr_left
    intro result member
    have listed : result.1 ∈ order := by
      rw [← callers]
      exact List.mem_map.mpr ⟨result, member, rfl⟩
    rcases (answered result.1).mp listed with ⟨answer, finished⟩
    have same := List.inj_on_of_nodup_map unique member (results result.1 answer finished) rfl
    simp only [acknowledged, Function.comp_apply, finished]
    rw [same]
  rw [← state, account, credits, ← List.map_map, callers]

/-! Two increments of one key.  In the first pair each finds the entry alive and
puts its expiry off; in the second pair the entry written first expires before
the second call reads it. -/

namespace TwoIncrements

theorem key_short : [(0x6B : UInt8)].length ≤ maxKeyBytes := by decide

def key : Key := ⟨[0x6B], key_short⟩

def bucket : BucketId := ⟨"b"⟩

def second (seconds : Fin 1000) : OffsetDateTime where
  nanos := (seconds.val : Int) * nanosPerSecond
  lower := by
    unfold minUnixTimestamp nanosPerSecond
    omega
  upper := by
    have small := seconds.isLt
    unfold maxUnixTimestamp nanosPerSecond
    omega

def sliding : Bool -> StoreCall
  | false => .increment (second 0) bucket key (.int 1) (some (second 10))
  | true => .increment (second 9) bucket key (.int 2) (some (second 19))

def expiring : Bool -> StoreCall
  | false => .increment (second 0) bucket key (.int 1) (some (second 10))
  | true => .increment (second 20) bucket key (.int 1) none

/-- The second call is invoked while the first one holds the stripe. -/
def schedule : List Bool :=
  [false, false, true, false, false, false, false, false, true, false, true, true, true, true, true, true]

theorem first_stripe : 0 < 64 := by decide

def final (calls : Bool -> StoreCall) : Option (Config keyspaceOps Store Bool Stripe StoreAnswer) :=
  Config.execute storage (fun i => (calls i).locked (fun _ => ⟨0, first_stripe⟩)) (Config.initial Store.empty) schedule

def incremented : Phase keyspaceOps Stripe StoreAnswer -> Option StoredValue
  | .finished (.increment (.ok value)) => some value
  | _ => none

theorem finished_of_incremented {phase : Phase keyspaceOps Stripe StoreAnswer}
    (answered : (incremented phase).isSome = true) :
    Exists fun value => phase = .finished (.increment (.ok value)) := by
  unfold incremented at answered
  split at answered
  next value => exact ⟨value, rfl⟩
  next => cases answered

theorem sliding_counter : IntegerCounter sliding Store.empty (dataStorageKey bucket key) 0 where
  counts := by decide +kernel
  onlyIncrements := by
    intro i _
    cases i
    · exact ⟨second 0, bucket, key, 1, _, rfl⟩
    · exact ⟨second 9, bucket, key, 2, _, rfl⟩

theorem sliding_alive {order : List Bool} (nodup : order.Nodup) :
    AliveAlong sliding (dataStorageKey bucket key) order Store.empty := by
  refine sliding_counter.aliveAlong ?_ nodup sliding_counter.counts ?_
  · intro i j now _ _ _ _ _ _ _ _ expiry different call other _
    cases i <;> cases j
    · exact absurd rfl different
    · cases call
      cases other
      decide
    · cases call
      cases other
      decide
    · exact absurd rfl different
  · intro _ _ _ _ _ _ _ _ bytes entry present
    simp [Store.empty] at present

theorem sliding_ends : (final sliding).isSome = true := by decide +kernel

theorem expiring_ends : (final expiring).isSome = true := by decide +kernel

end TwoIncrements

/-- Two interleaved increments of a missing key, by one and by two, each with a
time to live of its own, leave three. -/
theorem two_increments_linearizable :
    Exists fun config => TwoIncrements.final TwoIncrements.sliding = some config ∧
      (Exists fun order : List Bool => order.Nodup ∧ (forall i, i ∈ order) ∧
        counterValue config.shared.data[dataStorageKey TwoIncrements.bucket TwoIncrements.key]? =
          some (0 + (order.map (acknowledged TwoIncrements.sliding config
            (dataStorageKey TwoIncrements.bucket TwoIncrements.key))).sum)) ∧
      counterValue config.shared.data[dataStorageKey TwoIncrements.bucket TwoIncrements.key]? = some 3 := by
  have answered : forall i, (TwoIncrements.incremented
      (((TwoIncrements.final TwoIncrements.sliding).get TwoIncrements.sliding_ends).phase i)).isSome = true := by decide +kernel
  have total : counterValue ((TwoIncrements.final TwoIncrements.sliding).get TwoIncrements.sliding_ends).shared.data[dataStorageKey
      TwoIncrements.bucket TwoIncrements.key]? = some 3 := by decide +kernel
  have quiet : ((TwoIncrements.final TwoIncrements.sliding).get TwoIncrements.sliding_ends).Quiescent := fun i =>
    Or.inr ((TwoIncrements.finished_of_incremented (answered i)).imp' (fun value => .increment (.ok value))
      (fun _ same => same))
  have executed := (Option.some_get TwoIncrements.sliding_ends).symm
  refine ⟨_, executed, ?_, total⟩
  rcases writes_linearizable_counters_exact (fun _ => 0) TwoIncrements.sliding Store.empty
    TwoIncrements.schedule _ executed quiet with ⟨order, nodup, members, _, _, _, account⟩
  refine ⟨order, nodup, ?_, account _ 0 TwoIncrements.sliding_counter (TwoIncrements.sliding_alive nodup)⟩
  intro i
  rcases TwoIncrements.finished_of_incremented (answered i) with ⟨value, finished⟩
  exact (members i).mpr ⟨_, finished⟩

/-! The third increment reads the clock after the expiry that the first one set,
which the second one has put off. -/

namespace TwoIncrements

def renewing : Option Bool -> StoreCall
  | none => .increment (second 0) bucket key (.int 1) (some (second 10))
  | some false => .increment (second 9) bucket key (.int 1) (some (second 19))
  | some true => .increment (second 18) bucket key (.int 1) (some (second 28))

example : AliveAlong renewing (dataStorageKey bucket key) [none, some false, some true] Store.empty := by
  decide +kernel

end TwoIncrements

/-- When the first entry expires in between, both increments are acknowledged
and only the second one counts. -/
theorem expired_counter_restarts :
    Exists fun config => TwoIncrements.final TwoIncrements.expiring = some config ∧
      (forall i, Exists fun value => config.phase i = .finished (.increment (.ok value))) ∧
      counterValue Store.empty.data[dataStorageKey TwoIncrements.bucket TwoIncrements.key]? = some 0 ∧
      ([false, true].map (acknowledged TwoIncrements.expiring config
        (dataStorageKey TwoIncrements.bucket TwoIncrements.key))).sum = 2 ∧
      counterValue config.shared.data[dataStorageKey TwoIncrements.bucket TwoIncrements.key]? = some 1 := by
  have answered : forall i, (TwoIncrements.incremented
      (((TwoIncrements.final TwoIncrements.expiring).get TwoIncrements.expiring_ends).phase i)).isSome = true := by decide +kernel
  refine ⟨_, (Option.some_get TwoIncrements.expiring_ends).symm, fun i => TwoIncrements.finished_of_incremented (answered i), ?_, ?_, ?_⟩
  · decide +kernel
  · decide +kernel
  · decide +kernel

end Keydock
