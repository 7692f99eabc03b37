import Keydock.Foundation.ObservedCalls
import Keydock.Fjall.Counters
import Keydock.Fjall.Listing

/-!
# Reads between writes

Reads of the store take no lock.  A read is a single operation of the storage
engine on the data, and a write shows in the data only with its last
operation: the commit of a set, an increment or a batch, the removal of a
deletion or of a swept entry.  Reads and writes together are therefore
linearizable, and an interruption leaves the data as some of the writes have
made it, each of them as a whole.

The one thing a write does before its last operation is that a sweep removes an
index row before it removes the entry.
-/

namespace Keydock

open Effect Adapter

/-- What clients can see of the store: everything but the expiry index. -/
def inSight (x : Space × Bytes) : Prop := x.1 ≠ .expiry

theorem data_inSight (storageKey : Bytes) : inSight (.data, storageKey) := by
  intro impossible
  cases impossible

theorem metadata_inSight (bucketKey : Bytes) : inSight (.metadata, bucketKey) := by
  intro impossible
  cases impossible

theorem data_eq_of_agree {left right : Store} (agree : storeMemory.Agree inSight left right) : left.data = right.data :=
  Std.ExtTreeMap.ext_getElem? (fun key => agree _ (data_inSight key))

theorem metadata_eq_of_agree {left right : Store} (agree : storeMemory.Agree inSight left right) :
    left.metadata = right.metadata :=
  Std.ExtTreeMap.ext_getElem? (fun key => agree _ (metadata_inSight key))

/-- The locations a write may change before its last operation. -/
def StoreCall.Early : StoreCall -> Space × Bytes -> Prop
  | .sweepEntry nowTs (.ok (expiryKey, _)), x =>
      x = (.expiry, expiryKey) ∧ Exists fun expiresUnix => Exists fun storageKey =>
        parseExpiryIndexKey expiryKey = some (expiresUnix, storageKey) ∧ expiresUnix ≤ nowTs
  | _, _ => False

/-! ## Writes show last -/

section Writes

variable {visible : Space × Bytes -> Prop} {α β : Type}

theorem showsLast_known_bind {outcome : Except UseCaseError α} {next : α -> Adapter β}
    (rest : forall value, storeMemory.ShowsLast storage visible (next value).run) :
    storeMemory.ShowsLast storage visible (known outcome >>= next).run := by
  cases outcome with
  | error error => trivial
  | ok value => exact rest value

theorem showsLast_writeEntry_bind (storageKey bytes : Bytes) (expiresAt : Option OffsetDateTime) (value : β) :
    storeMemory.ShowsLast storage visible
      (FjallStore.writeEntry storageKey bytes expiresAt >>= fun _ => pure value : Adapter β).run := by
  cases expiresAt with
  | none => exact .last (fun written => by cases written <;> exact ⟨_, rfl⟩)
  | some expiry => exact .last (fun written => by cases written <;> exact ⟨_, rfl⟩)

theorem showsLast_set (bucket : BucketId) (key : Key) (value : StoredValue) (expiresAt : Option OffsetDateTime) :
    storeMemory.ShowsLast storage visible (FjallStore.set bucket key value expiresAt).run := by
  refine showsLast_known_bind (fun bytes => ?_)
  cases expiresAt with
  | none => exact .last (fun written => ⟨_, rfl⟩)
  | some expiry => exact .last (fun written => ⟨_, rfl⟩)

theorem showsLast_delete (bucket : BucketId) (key : Key) :
    storeMemory.ShowsLast storage visible (FjallStore.delete bucket key).run := by
  refine .hidden (fun _ _ _ => rfl) (fun found => ?_)
  cases found with
  | error error => trivial
  | ok existed =>
      cases existed with
      | false => trivial
      | true =>
          refine .last (fun removed => ?_)
          cases removed <;> exact ⟨_, rfl⟩

theorem showsLast_increment (now : OffsetDateTime) (bucket : BucketId) (key : Key) (op : CounterOp)
    (expiresAt : Option OffsetDateTime) :
    storeMemory.ShowsLast storage visible (FjallStore.increment now bucket key op expiresAt).run := by
  refine .hidden (fun _ _ _ => rfl) (fun found => ?_)
  cases found with
  | error error => trivial
  | ok found =>
      refine showsLast_known_bind (fun current => ?_)
      refine showsLast_known_bind (fun merged => ?_)
      refine showsLast_known_bind (fun stored => ?_)
      refine showsLast_known_bind (fun bytes => ?_)
      exact showsLast_writeEntry_bind _ bytes expiresAt stored

theorem showsLast_applyBatch (bucket : BucketId) (ops : List TxnOp) :
    storeMemory.ShowsLast storage visible (FjallStore.applyBatch bucket ops).run := by
  unfold FjallStore.applyBatch
  split
  · trivial
  · exact showsLast_known_bind (fun items => .last (fun written => ⟨_, rfl⟩))

theorem showsLast_get_bind {space : Space} {key : Bytes}
    {next : Except FjallError (Option Bytes) -> Program keyspaceOps α}
    (rest : forall found, storeMemory.ShowsLast storage visible (next found)) :
    storeMemory.ShowsLast storage visible (Engine.get space key >>= next) :=
  .hidden (fun _ _ _ => rfl) rest

theorem showsLast_write_bind {write : BatchWrite} {next : Except FjallError Unit -> Program keyspaceOps α}
    (unseen : ¬ visible (write.space, write.key))
    (rest : forall written, storeMemory.ShowsLast storage visible (next written)) :
    storeMemory.ShowsLast storage visible (Engine.write write >>= next) := by
  refine .hidden (fun store x seen => ?_) rest
  change storeMemory.read (write.apply store) x = storeMemory.read store x
  rw [read_apply, if_neg]
  rintro rfl
  exact unseen seen

/-- The sweep of an entry removes its index row first. -/
theorem showsLast_sweepLocked {nowTs expiresUnix : Int64} {expiryKey storageKey : Bytes}
    (unseen : ¬ visible (.expiry, expiryKey)) :
    storeMemory.ShowsLast storage visible (sweepLocked nowTs expiresUnix expiryKey storageKey) := by
  refine showsLast_write_bind unseen (fun removed => ?_)
  cases removed with
  | error error => trivial
  | ok _ =>
      refine showsLast_get_bind (fun found => ?_)
      rcases found with error | _ | bytes
      · trivial
      · trivial
      · simp only
        rcases decodeEntryExpiresUnix bytes with error | _ | actual
        · trivial
        · trivial
        · simp only
          split
          · trivial
          · split
            · trivial
            · exact .last (fun removed => ⟨_, rfl⟩)

/-- A write changes nothing before its last operation but what is early. -/
theorem StoreCall.showsLast (call : StoreCall) (unseen : forall x, visible x -> ¬ call.Early x) :
    storeMemory.ShowsLast storage visible call.body := by
  cases call with
  | set bucket key value expiresAt => exact (showsLast_set bucket key value expiresAt).map StoreAnswer.set
  | delete bucket key => exact (showsLast_delete bucket key).map StoreAnswer.delete
  | increment now bucket key op expiresAt =>
      exact (showsLast_increment now bucket key op expiresAt).map StoreAnswer.increment
  | applyBatch bucket ops => exact (showsLast_applyBatch bucket ops).map StoreAnswer.applyBatch
  | sweepEntry nowTs row =>
      refine Memory.ShowsLast.map ?_ StoreAnswer.sweepEntry
      rcases row with error | ⟨expiryKey, value⟩
      · trivial
      · simp only [Keydock.sweepEntry]
        cases parsed : parseExpiryIndexKey expiryKey with
        | none => trivial
        | some parts =>
            rcases parts with ⟨expiresUnix, storageKey⟩
            simp only
            split
            next => trivial
            next due =>
              refine (showsLast_sweepLocked (fun seen => ?_)).map (fun _ => Flow.next)
              exact unseen _ seen ⟨rfl, expiresUnix, storageKey, parsed, Int64.not_lt.mp due⟩

end Writes

/-! ## Reads observe once -/

theorem observesOnce_get (bucket : BucketId) (key : Key) :
    (FjallStore.get bucket key).run.Once (storeMemory.Observes storage inSight) := by
  refine ⟨⟨fun left right agree => ?_, fun _ => rfl⟩, fun found => ?_⟩
  · exact congrArg Except.ok (agree _ (data_inSight _))
  · rcases found with error | _ | bytes
    · exact ⟨_, rfl⟩
    · exact ⟨_, rfl⟩
    · change Exists fun value => ExceptT.run (codec (decodeEntry bytes) >>= fun entry => pure (some entry)) = _
      cases decodeEntry bytes <;> exact ⟨_, rfl⟩

theorem observesOnce_list (platform : Platform) (bucket : BucketId) (opts : ListOpts) :
    (FjallStore.list platform bucket opts).run.Once (storeMemory.Observes storage inSight) := by
  refine ⟨⟨fun left right agree => ?_, fun _ => rfl⟩, fun rows => ⟨_, rfl⟩⟩
  have same := data_eq_of_agree agree
  change ((left.data.scan _).map Except.ok) = ((right.data.scan _).map Except.ok)
  rw [same]

/-! ## Calls -/

/-- A call of the key store: a write, or a read without a lock. -/
inductive KeyCall
  | write (call : StoreCall)
  | get (bucket : BucketId) (key : Key)
  | list (bucket : BucketId) (opts : ListOpts)

inductive KeyAnswer
  | write (answer : StoreAnswer)
  | get (outcome : Except UseCaseError (Option StoredEntry))
  | list (outcome : Except TaskError (List ListEntry))

namespace KeyCall

def body (platform : Platform) : KeyCall -> Program keyspaceOps KeyAnswer
  | .write call => do
      return .write (<- call.body)
  | .get bucket key => do
      return .get (<- (FjallStore.get bucket key).run)
  | .list bucket opts => do
      return .list (<- (FjallStore.list platform bucket opts).run)

/-- The storage keys whose stripes the call locks. -/
def storageKeys : KeyCall -> List Bytes
  | .write call => call.storageKeys
  | .get _ _ | .list _ _ => []

def locked (platform : Platform) (stripe : Bytes -> Stripe) (call : KeyCall) : Call keyspaceOps Stripe KeyAnswer where
  locks := lockStripesForKeys stripe call.storageKeys
  nodup := (lockStripesForKeys_ascending stripe call.storageKeys).imp (fun less => ne_of_lt less)
  body := call.body platform

/-- The call is the body of a sweep for this index row, at this second. -/
def Sweeps (call : KeyCall) (nowTs : Int64) (row : Bytes) : Prop :=
  Exists fun value => call = .write (.sweepEntry nowTs (.ok (row, value)))

end KeyCall

theorem KeyCall.orderly (platform : Platform) (stripe : Bytes -> Stripe) (call : KeyCall) :
    (call.locked platform stripe).Orderly storeMemory storage (fun x => some (guardOf stripe x)) inSight := by
  cases call with
  | write write =>
      have same : (KeyCall.locked platform stripe (.write write)).domain (fun x => some (guardOf stripe x)) =
          (write.locked stripe).region (guardOf stripe) := by
        funext x
        simp only [Call.domain, Call.region, Option.some.injEq, exists_eq_left']
        rfl
      have confined : storeMemory.ConfinedProgram storage ((write.locked stripe).region (guardOf stripe)) write.body :=
        disciplined stripe (fun _ : Unit => write) ()
      have late : storeMemory.ShowsLast storage inSight write.body := by
        refine write.showsLast (fun x seen early => ?_)
        unfold StoreCall.Early at early
        split at early
        · rw [early.1] at seen
          exact seen rfl
        · exact early
      refine .locked ?_ (late.map KeyAnswer.write)
      rw [same]
      exact confined.bind (fun _ => trivial)
  | get bucket key => exact .observing ((observesOnce_get bucket key).map KeyAnswer.get)
  | list bucket opts => exact .observing ((observesOnce_list platform bucket opts).map KeyAnswer.list)

/-- Reads and writes together are linearizable.  However the lock, keyspace and
release steps of concurrent calls interleave: once no call is pending there is
an order of the answered calls, reads included, that respects real time and in
which running them one after another gives the store and every answer. -/
theorem reads_and_writes_linearizable {ι : Type} [DecidableEq ι] (platform : Platform) (stripe : Bytes -> Stripe)
    (calls : ι -> KeyCall) (start : Store) (schedule : List ι)
    (config : Config keyspaceOps Store ι Stripe KeyAnswer)
    (run : Config.execute storage (fun i => (calls i).locked platform stripe) (Config.initial start) schedule =
      some config)
    (quiet : config.Quiescent) :
    Exists fun order : List ι =>
      order.Nodup ∧
      (forall i, i ∈ order ↔ Exists fun answer => config.phase i = .finished answer) ∧
      (storage.runEach (fun i => (calls i).body platform) order start).2 = config.shared ∧
      (forall i answer, config.phase i = .finished answer ->
        (i, answer) ∈ (storage.runEach (fun i => (calls i).body platform) order start).1) ∧
      forall i j, j ∈ order -> Config.Before storage (fun i => (calls i).locked platform stripe)
        (Config.initial start) schedule i j -> Precedes order i j :=
  Config.linearizable_observed (fun i => (calls i).orderly platform stripe) run quiet

/-! A read that overlaps a write and sees nothing of it. -/

namespace OverlappingCalls

theorem no_trees : forall left, left ∈ ([] : List (Json × Bytes)) -> forall right, right ∈ ([] : List (Json × Bytes)) ->
    left.2 = right.2 -> left.1 = right.1 := by simp

def platform : Platform := Platform.ofJson [] no_trees []

def value : StoredValue := CounterValue.storedInt 5

def calls : Bool -> KeyCall
  | false => .write (.set TwoIncrements.bucket TwoIncrements.key value none)
  | true => .get TwoIncrements.bucket TwoIncrements.key

/-- The read is invoked when the write holds its stripe and answers after it. -/
def schedule : List Bool := [false, false, true, true, true, false, false, false, false, false, true, true]

def final : Option (Config keyspaceOps Store Bool Stripe KeyAnswer) :=
  Config.execute storage (fun i => (calls i).locked platform (fun _ => ⟨0, TwoIncrements.first_stripe⟩))
    (Config.initial Store.empty) schedule

theorem ends : final.isSome = true := by decide +kernel

def answer : Phase keyspaceOps Stripe KeyAnswer -> Option KeyAnswer
  | .finished answer => some answer
  | _ => none

theorem finished_of_answer {phase : Phase keyspaceOps Stripe KeyAnswer} (answered : (answer phase).isSome = true) :
    Exists fun value => phase = .finished value := by
  unfold answer at answered
  split at answered
  next value => exact ⟨value, rfl⟩
  next => cases answered

/-- The read found nothing. -/
def missed : Option KeyAnswer -> Bool
  | some (.get (.ok none)) => true
  | _ => false

end OverlappingCalls

/-- The read of a missing key while it is written answers as before the write. -/
theorem overlapping_read_linearizable :
    Exists fun config => OverlappingCalls.final = some config ∧
      OverlappingCalls.missed (OverlappingCalls.answer (config.phase true)) = true ∧
      config.shared.data.contains (dataStorageKey TwoIncrements.bucket TwoIncrements.key) = true ∧
      Exists fun order : List Bool => order.Nodup ∧ (forall i, i ∈ order) ∧
        (storage.runEach (fun i => (OverlappingCalls.calls i).body OverlappingCalls.platform) order
          Store.empty).2 = config.shared := by
  have answered : forall i, (OverlappingCalls.answer
      ((OverlappingCalls.final.get OverlappingCalls.ends).phase i)).isSome = true := by decide +kernel
  have quiet : (OverlappingCalls.final.get OverlappingCalls.ends).Quiescent :=
    fun i => Or.inr (OverlappingCalls.finished_of_answer (answered i))
  have executed := (Option.some_get OverlappingCalls.ends).symm
  refine ⟨_, executed, by decide +kernel, by decide +kernel, ?_⟩
  rcases reads_and_writes_linearizable OverlappingCalls.platform (fun _ => 0) OverlappingCalls.calls Store.empty
    OverlappingCalls.schedule _ executed quiet with ⟨order, nodup, members, state, _, _⟩
  exact ⟨order, nodup, fun i => (members i).mpr (OverlappingCalls.finished_of_answer (answered i)), state⟩

/-! ## Interruptions -/

/-- Sweeping any rows keeps the index over what is left: an entry whose own row
was passed is gone with it. -/
theorem Indexed.outcome {store after : Store} (inv : Indexed store) {nowTs : Int64} {keys : List Bytes}
    (outcome : SweepOutcome nowTs keys store after) : Indexed after where
  entries := by
    intro storageKey bytes left
    rcases (outcome.data storageKey bytes).mp left with ⟨present, alive⟩
    rcases inv.entries storageKey bytes present with ⟨bucket, key, value, expiresAt, named, coded, listed⟩
    refine ⟨bucket, key, value, expiresAt, named, coded, ?_⟩
    intro expiry same
    rcases Option.isSome_iff_exists.mp (listed expiry same) with ⟨rowValue, row⟩
    refine Option.isSome_iff_exists.mpr ⟨rowValue, (outcome.expiry _ _).mpr ⟨row, ?_⟩⟩
    rintro ⟨member, expiresUnix, other, equal, due⟩
    rw [← (expiryIndexKey_injective equal).1] at due
    refine alive ⟨expiry.unixTimestamp, ?_, due, member⟩
    rw [coded, decodeEntryExpiresUnix_entryBytes, same]
    rfl
  rows := fun row value left => inv.rows row value ((outcome.expiry row value).mp left).1

theorem StoreCall.indexed (call : StoreCall) {store : Store} (inv : Indexed store) :
    Indexed (storage.run call.body store).2 := by
  rw [call.run_body]
  cases call with
  | set bucket key value expiresAt => exact StoreCommand.perform_indexed inv (.set bucket key value expiresAt)
  | delete bucket key => exact StoreCommand.perform_indexed inv (.delete bucket key)
  | increment now bucket key op expiresAt =>
      exact StoreCommand.perform_indexed inv (.increment now bucket key op expiresAt)
  | applyBatch bucket ops => exact StoreCommand.perform_indexed inv (.applyBatch bucket ops)
  | sweepEntry nowTs row =>
      rcases row with error | ⟨expiryKey, value⟩
      · exact inv
      · simp only [Keydock.sweepEntry]
        cases parsed : parseExpiryIndexKey expiryKey with
        | none => exact inv
        | some parts =>
            rcases parts with ⟨expiresUnix, storageKey⟩
            simp only
            split
            next => exact inv
            next due =>
              simp only [Semantics.run_bind, run_sweepLocked, Program.pure_eq, Semantics.run_done]
              rw [(expiryIndexKey_of_parse parsed).1]
              exact inv.outcome (sweepRow_outcome nowTs expiresUnix storageKey (Int64.not_lt.mp due) store)

theorem KeyCall.indexed (platform : Platform) (call : KeyCall) {store : Store} (inv : Indexed store) :
    Indexed (storage.run (call.body platform) store).2 := by
  cases call with
  | write call =>
      simp only [body, Semantics.run_bind, Program.pure_eq, Semantics.run_done]
      exact call.indexed inv
  | get bucket key =>
      have still := Memory.Observes.unchanged_run ((observesOnce_get bucket key).map KeyAnswer.get) store
      exact inv.congr (congrArg Store.data still) (congrArg Store.expiry still)
  | list bucket opts =>
      have still := Memory.Observes.unchanged_run ((observesOnce_list platform bucket opts).map KeyAnswer.list) store
      exact inv.congr (congrArg Store.data still) (congrArg Store.expiry still)

theorem runEach_indexed {ι : Type} (platform : Platform) (calls : ι -> KeyCall) (order : List ι) {store : Store}
    (inv : Indexed store) : Indexed (storage.runEach (fun i => (calls i).body platform) order store).2 := by
  induction order generalizing store with
  | nil => exact inv
  | cons i rest ih => exact ih ((calls i).indexed platform inv)

/-- Before its last operation a call has removed at most the row it sweeps. -/
theorem KeyCall.early_or_unseen {platform : Platform} {call : KeyCall} {store middle : Store}
    {op : KeyspaceOp} {next : KeyspaceOp.Result op -> Program keyspaceOps KeyAnswer}
    (passes : storage.Passes (call.body platform) store (Program.call (S := keyspaceOps) op next) middle)
    (row : Bytes) :
    (Exists fun nowTs => Exists fun expiresUnix => Exists fun storageKey => call.Sweeps nowTs row ∧
      row = expiryIndexKey expiresUnix storageKey ∧ expiresUnix ≤ nowTs) ∨
      storeMemory.read middle (.expiry, row) = storeMemory.read store (.expiry, row) := by
  have observed : forall {program : Program keyspaceOps KeyAnswer},
      program.Once (storeMemory.Observes storage inSight) ->
      storage.Passes program store (Program.call (S := keyspaceOps) op next) middle -> middle = store := by
    intro program once passes
    rcases once.passes passes with ⟨_, same⟩ | ⟨value, impossible⟩
    · exact same
    · cases impossible
  cases call with
  | write call =>
      by_cases early : call.Early (.expiry, row)
      · left
        unfold StoreCall.Early at early
        split at early
        next nowTs expiryKey value =>
          rcases early with ⟨same, expiresUnix, storageKey, parsed, due⟩
          cases same
          exact ⟨nowTs, expiresUnix, storageKey, ⟨value, rfl⟩, (expiryIndexKey_of_parse parsed).1, due⟩
        next => exact False.elim early
      · right
        have late : storeMemory.ShowsLast storage (fun x => ¬ call.Early x) call.body :=
          call.showsLast (fun _ seen => seen)
        exact (late.map KeyAnswer.write).unseen passes _ early
  | get bucket key =>
      rw [observed ((observesOnce_get bucket key).map KeyAnswer.get) passes]
      exact .inr rfl
  | list bucket opts =>
      rw [observed ((observesOnce_list platform bucket opts).map KeyAnswer.list) passes]
      exact .inr rfl

/-- What an interruption leaves.  Wherever a schedule of concurrent calls is
cut off, the data are those of some of the calls run one after another to their
end, every answered call among them with its answer and none that was not
invoked.  An entry that expires still has its index row, or is one whose expiry
a sweep under way has found to be due. -/
theorem interruption_leaves_whole_writes {ι : Type} [DecidableEq ι] (platform : Platform) (stripe : Bytes -> Stripe)
    (calls : ι -> KeyCall) (start : Store) (indexed : Indexed start) (schedule : List ι)
    (config : Config keyspaceOps Store ι Stripe KeyAnswer)
    (run : Config.execute storage (fun i => (calls i).locked platform stripe) (Config.initial start) schedule =
      some config) :
    Exists fun order : List ι =>
      order.Nodup ∧
      (forall i answer, config.phase i = .finished answer ->
        (i, answer) ∈ (storage.runEach (fun i => (calls i).body platform) order start).1) ∧
      (forall i, i ∈ order -> config.phase i ≠ .idle) ∧
      (forall i j, j ∈ order -> Config.Before storage (fun i => (calls i).locked platform stripe)
        (Config.initial start) schedule i j -> Precedes order i j) ∧
      config.shared.data = (storage.runEach (fun i => (calls i).body platform) order start).2.data ∧
      config.shared.metadata = (storage.runEach (fun i => (calls i).body platform) order start).2.metadata ∧
      forall storageKey bytes expiresUnix, config.shared.data[storageKey]? = some bytes ->
        decodeEntryExpiresUnix bytes = .ok (some expiresUnix) ->
        config.shared.expiry.contains (expiryIndexKey expiresUnix storageKey) = true ∨
          Exists fun i => Exists fun nowTs => (config.phase i).Active ∧
            (calls i).Sweeps nowTs (expiryIndexKey expiresUnix storageKey) ∧ expiresUnix ≤ nowTs := by
  have orderly := fun i => (calls i).orderly platform stripe
  have inv := Config.observedRun orderly run
  have realTime := fun i j => Config.settling_precedes orderly (i := i) (j := j) run
  generalize settled : Config.settling storage (fun i => (calls i).locked platform stripe) (Config.initial start)
    schedule = order at inv realTime
  have same : config.shared.data = (storage.runEach (fun i => (calls i).body platform) order start).2.data :=
    data_eq_of_agree inv.linked.shown
  have sameMetadata : config.shared.metadata =
      (storage.runEach (fun i => (calls i).body platform) order start).2.metadata :=
    metadata_eq_of_agree inv.linked.shown
  refine ⟨order, inv.settled_nodup, ?_, ?_, fun i j member earlier => realTime i j earlier member, same, sameMetadata, ?_⟩
  · intro i answer finished
    exact inv.answers i answer (by rw [finished]; rfl)
  · intro i member idle
    have ended := (inv.settled_iff i).mp member
    rw [idle] at ended
    cases ended
  · intro storageKey bytes expiresUnix present decoded
    have serial := runEach_indexed platform calls order indexed
    have listed := serial.row_of_entry (same ▸ present) decoded
    by_cases untouched : storeMemory.read config.shared (.expiry, expiryIndexKey expiresUnix storageKey) =
        storeMemory.read (storage.runEach (fun i => (calls i).body platform) order start).2
          (.expiry, expiryIndexKey expiresUnix storageKey)
    · left
      rw [Keyspace.contains_eq_isSome]
      exact (congrArg Option.isSome untouched).trans listed
    · -- Some call under way guards the row, and it is the one that removed it.
      right
      have guarded : ¬ forall i activity, (config.phase i).ongoing ((calls i).locked platform stripe) = some activity ->
          ¬ activity.call.domain (fun x => some (guardOf stripe x)) (.expiry, expiryIndexKey expiresUnix storageKey) :=
        fun free => untouched (inv.linked.elsewhere _ free)
      push Not at guarded
      rcases guarded with ⟨i, activity, found, inside⟩
      rcases inv.linked.underway i activity found with ⟨middle, passes, agree⟩
      rcases Phase.ongoing_eq_some found with ⟨op, next, running, rfl⟩
      rcases KeyCall.early_or_unseen passes (expiryIndexKey expiresUnix storageKey) with
        ⟨nowTs, namedUnix, namedKey, sweeps, named, due⟩ | unseen
      · rw [← (expiryIndexKey_injective named).1] at due
        exact ⟨i, nowTs, (by rw [running]; trivial), sweeps, due⟩
      · exact False.elim (untouched ((agree _ inside).trans unseen))

/-! A sweep that is interrupted when it has removed the row and not yet the
entry. -/

namespace InterruptedSweep

def row : Bytes := expiryIndexKey 10 (dataStorageKey TwoIncrements.bucket TwoIncrements.key)

theorem ten_small : 10 < 1000 := by decide

def deadline : OffsetDateTime := TwoIncrements.second ⟨10, ten_small⟩

def calls : Bool -> KeyCall
  | false => .write (.set TwoIncrements.bucket TwoIncrements.key OverlappingCalls.value (some deadline))
  | true => .write (.sweepEntry 20 (.ok (row, [])))

def schedule : List Bool := [false, false, false, false, false, false, false, true, true, true, true]

def final : Option (Config keyspaceOps Store Bool Stripe KeyAnswer) :=
  Config.execute storage (fun i => (calls i).locked OverlappingCalls.platform (fun _ => ⟨0, TwoIncrements.first_stripe⟩))
    (Config.initial Store.empty) schedule

theorem reached : final.isSome = true := by decide +kernel

end InterruptedSweep

/-- The entry is left without its row; the interrupted sweep had found it due. -/
theorem interrupted_sweep_leaves_entry :
    Exists fun config => InterruptedSweep.final = some config ∧
      config.shared.expiry.contains InterruptedSweep.row = false ∧
      Exists fun bytes =>
        config.shared.data[dataStorageKey TwoIncrements.bucket TwoIncrements.key]? = some bytes ∧
        Exists fun i => Exists fun nowTs => (config.phase i).Active ∧
          (InterruptedSweep.calls i).Sweeps nowTs InterruptedSweep.row ∧ 10 ≤ nowTs := by
  have executed := (Option.some_get InterruptedSweep.reached).symm
  have gone : (InterruptedSweep.final.get InterruptedSweep.reached).shared.expiry.contains InterruptedSweep.row =
      false := by decide +kernel
  have left : (InterruptedSweep.final.get InterruptedSweep.reached).shared.data[dataStorageKey
      TwoIncrements.bucket TwoIncrements.key]? =
      some (entryBytes OverlappingCalls.value (some InterruptedSweep.deadline)) := by decide +kernel
  have decoded : decodeEntryExpiresUnix (entryBytes OverlappingCalls.value (some InterruptedSweep.deadline)) =
      .ok (some 10) := by
    rw [decodeEntryExpiresUnix_entryBytes]
    exact congrArg (fun expiresUnix => Except.ok (some expiresUnix)) (by decide)
  rcases interruption_leaves_whole_writes OverlappingCalls.platform (fun _ => 0) InterruptedSweep.calls Store.empty
    Indexed.empty InterruptedSweep.schedule _ executed with ⟨_, _, _, _, _, _, _, covered⟩
  refine ⟨_, executed, gone, _, left, ?_⟩
  rcases covered _ _ 10 left decoded with listed | swept
  · exact absurd (gone.symm.trans listed) (by decide)
  · exact swept

end Keydock
