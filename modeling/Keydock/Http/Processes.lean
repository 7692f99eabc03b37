import Keydock.Foundation.Atomicity
import Keydock.Fjall.Observed
import Keydock.Http.Reference

/-!
# Requests and sweeps as processes

Down at the database, a storage call takes the stripes of its keys, reads and
writes the keyspaces one operation at a time and gives the stripes back.  The
requests of a server and its sweeps interleave in these steps.  The records of
the buckets have no stripe; a call reads or writes one record with one
operation.

Every call is orderly, so it passes for a single step.  What has been said of
requests that interleave at their storage calls therefore holds of the server:
its responses are those of the reference service, for some interleaving of
whole calls that respects real time.
-/

namespace Keydock

open Effect Adapter

/-! ## Calls into the database -/

/-- The calls of the persistence ports, and the sweep of one index row. -/
inductive ServerOp
  | port (op : StorageOp)
  | sweepEntry (nowTs : Int64) (row : Row)

def ServerOp.Result : ServerOp -> Type
  | .port op => op.Result
  | .sweepEntry _ _ => Flow

def serverOps : Signature := ⟨ServerOp, ServerOp.Result⟩

/-- A repository operation as the program of its blocking task. -/
def task {α : Type} (operation : Adapter α) : Program keyspaceOps (Except TaskError α) :=
  operation.run >>= fun outcome => .done (outcome.mapError TaskError.useCase)

namespace StorageOp

def body (platform : Platform) : (op : StorageOp) -> Program keyspaceOps op.Result
  | .getPolicy bucket => task (FjallStore.getPolicy platform bucket)
  | .createBucket id policy => task (FjallStore.createBucket platform id policy)
  | .deleteBucket id => task (FjallStore.deleteBucket id)
  | .get bucket key => task (FjallStore.get bucket key)
  | .set bucket key value expiresAt => task (FjallStore.set bucket key value expiresAt)
  | .delete bucket key => task (FjallStore.delete bucket key)
  | .list bucket opts => (FjallStore.list platform bucket opts).run
  | .increment now bucket key op expiresAt => task (FjallStore.increment now bucket key op expiresAt)
  | .applyBatch bucket ops => task (FjallStore.applyBatch bucket ops)

/-- The storage keys whose stripes the call locks. -/
def storageKeys : StorageOp -> List Bytes
  | .set bucket key _ _ | .delete bucket key | .increment _ bucket key _ _ => [dataStorageKey bucket key]
  | .applyBatch bucket ops => ops.map (fun op => dataStorageKey bucket op.key)
  | .getPolicy _ | .createBucket _ _ | .deleteBucket _ | .get _ _ | .list _ _ => []

end StorageOp

namespace ServerOp

def body (platform : Platform) : (op : ServerOp) -> Program keyspaceOps op.Result
  | .port op => op.body platform
  | .sweepEntry nowTs row => Keydock.sweepEntry nowTs row

def storageKeys : ServerOp -> List Bytes
  | .port op => op.storageKeys
  | .sweepEntry nowTs row => (StoreCall.sweepEntry nowTs row).storageKeys

def locked (platform : Platform) (stripe : Bytes -> Stripe) (op : ServerOp) : Call keyspaceOps Stripe op.Result where
  locks := lockStripesForKeys stripe op.storageKeys
  nodup := (lockStripesForKeys_ascending stripe op.storageKeys).imp (fun less => ne_of_lt less)
  body := op.body platform

end ServerOp

/-- The calls of the server as single operations. -/
def server (platform : Platform) : Semantics serverOps Store where
  exec
    | .port op, store => (service platform).exec op store
    | .sweepEntry nowTs row, store => storage.run (sweepEntry nowTs row) store

/-- A call that nothing interrupts is the storage call of the service. -/
theorem atomically_locked (platform : Platform) (stripe : Bytes -> Stripe) :
    storage.atomically (S := serverOps) (ServerOp.locked platform stripe) = server platform := by
  have task_run : forall {α : Type} (operation : Adapter α) (store : Store),
      storage.run (task operation) store = joined (Adapter.eval operation store) := by
    intro α operation store
    rw [task, Semantics.run_bind]
    rfl
  refine congrArg Semantics.mk (funext fun op => funext fun store => ?_)
  cases op with
  | sweepEntry nowTs row => rfl
  | port op =>
      cases op with
      | list bucket opts => rfl
      | getPolicy _ | createBucket _ _ | deleteBucket _ | get _ _ | set _ _ _ _ | delete _ _ | increment _ _ _ _ _
      | applyBatch _ _ => exact task_run _ store

/-! ## Every call is orderly -/

/-- The stripe of a location.  Bucket records have none. -/
def stripeOf (stripe : Bytes -> Stripe) : Space × Bytes -> Option Stripe
  | (.metadata, _) => none
  | x => some (guardOf stripe x)

theorem confined_sweepEntry {region : Space × Bytes -> Prop} {nowTs : Int64} {row : Row}
    (data : forall storageKey, storageKey ∈ (StoreCall.sweepEntry nowTs row).storageKeys ->
      region (.data, storageKey))
    (index : forall storageKey expiresUnix, storageKey ∈ (StoreCall.sweepEntry nowTs row).storageKeys ->
      region (.expiry, expiryIndexKey expiresUnix storageKey)) :
    storeMemory.ConfinedProgram storage region (sweepEntry nowTs row) := by
  rcases row with error | ⟨expiryKey, value⟩
  · trivial
  · simp only [sweepEntry]
    simp only [StoreCall.storageKeys] at data index
    cases parsed : parseExpiryIndexKey expiryKey with
    | none => trivial
    | some parts =>
        rcases parts with ⟨expiresUnix, storageKey⟩
        simp only
        split
        next => trivial
        next due =>
          simp only [parsed, if_neg due] at data index
          have listed := index storageKey expiresUnix List.mem_cons_self
          rw [← (expiryIndexKey_of_parse parsed).1] at listed
          exact (confined_sweepLocked listed (data storageKey List.mem_cons_self)).bind (fun _ => trivial)

theorem showsLast_sweepEntry (nowTs : Int64) (row : Row) :
    storeMemory.ShowsLast storage inSight (sweepEntry nowTs row) := by
  rcases row with error | ⟨expiryKey, value⟩
  · trivial
  · simp only [sweepEntry]
    cases parsed : parseExpiryIndexKey expiryKey with
    | none => trivial
    | some parts =>
        rcases parts with ⟨expiresUnix, storageKey⟩
        simp only
        split
        next => trivial
        next => exact (showsLast_sweepLocked (fun seen => seen rfl)).map (fun _ => Flow.next)

theorem once_getPolicy (platform : Platform) (bucket : BucketId) :
    (FjallStore.getPolicy platform bucket).run.Once (storeMemory.Observes storage inSight) := by
  refine ⟨⟨fun left right agree => ?_, fun _ => rfl⟩, fun found => ?_⟩
  · exact congrArg Except.ok (agree _ (metadata_inSight _))
  · rcases found with error | _ | bytes
    · exact ⟨_, rfl⟩
    · exact ⟨_, rfl⟩
    · change Exists fun value => ExceptT.run (known (decodePolicy platform bytes) >>= fun policy => pure (some policy)) = _
      cases decodePolicy platform bytes <;> exact ⟨_, rfl⟩

theorem confined_task {α : Type} {region : Space × Bytes -> Prop} {operation : Adapter α}
    (confined : storeMemory.ConfinedProgram storage region operation.run) :
    storeMemory.ConfinedProgram storage region (task operation) :=
  confined.bind (fun _ => trivial)

section Unguarded

variable {region : Space × Bytes -> Prop}

theorem once_backend_write {write : BatchWrite} (inside : region (write.space, write.key)) :
    (backend (Engine.write write)).run.Once (storeMemory.Confined storage region) :=
  ⟨(confined_write inside).1, fun _ => ⟨_, rfl⟩⟩

theorem once_createBucket {id : BucketId} (inside : region (.metadata, Bytes.utf8 id.asStr)) (platform : Platform)
    (policy : BucketPolicy) :
    (FjallStore.createBucket platform id policy).run.Once (storeMemory.Confined storage region) := by
  unfold FjallStore.createBucket
  cases encodePolicy platform policy with
  | error error => trivial
  | ok bytes => exact once_backend_write inside

end Unguarded

theorem ServerOp.orderly (platform : Platform) (stripe : Bytes -> Stripe) (op : ServerOp) :
    (op.locked platform stripe).Orderly storeMemory storage (stripeOf stripe) inSight := by
  have data : forall storageKey, storageKey ∈ op.storageKeys ->
      (op.locked platform stripe).domain (stripeOf stripe) (.data, storageKey) :=
    fun storageKey member => ⟨stripe storageKey, rfl, mem_lockStripesForKeys member⟩
  have index : forall storageKey expiresUnix, storageKey ∈ op.storageKeys ->
      (op.locked platform stripe).domain (stripeOf stripe) (.expiry, expiryIndexKey expiresUnix storageKey) :=
    fun storageKey expiresUnix member => ⟨stripe storageKey,
      congrArg some (guardOf_expiryIndexKey stripe expiresUnix storageKey), mem_lockStripesForKeys member⟩
  cases op with
  | sweepEntry nowTs row => exact .locked (confined_sweepEntry data index) (showsLast_sweepEntry nowTs row)
  | port op =>
      cases op with
      | getPolicy bucket => exact .observing ((once_getPolicy platform bucket).map _)
      | createBucket id policy =>
          refine .unguarded (Program.Once.map ?_ _)
          have free : stripeOf stripe (.metadata, Bytes.utf8 id.asStr) = none := rfl
          exact once_createBucket free platform policy
      | deleteBucket id =>
          refine .unguarded (Program.Once.map ?_ _)
          have free : stripeOf stripe (.metadata, Bytes.utf8 id.asStr) = none := rfl
          exact once_backend_write free
      | get bucket key => exact .observing ((observesOnce_get bucket key).map _)
      | list bucket opts => exact .observing (observesOnce_list platform bucket opts)
      | set bucket key value expiresAt =>
          refine .locked ?_ ((showsLast_set bucket key value expiresAt).map _)
          exact confined_task (confined_set (data _ List.mem_cons_self) (fun t => index _ t List.mem_cons_self) value
            expiresAt)
      | delete bucket key =>
          refine .locked ?_ ((showsLast_delete bucket key).map _)
          exact confined_task (confined_delete (data _ List.mem_cons_self))
      | increment now bucket key op expiresAt =>
          refine .locked ?_ ((showsLast_increment now bucket key op expiresAt).map _)
          exact confined_task (confined_increment (data _ List.mem_cons_self)
            (fun t => index _ t List.mem_cons_self) now op expiresAt)
      | applyBatch bucket ops =>
          have listed : forall op, op ∈ ops ->
              dataStorageKey bucket op.key ∈ (ServerOp.port (.applyBatch bucket ops)).storageKeys :=
            fun op member => List.mem_map.mpr ⟨op, member, rfl⟩
          refine .locked ?_ ((showsLast_applyBatch bucket ops).map _)
          exact confined_task (confined_applyBatch (fun op member => data _ (listed op member))
            (fun op t member => index _ t (listed op member)))

/-! ## Processes -/

/-- A process of the server: a request, or a sweep over index rows. -/
inductive Process
  | request (incoming : Request)
  | sweep (nowTs : Int64) (rows : List Row)

inductive Outcome
  | response (response : Response)
  | swept
  deriving DecidableEq

namespace Process

/-- The program of a request among the calls of the server. -/
def ported : Program storageOps Response -> Program serverOps Outcome
  | .done response => .done (.response response)
  | .call op next => .call (S := serverOps) (.port op) (fun result => ported (next result))

/-- How a sweep goes on after a row. -/
def follow (rest : Program serverOps Outcome) : Flow -> Program serverOps Outcome
  | .stop => .done .swept
  | .next => rest

/-- The loop of a sweep, one call for each row. -/
def sweepCalls (nowTs : Int64) : List Row -> Program serverOps Outcome
  | [] => .done .swept
  | row :: rest => .call (S := serverOps) (.sweepEntry nowTs row) (follow (sweepCalls nowTs rest))

def program (state : AppState) : Process -> Program serverOps Outcome
  | .request incoming => ported (incoming.program state)
  | .sweep nowTs rows => sweepCalls nowTs rows

end Process

section Server

variable {ι : Type} [DecidableEq ι] (state : AppState) (stripe : Bytes -> Stripe) (processes : ι -> Process)

/-- The processes with whole calls as their operations. -/
def wholeCalls (i : ι) : Call serverOps Empty Outcome := ((processes i).program state).unlocked

/-- The server: its processes interleave in the steps of the database. -/
def Server.execute (start : Store) (schedule : List ι) : Option (Machine serverOps keyspaceOps Store ι Stripe Outcome) :=
  Machine.execute storage (ServerOp.locked state.platform stripe) (fun i => (processes i).program state)
    (Machine.initial start) schedule

/-- Process `i` was over before process `j` began. -/
def Server.Before (start : Store) (schedule : List ι) : ι -> ι -> Prop :=
  Machine.Before storage (ServerOp.locked state.platform stripe) (fun i => (processes i).program state)
    (Machine.initial start) schedule

variable {state stripe processes}

/-- The server beside its processes with whole calls. -/
theorem Server.condensed {start : Store} {schedule : List ι}
    {machine : Machine serverOps keyspaceOps Store ι Stripe Outcome}
    (run : Server.execute state stripe processes start schedule = some machine) :
    Exists fun calls : List ι => Exists fun config =>
      Config.execute (server state.platform) (wholeCalls state processes) (Config.initial start) calls = some config ∧
      Condensed storeMemory storage (stripeOf stripe) inSight (ServerOp.locked state.platform stripe) machine config ∧
      forall i j, Server.Before state stripe processes start schedule i j ->
        Config.Before (server state.platform) (wholeCalls state processes) (Config.initial start) calls i j := by
  have orderly := ServerOp.orderly state.platform stripe
  rcases Machine.condensed orderly run with ⟨config, executed, inv⟩
  rw [atomically_locked] at executed
  refine ⟨_, config, executed, inv, fun i j earlier => ?_⟩
  have kept := Machine.before_condense orderly earlier
  rw [atomically_locked] at kept
  exact kept

end Server

/-- Storage calls are atomic.  For every interleaving of requests and sweeps in
the steps of the database there is one of whole calls, in the same real-time
order, that brings every process to the same point of its program with the same
results.  The data and the bucket records are the same at every point, and the
whole store is while no call runs. -/
theorem storage_calls_atomic {ι : Type} [DecidableEq ι] (state : AppState) (stripe : Bytes -> Stripe)
    (processes : ι -> Process) (start : Store) (schedule : List ι)
    (machine : Machine serverOps keyspaceOps Store ι Stripe Outcome)
    (run : Server.execute state stripe processes start schedule = some machine) :
    Exists fun calls : List ι => Exists fun config =>
      Config.execute (server state.platform) (wholeCalls state processes) (Config.initial start) calls = some config ∧
      (forall i, config.phase i = (machine.stage i).whole) ∧
      (forall i j, Server.Before state stripe processes start schedule i j ->
        Config.Before (server state.platform) (wholeCalls state processes) (Config.initial start) calls i j) ∧
      machine.shared.data = config.shared.data ∧ machine.shared.metadata = config.shared.metadata ∧
      ((forall i op next rest, machine.stage i ≠ .running op next rest) -> machine.shared = config.shared) := by
  rcases Server.condensed run with ⟨calls, config, executed, inv, realTime⟩
  refine ⟨calls, config, executed, inv.phases, realTime, data_eq_of_agree inv.linked.shown,
    metadata_eq_of_agree inv.linked.shown, ?_⟩
  intro resting
  refine inv.linked.eq_of_quiet (fun i => ?_)
  cases stage : machine.stage i with
  | running op next rest => exact absurd stage (resting i op next rest)
  | idle | between _ | acquiring _ _ _ | releasing _ _ _ _ | finished _ => rfl

/-! A bucket is deleted while a write to it, already admitted, holds the stripe
of its key. -/

namespace OvertakenStorage

open Rotation (state start)

def processes (i : Bool) : Process := .request (OvertakenWrite.requests i)

def schedule : List Bool := List.replicate 8 false ++ List.replicate 12 true ++ List.replicate 6 false

def final : Option (Machine serverOps keyspaceOps Store Bool Stripe Outcome) :=
  Server.execute state (fun _ => ⟨0, TwoIncrements.first_stripe⟩) processes start schedule

def answer : Effect.Stage serverOps keyspaceOps Stripe Outcome -> Option Outcome
  | .finished outcome => some outcome
  | _ => none

theorem finished_of_answer {stage : Effect.Stage serverOps keyspaceOps Stripe Outcome} {outcome : Outcome}
    (answered : answer stage = some outcome) : stage = .finished outcome := by
  unfold answer at answered
  split at answered
  next => exact congrArg _ (Option.some.inj answered)
  next => cases answered

def outcomes : Bool -> Outcome
  | false => .response (storedValueResponse (CounterValue.storedInt 5))
  | true => .response (Response.ofStatus 204)

theorem ended : final.map (fun machine => (answer (machine.stage false), answer (machine.stage true))) =
    some (some (outcomes false), some (outcomes true)) := by decide +kernel

theorem finished {machine : Machine serverOps keyspaceOps Store Bool Stripe Outcome} (run : final = some machine)
    (i : Bool) : machine.stage i = .finished (outcomes i) := by
  have answers := ended
  rw [run, Option.map_some] at answers
  have both := Prod.mk.inj (Option.some.inj answers)
  cases i with
  | false => exact finished_of_answer both.1
  | true => exact finished_of_answer both.2

end OvertakenStorage

open OvertakenStorage in
open Rotation (state start) in
/-- As whole calls the write and the deletion both succeed and leave the same
store. -/
theorem overtaken_storage_call_atomic :
    Exists fun machine => final = some machine ∧ Exists fun calls : List Bool => Exists fun config =>
      Config.execute (server state.platform) (wholeCalls state processes) (Config.initial start) calls = some config ∧
      (forall i, config.phase i = .finished (outcomes i)) ∧ machine.shared = config.shared := by
  rcases Option.map_eq_some_iff.mp ended with ⟨machine, run, _⟩
  have done := finished run
  rcases storage_calls_atomic state _ processes start schedule machine run with
    ⟨calls, config, executed, phases, _, _, _, same⟩
  refine ⟨machine, run, calls, config, executed, fun i => ?_, same (fun i op next rest impossible => ?_)⟩
  · rw [phases, done i]
    rfl
  · rw [done i] at impossible
    cases impossible

/-! ## Sweeps in the reference service -/

namespace Reference

/-- Drop the entry with this storage key when it expires at this second. -/
def forget (service : Reference) (expiresUnix : Int64) (storageKey : Bytes) : Reference :=
  { service with entries := fun bucket => (service.entries bucket).filter (fun key entry =>
      !(decide (dataStorageKey bucket key = storageKey) &&
        decide (entry.expiresAt.map OffsetDateTime.unixTimestamp = some expiresUnix))) }

/-- The sweep of one index row. -/
def sweepEntry (nowTs : Int64) (service : Reference) : Row -> Flow × Reference
  | .error _ => (.next, service)
  | .ok (expiryKey, _) =>
      match parseExpiryIndexKey expiryKey with
      | none => (.next, service)
      | some (expiresUnix, storageKey) =>
          if nowTs < expiresUnix then (.stop, service) else (.next, service.forget expiresUnix storageKey)

end Reference

/-- The meaning of the calls of the server in the reference service. -/
def referenceServer (platform : Platform) : Semantics serverOps Reference where
  exec
    | .port op, service => (reference platform).exec op service
    | .sweepEntry nowTs row, service => service.sweepEntry nowTs row

theorem Sound.outcome {platform : Platform} {store after : Store} (sound : Sound platform store) {nowTs : Int64}
    {keys : List Bytes} (outcome : SweepOutcome nowTs keys store after) : Sound platform after where
  indexed := sound.indexed.outcome outcome
  policies := by
    rw [outcome.metadata]
    exact sound.policies
  owned := fun storageKey bytes present => sound.owned storageKey bytes ((outcome.data storageKey bytes).mp present).1

theorem Represents.forget {platform : Platform} {store : Store} {service : Reference}
    (linked : Represents platform store service) {nowTs expiresUnix : Int64} (due : expiresUnix ≤ nowTs)
    (storageKey : Bytes) :
    Represents platform (store.sweepRow nowTs expiresUnix (expiryIndexKey expiresUnix storageKey) storageKey)
      (service.forget expiresUnix storageKey) := by
  have outcome := sweepRow_outcome nowTs expiresUnix storageKey due store
  refine ⟨linked.sound.outcome outcome, ?_, ?_⟩
  · intro bucket
    have before := linked.policies bucket
    simp only [Store.lookupPolicy, outcome.metadata] at before ⊢
    exact before
  · intro id key
    simp only [Reference.forget, Std.ExtTreeMap.getElem?_filter']
    rcases linked.entry_cases id key with ⟨missing, absent⟩ | ⟨value, expiresAt, stored, found⟩
    · have still : (store.sweepRow nowTs expiresUnix (expiryIndexKey expiresUnix storageKey) storageKey).data[
          dataStorageKey id.bucketId key]? = none := by
        refine Option.eq_none_iff_forall_ne_some.mpr (fun bytes present => ?_)
        rw [((outcome.data _ bytes).mp present).1] at missing
        cases missing
      rw [still, absent]
      rfl
    · have swept : Swept nowTs [expiryIndexKey expiresUnix storageKey] (dataStorageKey id.bucketId key)
          (entryBytes value expiresAt) ↔ dataStorageKey id.bucketId key = storageKey ∧
            (StoredEntry.kept value expiresAt).expiresAt.map OffsetDateTime.unixTimestamp = some expiresUnix := by
        have same : (StoredEntry.kept value expiresAt).expiresAt.map OffsetDateTime.unixTimestamp =
            expiresAt.map OffsetDateTime.unixTimestamp := by
          cases expiresAt with
          | none => rfl
          | some expiry => exact congrArg some (OffsetDateTime.unixTimestamp_floorSecond expiry)
        rw [same]
        unfold Swept
        rw [decodeEntryExpiresUnix_entryBytes]
        constructor
        · rintro ⟨named, decoded, _, member⟩
          rcases expiryIndexKey_injective (List.mem_singleton.mp member) with ⟨rfl, rfl⟩
          exact ⟨rfl, Except.ok.inj decoded⟩
        · rintro ⟨rfl, expires⟩
          exact ⟨expiresUnix, congrArg Except.ok expires, due, List.mem_singleton.mpr rfl⟩
      rw [found, Option.filter_some]
      by_cases gone : dataStorageKey id.bucketId key = storageKey ∧
          (StoredEntry.kept value expiresAt).expiresAt.map OffsetDateTime.unixTimestamp = some expiresUnix
      · have missing : (store.sweepRow nowTs expiresUnix (expiryIndexKey expiresUnix storageKey) storageKey).data[
            dataStorageKey id.bucketId key]? = none := by
          refine Option.eq_none_iff_forall_ne_some.mpr (fun bytes present => ?_)
          rcases (outcome.data _ bytes).mp present with ⟨before, kept⟩
          rw [stored] at before
          cases before
          exact kept (swept.mpr gone)
        rw [missing, decide_eq_true gone.1, decide_eq_true gone.2]
        rfl
      · have present := (outcome.data _ _).mpr ⟨stored, mt swept.mp gone⟩
        rw [present, Option.map_some, decodeEntry_entryBytes]
        have stays : (!(decide (dataStorageKey id.bucketId key = storageKey) &&
            decide ((StoredEntry.kept value expiresAt).expiresAt.map OffsetDateTime.unixTimestamp =
              some expiresUnix))) = true := by
          rw [← Bool.decide_and, decide_eq_false gone]
          rfl
        rw [if_pos stays]
        rfl

theorem referenceServer_matches_sweepEntry (platform : Platform) (nowTs : Int64) (row : Row) :
    (server platform).Matches (referenceServer platform) (Represents platform) (.sweepEntry nowTs row) := by
  intro store image linked
  change (storage.run (sweepEntry nowTs row) store).1 = (image.sweepEntry nowTs row).1 ∧
    Represents platform (storage.run (sweepEntry nowTs row) store).2 (image.sweepEntry nowTs row).2
  rcases row with error | ⟨expiryKey, value⟩
  · exact ⟨rfl, linked⟩
  · simp only [sweepEntry, Reference.sweepEntry]
    cases parsed : parseExpiryIndexKey expiryKey with
    | none => exact ⟨rfl, linked⟩
    | some parts =>
        rcases parts with ⟨expiresUnix, storageKey⟩
        simp only
        split
        next => exact ⟨rfl, linked⟩
        next due =>
          simp only [Semantics.run_bind, run_sweepLocked, Program.pure_eq, Semantics.run_done]
          rw [(expiryIndexKey_of_parse parsed).1]
          exact ⟨trivial, linked.forget (Int64.not_lt.mp due) storageKey⟩

theorem Process.simulated (state : AppState) (process : Process) :
    (server state.platform).Simulated (referenceServer state.platform) (Represents state.platform)
      (process.program state) := by
  cases process with
  | request incoming =>
      have request := incoming.simulated state
      change (server state.platform).Simulated _ _ (ported (incoming.program state))
      generalize incoming.program state = program at request
      induction program with
      | done response => trivial
      | call op next ih =>
          intro store image linked
          rcases request store image linked with ⟨result, after, rest⟩
          exact ⟨result, after, ih _ rest⟩
  | sweep nowTs rows =>
      change (server state.platform).Simulated _ _ (sweepCalls nowTs rows)
      induction rows with
      | nil => trivial
      | cons row rest ih =>
          intro store image linked
          rcases referenceServer_matches_sweepEntry state.platform nowTs row store image linked with ⟨result, after⟩
          refine ⟨result, after, ?_⟩
          generalize ((server state.platform).exec (.sweepEntry nowTs row) store).1 = flow
          cases flow with
          | stop => trivial
          | next => exact ih

/-- The server refines the reference service.  However requests and sweeps
interleave in the steps of the database: the same processes finish with the same
outcomes as in an interleaving of whole calls over the reference, in the same
real-time order, and at every point the database shows its policies and
entries. -/
theorem server_refines_reference {ι : Type} [DecidableEq ι] (state : AppState) (stripe : Bytes -> Stripe)
    (processes : ι -> Process) (start : Store) (image : Reference) (linked : Represents state.platform start image)
    (schedule : List ι) (machine : Machine serverOps keyspaceOps Store ι Stripe Outcome)
    (run : Server.execute state stripe processes start schedule = some machine) :
    Exists fun calls : List ι => Exists fun final =>
      Config.execute (referenceServer state.platform) (wholeCalls state processes) (Config.initial image) calls =
        some final ∧
      (forall i outcome, machine.stage i = .finished outcome ↔ final.phase i = .finished outcome) ∧
      (forall i j, Server.Before state stripe processes start schedule i j ->
        Config.Before (referenceServer state.platform) (wholeCalls state processes) (Config.initial image) calls i j) ∧
      (forall bucket, machine.shared.lookupPolicy state.platform bucket = .ok (final.shared.policies bucket)) ∧
      forall (id : Uuid) (key : Key), (machine.shared.data[dataStorageKey id.bucketId key]?).map decodeEntry =
        ((final.shared.entries id.bucketId)[key]?).map .ok := by
  have simulated := fun i => (processes i).simulated state
  rcases Server.condensed run with ⟨calls, config, executed, inv, realTime⟩
  rcases Config.execute_simulated simulated linked executed with ⟨after, ended, related⟩
  refine ⟨calls, _, ended, ?_, ?_, ?_, ?_⟩
  · intro i outcome
    rw [← Stage.whole_finished, ← inv.phases i]
    exact Iff.rfl
  · exact fun i j earlier => Config.before_simulated simulated linked (realTime i j earlier)
  · intro bucket
    have found := related.policies bucket
    simp only [Store.lookupPolicy, ← metadata_eq_of_agree inv.linked.shown] at found ⊢
    exact found
  · intro id key
    rw [data_eq_of_agree inv.linked.shown]
    exact related.entries id key

open OvertakenStorage in
open Rotation (state start) in
/-- The reference service answers the write and the deletion alike. -/
theorem overtaken_storage_call_refines :
    Exists fun machine => final = some machine ∧ Exists fun calls : List Bool => Exists fun final =>
      Config.execute (referenceServer state.platform) (wholeCalls state processes)
        (Config.initial OvertakenWrite.image) calls = some final ∧
      forall i, final.phase i = .finished (outcomes i) := by
  rcases Option.map_eq_some_iff.mp ended with ⟨machine, run, _⟩
  rcases server_refines_reference state _ processes start OvertakenWrite.image OvertakenWrite.start_represents schedule
    machine run with ⟨calls, final, executed, phases, _, _, _⟩
  exact ⟨machine, run, calls, final, executed, fun i => (phases i _).mp (finished run i)⟩

end Keydock
