import Keydock.Fjall.Faults
import Keydock.Http.Runs

/-!
# How long an entry lives

A write computes the instant at which its entry expires to the nanosecond, and
a read compares with the nanosecond; in between the instant is stored as a
whole second, rounded towards the past.  An entry therefore lives exactly as
long as asked for when it is written on a whole second, and is gone up to a
second too early otherwise.

Between the write and the read anything may happen to other keys, and sweeps
may run at any instant up to the read.
-/

namespace Keydock

open Effect

/-! ## The stored expiry -/

theorem toInt_toInt64 {seconds : UInt64} (bounded : seconds.toNat < 2 ^ 63) :
    seconds.toInt64.toInt = seconds.toNat := by
  change seconds.toBitVec.toInt = _
  rw [BitVec.toInt_eq_toNat_of_lt]
  · rfl
  · change 2 * seconds.toNat < 2 ^ 64
    omega

/-- A time to live that is accepted ends that many seconds after the write. -/
theorem KeyService.resolveTtl_eq_ok {now : OffsetDateTime} {ttlOverride defaultTtl : Option UInt64} {seconds : UInt64}
    {expiresAt : Option OffsetDateTime} (effective : ttlOverride.or defaultTtl = some seconds)
    (positive : seconds ≠ 0) (resolved : resolveTtl now ttlOverride defaultTtl = .ok expiresAt) :
    Exists fun expiry => expiresAt = some expiry ∧
      expiry.nanos = now.nanos + seconds.toNat * nanosPerSecond := by
  unfold resolveTtl at resolved
  simp only [effective, positive, if_false] at resolved
  split at resolved
  next => cases resolved
  next bounded =>
    split at resolved
    next => cases resolved
    next expiry added =>
      cases resolved
      have sum := OffsetDateTime.ofNanos_nanos added
      rw [toInt_toInt64 (by omega)] at sum
      exact ⟨expiry, rfl, sum⟩

/-- A set of the key with a time to live, by itself or within a transaction
that does nothing to the key afterwards. -/
inductive SetsFor (platform : Platform) (now : OffsetDateTime) (bucket : BucketId) (key : Key) (value : StoredValue)
    (seconds : UInt64) (store after : Store) : Prop
  | alone (body : Bytes) (contentType : Option String) (ttlOverride defaultTtl : Option UInt64)
      (effective : ttlOverride.or defaultTtl = some seconds)
      (written : Task.eval platform (KeyService.set platform now bucket key body contentType ttlOverride defaultTtl)
        store = (.ok value, after))
  | inTransaction (earlier later : List TxnOp) (ttlOverride defaultTtl : Option UInt64)
      (expiresAt : Option OffsetDateTime) (effective : ttlOverride.or defaultTtl = some seconds)
      (resolved : KeyService.resolveTtl now ttlOverride defaultTtl = .ok expiresAt)
      (last : forall op, op ∈ later -> op.key ≠ key)
      (written : Task.eval platform (Repo.applyBatch bucket (earlier ++ .set key value expiresAt :: later)) store =
        (.ok (), after))

/-- Operations on other keys leave an entry alone. -/
theorem applyTxnOps_other (bucket : BucketId) {storageKey : Bytes} (ops : List TxnOp) (store : Store)
    (other : forall op, op ∈ ops -> dataStorageKey bucket op.key ≠ storageKey) :
    (ops.foldl (Store.applyTxnOp bucket) store).data[storageKey]? = store.data[storageKey]? := by
  by_contra changed
  rcases applyTxnOps_changed ops store changed with ⟨op, member, same, _⟩
  exact other op member same

theorem SetsFor.stored {platform : Platform} {now : OffsetDateTime} {bucket : BucketId} {key : Key}
    {value : StoredValue} {seconds : UInt64} {store after : Store} (positive : seconds ≠ 0)
    (written : SetsFor platform now bucket key value seconds store after) :
    Exists fun expiry : OffsetDateTime => expiry.nanos = now.nanos + seconds.toNat * nanosPerSecond ∧
      after.data[dataStorageKey bucket key]? = some (entryBytes value (some expiry)) := by
  cases written with
  | alone body contentType ttlOverride defaultTtl effective written =>
      rw [Task.eval_set] at written
      split at written
      next => cases written
      next inferred _ =>
        split at written
        next => cases written
        next expiresAt resolved =>
          cases written
          rcases KeyService.resolveTtl_eq_ok effective positive resolved with ⟨expiry, rfl, sum⟩
          refine ⟨expiry, sum, ?_⟩
          simp only [Store.put, Keyspace.get_insert, if_true]
  | inTransaction earlier later ttlOverride defaultTtl expiresAt effective resolved last written =>
      rw [Task.eval_applyBatch] at written
      cases written
      rcases KeyService.resolveTtl_eq_ok effective positive resolved with ⟨expiry, rfl, sum⟩
      refine ⟨expiry, sum, ?_⟩
      have other : forall op, op ∈ later -> dataStorageKey bucket op.key ≠ dataStorageKey bucket key :=
        fun op member same => last op member (dataStorageKey_key_injective same)
      rw [List.foldl_append, List.foldl_cons, applyTxnOps_other bucket later _ other]
      simp only [Store.applyTxnOp, Store.put, Keyspace.get_insert, if_true]

/-! ## What happens to the entry afterwards -/

/-- The command does nothing to the key, and if it sweeps it does so no later
than the given instant. -/
def StoreCommand.Spares (storageKey : Bytes) (last : OffsetDateTime) : StoreCommand -> Prop
  | .set bucket key _ _ => dataStorageKey bucket key ≠ storageKey
  | .delete bucket key => dataStorageKey bucket key ≠ storageKey
  | .increment _ bucket key _ _ => dataStorageKey bucket key ≠ storageKey
  | .applyBatch bucket ops => forall op, op ∈ ops -> dataStorageKey bucket op.key ≠ storageKey
  | .sweep now => now ≤ last

/-- The entry is still there, or it was due and has been swept. -/
def KeptUntil (storageKey : Bytes) (value : StoredValue) (expiry last : OffsetDateTime) (store : Store) : Prop :=
  store.data[storageKey]? = some (entryBytes value (some expiry)) ∨
    (store.data[storageKey]? = none ∧ expiry.unixTimestamp ≤ last.unixTimestamp)

section Kept

variable {storageKey : Bytes} {value : StoredValue} {expiry last : OffsetDateTime} {store : Store}

theorem KeptUntil.congr {after : Store} (kept : KeptUntil storageKey value expiry last store)
    (same : after.data[storageKey]? = store.data[storageKey]?) : KeptUntil storageKey value expiry last after := by
  unfold KeptUntil
  rw [same]
  exact kept

theorem KeptUntil.sweep (kept : KeptUntil storageKey value expiry last store) {now : OffsetDateTime}
    (intime : now ≤ last) : KeptUntil storageKey value expiry last (store.sweep now) := by
  have outcome := Faults.never.sweep_outcome store now
  rw [Faults.sweep_never] at outcome
  cases left : (store.sweep now).data[storageKey]? with
  | some bytes =>
      have before := ((outcome.data storageKey bytes).mp left).1
      rcases kept with present | ⟨missing, _⟩
      · rw [before] at present
        exact .inl (left.trans present)
      · rw [before] at missing
        cases missing
  | none =>
      rcases kept with present | ⟨missing, due⟩
      · -- The sweep removes the entry only when it has expired.
        have swept : Swept now.unixTimestamp ((store.expiry.iter.map Prod.fst).filter Faults.never.clears) storageKey
            (entryBytes value (some expiry)) := by
          by_contra alive
          rw [(outcome.data storageKey _).mpr ⟨present, alive⟩] at left
          cases left
        rcases swept with ⟨expiresUnix, decoded, due, _⟩
        rw [decodeEntryExpiresUnix_entryBytes] at decoded
        cases decoded
        exact .inr ⟨left, Int64.le_trans due (OffsetDateTime.unixTimestamp_mono intime)⟩
      · exact .inr ⟨left, due⟩

theorem KeptUntil.perform (kept : KeptUntil storageKey value expiry last store) {command : StoreCommand}
    (spares : command.Spares storageKey last) : KeptUntil storageKey value expiry last (command.perform store) := by
  cases command with
  | set bucket key written expiresAt =>
      refine kept.congr ?_
      rw [StoreCommand.perform, FjallStore.eval_set]
      exact (Keyspace.get_insert _ _ _ _).trans (if_neg spares)
  | delete bucket key =>
      refine kept.congr ?_
      rw [StoreCommand.perform, FjallStore.eval_delete]
      exact (Keyspace.get_remove _ _ _).trans (if_neg spares)
  | increment now bucket key op expiresAt =>
      refine kept.congr ?_
      rw [StoreCommand.perform, FjallStore.eval_increment]
      split
      · rfl
      · exact (Keyspace.get_insert _ _ _ _).trans (if_neg spares)
  | applyBatch bucket ops =>
      refine kept.congr ?_
      rw [StoreCommand.perform, FjallStore.eval_applyBatch]
      exact applyTxnOps_other bucket ops store spares
  | sweep now => exact kept.sweep spares

theorem KeptUntil.run (commands : List StoreCommand) (kept : KeptUntil storageKey value expiry last store)
    (spares : forall command, command ∈ commands -> command.Spares storageKey last) :
    KeptUntil storageKey value expiry last (commands.foldl StoreCommand.perform store) := by
  induction commands generalizing store with
  | nil => exact kept
  | cons command rest ih =>
      exact ih (kept.perform (spares command List.mem_cons_self))
        (fun later member => spares later (List.mem_cons_of_mem command member))

end Kept

/-- A read finds the entry as long as its stored second has not come. -/
theorem KeptUntil.get {bucket : BucketId} {key : Key} {value : StoredValue} {expiry now : OffsetDateTime}
    {store : Store} (kept : KeptUntil (dataStorageKey bucket key) value expiry now store) (platform : Platform) :
    (Task.eval platform (KeyService.get now bucket key) store).1 =
      if expiry.floorSecond ≤ now then .error (.useCase .notFound)
      else .ok ⟨value, some expiry.floorSecond⟩ := by
  rw [Task.eval_get]
  rcases kept with present | ⟨missing, due⟩
  · simp only [Store.liveEntry, present, decodeEntry_entryBytes, StoredEntry.expiredAt, Option.map_some,
      decide_eq_true_eq]
    split <;> rfl
  · rw [if_pos ((OffsetDateTime.floorSecond_le_iff expiry now).mpr due)]
    simp only [Store.liveEntry, missing]
    rfl

/-! ## The time to live -/

/-- From the write on, a read finds the value until the time to live has passed
and nothing afterwards, exactly when the write falls on a whole second. -/
theorem ttl_exact_iff (platform : Platform) (written : OffsetDateTime) (bucket : BucketId) (key : Key)
    (value : StoredValue) (seconds : UInt64) (positive : seconds ≠ 0) (store after : Store)
    (sets : SetsFor platform written bucket key value seconds store after) :
    (forall (read : OffsetDateTime) (commands : List StoreCommand), written ≤ read ->
      (forall command, command ∈ commands -> command.Spares (dataStorageKey bucket key) read) ->
      let answer := (Task.eval platform (KeyService.get read bucket key)
        (commands.foldl StoreCommand.perform after)).1
      (read.nanos < written.nanos + seconds.toNat * nanosPerSecond ->
        Exists fun entry => answer = .ok entry ∧ entry.value = value) ∧
      (written.nanos + seconds.toNat * nanosPerSecond ≤ read.nanos -> answer = .error (.useCase .notFound))) ↔
    written.nanos % nanosPerSecond = 0 := by
  have count : seconds.toNat ≠ 0 := fun zero => positive (UInt64.toNat_inj.mp zero)
  rcases sets.stored positive with ⟨expiry, sum, present⟩
  have floor : expiry.floorSecond.nanos = expiry.nanos / nanosPerSecond * nanosPerSecond := rfl
  constructor
  · intro exact
    by_contra fraction
    -- The whole second before the expiry is after the write and too early.
    have reached : written ≤ expiry.floorSecond := by
      rw [OffsetDateTime.le_iff, floor, sum]
      unfold nanosPerSecond at *
      omega
    have early : expiry.floorSecond.nanos < written.nanos + seconds.toNat * nanosPerSecond := by
      rw [floor, sum]
      unfold nanosPerSecond at *
      omega
    rcases (exact expiry.floorSecond [] reached (fun _ member => by cases member)).1 early with ⟨entry, found, _⟩
    have kept : KeptUntil (dataStorageKey bucket key) value expiry expiry.floorSecond after := .inl present
    have due : expiry.floorSecond ≤ expiry.floorSecond := Int.le_refl _
    rw [List.foldl_nil, kept.get platform, if_pos due] at found
    cases found
  · intro whole read commands later spares answer
    have kept : KeptUntil (dataStorageKey bucket key) value expiry read
        (commands.foldl StoreCommand.perform after) := KeptUntil.run commands (.inl present) spares
    have closed : answer = _ := kept.get platform
    have same : expiry.floorSecond.nanos = expiry.nanos := by
      rw [floor, sum]
      unfold nanosPerSecond at *
      omega
    rw [closed]
    constructor
    · intro before
      rw [if_neg (fun due => by rw [OffsetDateTime.le_iff, same, sum] at due; omega)]
      exact ⟨_, rfl, rfl⟩
    · intro passed
      rw [if_pos (by rw [OffsetDateTime.le_iff, same, sum]; exact passed)]

namespace HalfSecond

theorem no_trees : forall left, left ∈ ([] : List (Json × Bytes)) -> forall right, right ∈ ([] : List (Json × Bytes)) ->
    left.2 = right.2 -> left.1 = right.1 := by simp

def platform : Platform := Platform.ofJson [] no_trees []

def bucket : BucketId := ⟨"b"⟩

theorem key_short : [(0x6B : UInt8)].length ≤ maxKeyBytes := by decide

def key : Key := ⟨[0x6B], key_short⟩

def value : StoredValue := ⟨[0x68, 0x69], .utf8, by decide⟩

/-- The store after a write at this instant that asks for a number of seconds. -/
def store (written : OffsetDateTime) (seconds : UInt64) : Store :=
  (Task.eval platform (KeyService.set platform written bucket key value.payload none (some seconds) none)
    Store.empty).2

/-- Half a second after the epoch. -/
def written : OffsetDateTime := ⟨500000000, by decide, by decide⟩

/-- Seven tenths of a second after the write. -/
def read : OffsetDateTime := ⟨1200000000, by decide, by decide⟩

end HalfSecond

open HalfSecond in
/-- A value written on a whole second for one minute is there right away. -/
theorem whole_second_ttl_exact :
    Exists fun entry => (Task.eval platform (KeyService.get OffsetDateTime.unixEpoch bucket key)
      (store OffsetDateTime.unixEpoch 60)).1 = .ok entry ∧ entry.value = value := by
  have sets : SetsFor platform OffsetDateTime.unixEpoch bucket key value 60 Store.empty
      (store OffsetDateTime.unixEpoch 60) := .alone value.payload none (some 60) none rfl
      (Prod.ext (by decide +kernel) rfl)
  exact ((ttl_exact_iff platform OffsetDateTime.unixEpoch bucket key value 60 (by decide) Store.empty _ sets).mpr
    (by decide) OffsetDateTime.unixEpoch [] (Int.le_refl _) (fun _ member => by cases member)).1 (by decide)

open HalfSecond in
/-- A value written half a second after a whole second for one second is gone
seven tenths of a second later. -/
theorem half_second_ttl_short :
    (Task.eval platform (KeyService.set platform written bucket key value.payload none (some 1) none)
      Store.empty).1 = .ok value ∧
    written ≤ read ∧ read.nanos < written.nanos + 1 * nanosPerSecond ∧
    (Task.eval platform (KeyService.get read bucket key) (store written 1)).1 = .error (.useCase .notFound) := by
  decide +kernel

end Keydock
