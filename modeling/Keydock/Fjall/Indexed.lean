import Keydock.Fjall.Sweep

/-!
# The expiry index covers the data

The invariant of every run: entries are well formed, an entry that expires
has its own index row, and index rows are well formed.  Under it a sweep
removes exactly the entries that have expired and every row that is not in
the future.
-/

namespace Keydock

open Effect Adapter

structure Indexed (store : Store) : Prop where
  entries : forall storageKey bytes, store.data[storageKey]? = some bytes ->
    Exists fun bucket => Exists fun key => Exists fun value => Exists fun expiresAt =>
      storageKey = dataStorageKey bucket key ∧ bytes = entryBytes value expiresAt ∧
        forall expiry, expiresAt = some expiry ->
          (store.expiry[expiryIndexKey expiry.unixTimestamp storageKey]?).isSome = true
  rows : forall row value, store.expiry[row]? = some value -> IsIndexKey row

namespace Indexed

variable {store after : Store}

theorem empty : Indexed Store.empty where
  entries := by
    intro storageKey bytes present
    simp [Store.empty] at present
  rows := by
    intro row value present
    simp [Store.empty] at present

/-- Metadata plays no part. -/
theorem congr (inv : Indexed store) (sameData : after.data = store.data)
    (sameExpiry : after.expiry = store.expiry) : Indexed after where
  entries := by
    rw [sameData, sameExpiry]
    exact inv.entries
  rows := by
    rw [sameExpiry]
    exact inv.rows

theorem put (inv : Indexed store) (bucket : BucketId) (key : Key) (value : StoredValue)
    (expiresAt : Option OffsetDateTime) : Indexed (store.put (dataStorageKey bucket key) value expiresAt) := by
  -- Rows are only added, so what an older entry needs is still there.
  have grown : forall row : Bytes, (store.expiry[row]?).isSome = true ->
      ((store.put (dataStorageKey bucket key) value expiresAt).expiry[row]?).isSome = true := by
    intro row present
    cases expiresAt with
    | none => exact present
    | some expiry =>
        simp only [Store.put, Keyspace.get_insert]
        split
        · rfl
        · exact present
  constructor
  · intro storageKey bytes present
    simp only [Store.put, Keyspace.get_insert] at present
    split at present
    next same =>
      cases present
      refine ⟨bucket, key, value, expiresAt, same.symm, rfl, ?_⟩
      rintro expiry rfl
      rw [← same]
      simp only [Store.put, Keyspace.get_insert, if_true, Option.isSome_some]
    next =>
      rcases inv.entries storageKey bytes present with ⟨bucket, key, value, expiresAt, named, coded, listed⟩
      exact ⟨bucket, key, value, expiresAt, named, coded, fun expiry same => grown _ (listed expiry same)⟩
  · intro row rowValue present
    cases expiresAt with
    | none => exact inv.rows row rowValue present
    | some expiry =>
        simp only [Store.put, Keyspace.get_insert] at present
        split at present
        next same => exact ⟨_, _, dataStorageKey_ne_nil bucket key, same.symm⟩
        next => exact inv.rows row rowValue present

theorem erase (inv : Indexed store) (storageKey : Bytes) : Indexed (store.erase storageKey) where
  entries := by
    intro other bytes present
    simp only [Store.erase, Keyspace.get_remove] at present
    split at present
    next => cases present
    next => exact inv.entries other bytes present
  rows := inv.rows

theorem applyTxnOp (inv : Indexed store) (bucket : BucketId) (op : TxnOp) :
    Indexed (Store.applyTxnOp bucket store op) := by
  cases op with
  | set key value expiresAt => exact inv.put bucket key value expiresAt
  | delete key => exact inv.erase _

theorem applyTxnOps (inv : Indexed store) (bucket : BucketId) (ops : List TxnOp) :
    Indexed (ops.foldl (Store.applyTxnOp bucket) store) := by
  induction ops generalizing store with
  | nil => exact inv
  | cons op rest ih => exact ih (inv.applyTxnOp bucket op)

/-- A sweep passes over the rows of the index at its start. -/
theorem sweep_outcome (inv : Indexed store) (now : OffsetDateTime) :
    SweepOutcome now.unixTimestamp (store.expiry.iter.map Prod.fst) store (store.sweep now) := by
  have shaped : forall row, row ∈ store.expiry.iter -> IsIndexKey row.1 :=
    fun row member => inv.rows row.1 row.2 (store.expiry.mem_iter.mp member)
  have outcome := sweepRows_outcome now.unixTimestamp store.expiry.iter shaped store.expiry.iter_ascending store
  simpa only [Store.sweep, sweepKeyspace, Semantics.run_bind, Engine.run_iter, Store.space] using outcome

end Indexed

/-- The entry's recorded expiry is at or before a second. -/
def expiresBy (nowTs : Int64) (bytes : Bytes) : Bool :=
  match decodeEntryExpiresUnix bytes with
  | .ok (some expiresUnix) => expiresUnix ≤ nowTs
  | _ => false

theorem expiresBy_iff {nowTs : Int64} {bytes : Bytes} :
    expiresBy nowTs bytes = true ↔
      Exists fun expiresUnix => decodeEntryExpiresUnix bytes = .ok (some expiresUnix) ∧ expiresUnix ≤ nowTs := by
  unfold expiresBy
  constructor
  · intro due
    split at due
    next expiresUnix decoded => exact ⟨expiresUnix, decoded, of_decide_eq_true due⟩
    next => cases due
  · rintro ⟨expiresUnix, decoded, due⟩
    rw [decoded]
    exact decide_eq_true due

theorem expiresBy_entryBytes (nowTs : Int64) (value : StoredValue) (expiresAt : Option OffsetDateTime) :
    expiresBy nowTs (entryBytes value expiresAt) =
      expiresAt.any (fun expiry => expiry.unixTimestamp ≤ nowTs) := by
  unfold expiresBy
  rw [decodeEntryExpiresUnix_entryBytes]
  cases expiresAt <;> rfl

/-- An entry read back is expired exactly when its recorded second is due. -/
theorem expiredAt_read (now : OffsetDateTime) (value : StoredValue) (expiresAt : Option OffsetDateTime) :
    StoredEntry.expiredAt ⟨value, expiresAt.map OffsetDateTime.floorSecond⟩ now =
      expiresBy now.unixTimestamp (entryBytes value expiresAt) := by
  rw [expiresBy_entryBytes]
  cases expiresAt with
  | none => rfl
  | some expiry => exact decide_eq_decide.mpr (OffsetDateTime.floorSecond_le_iff expiry now)

namespace Indexed

variable {store : Store}

theorem row_of_entry (inv : Indexed store) {storageKey bytes : Bytes} {expiresUnix : Int64}
    (present : store.data[storageKey]? = some bytes)
    (decoded : decodeEntryExpiresUnix bytes = .ok (some expiresUnix)) :
    (store.expiry[expiryIndexKey expiresUnix storageKey]?).isSome = true := by
  rcases inv.entries storageKey bytes present with ⟨bucket, key, value, expiresAt, named, rfl, listed⟩
  rw [decodeEntryExpiresUnix_entryBytes] at decoded
  rcases Option.map_eq_some_iff.mp (Except.ok.inj decoded) with ⟨expiry, some, rfl⟩
  exact listed expiry some

theorem swept_iff (inv : Indexed store) {nowTs : Int64} {storageKey bytes : Bytes}
    (present : store.data[storageKey]? = some bytes) :
    Swept nowTs (store.expiry.iter.map Prod.fst) storageKey bytes ↔ expiresBy nowTs bytes = true := by
  rw [expiresBy_iff]
  constructor
  · rintro ⟨expiresUnix, decoded, due, _⟩
    exact ⟨expiresUnix, decoded, due⟩
  · rintro ⟨expiresUnix, decoded, due⟩
    rcases Option.isSome_iff_exists.mp (inv.row_of_entry present decoded) with ⟨value, listed⟩
    exact ⟨expiresUnix, decoded, due,
      List.mem_map.mpr ⟨(expiryIndexKey expiresUnix storageKey, value), store.expiry.mem_iter.mpr listed, rfl⟩⟩

/-- The sweep is exact on the data. -/
theorem sweep_data (inv : Indexed store) (now : OffsetDateTime) (storageKey : Bytes) :
    (store.sweep now).data[storageKey]? =
      (store.data[storageKey]?).filter (fun bytes => !expiresBy now.unixTimestamp bytes) := by
  have outcome := inv.sweep_outcome now
  apply Option.ext
  intro bytes
  rw [outcome.data, Option.filter_eq_some_iff]
  refine and_congr_right (fun present => ?_)
  rw [inv.swept_iff present]
  simp

/-- After a sweep every index row is in the future. -/
theorem sweep_expiry (inv : Indexed store) (now : OffsetDateTime) {row value : Bytes}
    (left : (store.sweep now).expiry[row]? = some value) :
    Exists fun expiresUnix => Exists fun storageKey => storageKey ≠ [] ∧
      row = expiryIndexKey expiresUnix storageKey ∧ now.unixTimestamp < expiresUnix := by
  rcases ((inv.sweep_outcome now).expiry row value).mp left with ⟨present, kept⟩
  rcases inv.rows row value present with ⟨expiresUnix, storageKey, nonempty, rfl⟩
  refine ⟨expiresUnix, storageKey, nonempty, rfl, ?_⟩
  by_contra due
  exact kept ⟨List.mem_map.mpr ⟨(_, value), store.expiry.mem_iter.mpr present, rfl⟩,
    expiresUnix, storageKey, rfl, Int64.not_lt.mp due⟩

theorem sweep (inv : Indexed store) (now : OffsetDateTime) : Indexed (store.sweep now) where
  entries := by
    intro storageKey bytes left
    have outcome := inv.sweep_outcome now
    rcases (outcome.data storageKey bytes).mp left with ⟨present, alive⟩
    rcases inv.entries storageKey bytes present with ⟨bucket, key, value, expiresAt, named, coded, listed⟩
    refine ⟨bucket, key, value, expiresAt, named, coded, ?_⟩
    intro expiry same
    rcases Option.isSome_iff_exists.mp (listed expiry same) with ⟨rowValue, row⟩
    -- The row survives: were it passed, the entry it belongs to would be swept.
    refine Option.isSome_iff_exists.mpr ⟨rowValue, (outcome.expiry _ _).mpr ⟨row, ?_⟩⟩
    rintro ⟨member, expiresUnix, other, equal, due⟩
    rw [← (expiryIndexKey_injective equal).1] at due
    refine alive ⟨expiry.unixTimestamp, ?_, due, member⟩
    rw [coded, decodeEntryExpiresUnix_entryBytes, same]
    rfl
  rows := by
    intro row value left
    rcases inv.sweep_expiry now left with ⟨expiresUnix, storageKey, nonempty, equal, _⟩
    exact ⟨expiresUnix, storageKey, nonempty, equal⟩

theorem sweep_metadata (inv : Indexed store) (now : OffsetDateTime) :
    (store.sweep now).metadata = store.metadata :=
  (inv.sweep_outcome now).metadata

end Indexed

/-! ## Runs of the key store -/

/-- A write operation of the key store or a sweep, performed atomically. -/
inductive StoreCommand
  | set (bucket : BucketId) (key : Key) (value : StoredValue) (expiresAt : Option OffsetDateTime)
  | delete (bucket : BucketId) (key : Key)
  | increment (now : OffsetDateTime) (bucket : BucketId) (key : Key) (op : CounterOp)
      (expiresAt : Option OffsetDateTime)
  | applyBatch (bucket : BucketId) (ops : List TxnOp)
  | sweep (now : OffsetDateTime)

namespace StoreCommand

def perform (store : Store) : StoreCommand -> Store
  | .set bucket key value expiresAt => (eval (FjallStore.set bucket key value expiresAt) store).2
  | .delete bucket key => (eval (FjallStore.delete bucket key) store).2
  | .increment now bucket key op expiresAt => (eval (FjallStore.increment now bucket key op expiresAt) store).2
  | .applyBatch bucket ops => (eval (FjallStore.applyBatch bucket ops) store).2
  | .sweep now => store.sweep now

theorem perform_indexed {store : Store} (inv : Indexed store) (command : StoreCommand) :
    Indexed (command.perform store) := by
  cases command with
  | set bucket key value expiresAt =>
      rw [perform, FjallStore.eval_set]
      exact inv.put bucket key value expiresAt
  | delete bucket key =>
      rw [perform, FjallStore.eval_delete]
      exact inv.erase _
  | increment now bucket key op expiresAt =>
      rw [perform, FjallStore.eval_increment]
      split
      · exact inv
      · exact inv.put bucket key _ expiresAt
  | applyBatch bucket ops =>
      rw [perform, FjallStore.eval_applyBatch]
      exact inv.applyTxnOps bucket ops
  | sweep now => exact inv.sweep now

theorem run_indexed (commands : List StoreCommand) {store : Store} (inv : Indexed store) :
    Indexed (commands.foldl perform store) := by
  induction commands generalizing store with
  | nil => exact inv
  | cons command rest ih => exact ih (perform_indexed inv command)

end StoreCommand

/-- After every run from an empty store the index covers the data, and a sweep
removes exactly the expired entries and every index row that is due. -/
theorem expiry_index_covers_and_sweep_exact (commands : List StoreCommand) (now : OffsetDateTime) :
    let store := commands.foldl StoreCommand.perform Store.empty
    (forall (storageKey bytes : Bytes) (expiresUnix : Int64), store.data[storageKey]? = some bytes ->
      decodeEntryExpiresUnix bytes = .ok (some expiresUnix) ->
      store.expiry.contains (expiryIndexKey expiresUnix storageKey) = true) ∧
    (forall storageKey : Bytes, (store.sweep now).data[storageKey]? =
      match store.data[storageKey]? with
      | none => none
      | some bytes => if expiresBy now.unixTimestamp bytes then none else some bytes) ∧
    (forall row : Bytes, (store.sweep now).expiry.contains row = true ->
      Exists fun expiresUnix => Exists fun storageKey =>
        parseExpiryIndexKey row = some (expiresUnix, storageKey) ∧ now.unixTimestamp < expiresUnix) := by
  intro store
  have inv : Indexed store := StoreCommand.run_indexed commands Indexed.empty
  refine ⟨?_, ?_, ?_⟩
  · intro storageKey bytes expiresUnix present decoded
    rw [Keyspace.contains_eq_isSome]
    exact inv.row_of_entry present decoded
  · intro storageKey
    rw [inv.sweep_data now storageKey]
    cases store.data[storageKey]? with
    | none => rfl
    | some bytes => cases due : expiresBy now.unixTimestamp bytes <;> simp [Option.filter, due]
  · intro row left
    rw [Keyspace.contains_eq_isSome] at left
    rcases Option.isSome_iff_exists.mp left with ⟨value, present⟩
    rcases inv.sweep_expiry now present with ⟨expiresUnix, storageKey, nonempty, rfl, future⟩
    exact ⟨expiresUnix, storageKey, parseExpiryIndexKey_expiryIndexKey expiresUnix nonempty, future⟩

end Keydock
