import Keydock.Foundation.Progress
import Keydock.Fjall.Sweep
import Mathlib.Data.List.Sort

/-!
# Striped write locks

Writers serialize on stripes: the stripe of a storage key is a function of its
bytes, so distinct keys may share one.  A batch takes the stripes of all its
keys in ascending order, each once.

A call of the store is its list of stripes and its program.  The data entry of
a storage key and the index rows that name it are guarded by the same stripe,
and no program of the store touches anything outside its stripes.

Since every call takes its stripes in ascending order, no set of calls can wait
for one another in a circle.
-/

namespace Keydock

open Effect Adapter

/-- The number of stripes is fixed; which stripe a key has is left open. -/
abbrev Stripe := Fin 64

/-- Drop adjacent repetitions. -/
def dedup {α : Type} [DecidableEq α] : List α -> List α
  | first :: second :: rest =>
      if first = second then dedup (second :: rest) else first :: dedup (second :: rest)
  | short => short

def lockStripesForKeys (stripe : Bytes -> Stripe) (storageKeys : List Bytes) : List Stripe :=
  dedup ((storageKeys.map stripe).mergeSort (fun left right => left ≤ right))

theorem mem_dedup {α : Type} [DecidableEq α] (items : List α) (x : α) : x ∈ dedup items ↔ x ∈ items := by
  fun_induction dedup items with
  | case1 second rest ih => simp [ih]
  | case2 first second rest different ih => simp [ih]
  | case3 short other => rfl

theorem pairwise_dedup {items : List Stripe} (sorted : items.Pairwise (fun left right => left ≤ right)) :
    (dedup items).Pairwise (fun left right => left < right) := by
  fun_induction dedup items with
  | case1 second rest ih => exact ih (List.pairwise_cons.mp sorted).2
  | case2 first second rest different ih =>
      have parts := List.pairwise_cons.mp sorted
      refine List.pairwise_cons.mpr ⟨?_, ih parts.2⟩
      intro later member
      have listed := (mem_dedup (second :: rest) later).mp member
      have firstLess : first < second := lt_of_le_of_ne (parts.1 second List.mem_cons_self) different
      rcases List.mem_cons.mp listed with rfl | inside
      · exact firstLess
      · exact lt_of_lt_of_le firstLess ((List.pairwise_cons.mp parts.2).1 later inside)
  | case3 short other =>
      match short with
      | [] => exact List.Pairwise.nil
      | [_] => exact List.pairwise_singleton _ _
      | first :: second :: rest => exact False.elim (other first second rest rfl)

/-- The stripes of a batch are strictly ascending. -/
theorem lockStripesForKeys_ascending (stripe : Bytes -> Stripe) (storageKeys : List Bytes) :
    (lockStripesForKeys stripe storageKeys).Pairwise (fun left right => left < right) := by
  apply pairwise_dedup
  have sorted : ((storageKeys.map stripe).mergeSort (fun left right => left ≤ right)).Pairwise
      (fun left right => decide (left ≤ right) = true) :=
    List.pairwise_mergeSort
      (fun a b c first second => by simpa using le_trans (by simpa using first) (by simpa using second))
      (fun a b => by simpa using le_total a b) (storageKeys.map stripe)
  exact sorted.imp (fun ordered => by simpa using ordered)

theorem mem_lockStripesForKeys {stripe : Bytes -> Stripe} {storageKeys : List Bytes} {storageKey : Bytes}
    (member : storageKey ∈ storageKeys) : stripe storageKey ∈ lockStripesForKeys stripe storageKeys := by
  rw [lockStripesForKeys, mem_dedup, List.mem_mergeSort]
  exact List.mem_map.mpr ⟨storageKey, member, rfl⟩

/-! ## Calls -/

/-- A call of a write operation, or the body of the sweep for one index row. -/
inductive StoreCall
  | set (bucket : BucketId) (key : Key) (value : StoredValue) (expiresAt : Option OffsetDateTime)
  | delete (bucket : BucketId) (key : Key)
  | increment (now : OffsetDateTime) (bucket : BucketId) (key : Key) (op : CounterOp)
      (expiresAt : Option OffsetDateTime)
  | applyBatch (bucket : BucketId) (ops : List TxnOp)
  | sweepEntry (nowTs : Int64) (row : Row)

inductive StoreAnswer
  | set (outcome : Except UseCaseError Unit)
  | delete (outcome : Except UseCaseError Bool)
  | increment (outcome : Except UseCaseError StoredValue)
  | applyBatch (outcome : Except UseCaseError Unit)
  | sweepEntry (flow : Flow)

namespace StoreCall

/-- The storage keys whose stripes the call locks. -/
def storageKeys : StoreCall -> List Bytes
  | .set bucket key _ _ => [dataStorageKey bucket key]
  | .delete bucket key => [dataStorageKey bucket key]
  | .increment _ bucket key _ _ => [dataStorageKey bucket key]
  | .applyBatch bucket ops => ops.map (fun op => dataStorageKey bucket op.key)
  | .sweepEntry _ (.error _) => []
  | .sweepEntry nowTs (.ok (expiryKey, _)) =>
      match parseExpiryIndexKey expiryKey with
      | none => []
      | some (expiresUnix, storageKey) => if nowTs < expiresUnix then [] else [storageKey]

def body : StoreCall -> Program keyspaceOps StoreAnswer
  | .set bucket key value expiresAt => do
      return .set (<- (FjallStore.set bucket key value expiresAt).run)
  | .delete bucket key => do
      return .delete (<- (FjallStore.delete bucket key).run)
  | .increment now bucket key op expiresAt => do
      return .increment (<- (FjallStore.increment now bucket key op expiresAt).run)
  | .applyBatch bucket ops => do
      return .applyBatch (<- (FjallStore.applyBatch bucket ops).run)
  | .sweepEntry nowTs row => do
      return .sweepEntry (<- Keydock.sweepEntry nowTs row)

/-- The call with its stripes in the order in which they are taken. -/
def locked (stripe : Bytes -> Stripe) (call : StoreCall) : Call keyspaceOps Stripe StoreAnswer where
  locks := lockStripesForKeys stripe call.storageKeys
  nodup := (lockStripesForKeys_ascending stripe call.storageKeys).imp (fun less => ne_of_lt less)
  body := call.body

end StoreCall

/-! ## Absence of deadlock -/

/-- Whatever the stripes of the keys are and however the calls interleave: while
a call is unfinished some call can take a step, even without invoking a further
call, and no call waits for a stripe that it holds. -/
theorem striped_locks_progress {ι : Type} [DecidableEq ι] (stripe : Bytes -> Stripe) (calls : ι -> StoreCall)
    (start : Store) (schedule : List ι) (config : Config keyspaceOps Store ι Stripe StoreAnswer)
    (run : Config.execute storage (fun i => (calls i).locked stripe) (Config.initial start) schedule =
      some config) :
    (forall i, (forall answer, config.phase i ≠ .finished answer) -> Exists fun j =>
      (config.step storage (fun i => (calls i).locked stripe) j).isSome = true) ∧
    (forall i, (config.phase i).Pending -> Exists fun j => (config.phase j).Pending ∧
      (config.step storage (fun i => (calls i).locked stripe) j).isSome = true) ∧
    forall i lock todo, config.phase i = .acquiring (lock :: todo) -> config.owner lock ≠ some i := by
  have table := LockTable.execute run
  have pending : forall i, (config.phase i).Pending -> Exists fun j => (config.phase j).Pending ∧
      (config.step storage (fun i => (calls i).locked stripe) j).isSome = true :=
    fun i begun => table.progress (fun i => lockStripesForKeys_ascending stripe (calls i).storageKeys) begun
  refine ⟨?_, pending, fun i lock todo waiting => table.not_own waiting⟩
  intro i unfinished
  cases phase : config.phase i with
  | idle => exact ⟨i, by simp only [Config.step, phase, Option.isSome_some]⟩
  | finished answer => exact absurd phase (unfinished answer)
  | acquiring _ | running _ | releasing _ _ =>
      rcases pending i (by rw [phase]; trivial) with ⟨j, _, moves⟩
      exact ⟨j, moves⟩

namespace CrossedBatches

def bucket : BucketId := ⟨"b"⟩

def first : Key := ⟨[0x01], by decide⟩

def second : Key := ⟨[0x02], by decide⟩

/-- The stripe is given by the last byte. -/
def stripe (storageKey : Bytes) : Stripe := Fin.ofNat 64 (storageKey.getLastD 0).toNat

/-- Two batches name the same keys in opposite orders, one of them repeatedly. -/
def calls : Bool -> StoreCall
  | false => .applyBatch bucket [.delete first, .delete second]
  | true => .applyBatch bucket [.delete second, .delete first, .delete second]

theorem stripes (i : Bool) : ((calls i).locked stripe).locks = [1, 2] := by
  have merged : [(2 : Stripe), 1, 2].mergeSort (fun left right => left ≤ right) = [1, 2, 2] := by
    simp [List.mergeSort, List.MergeSort.Internal.splitInTwo]
  cases i with
  | false =>
      have sorted : [(1 : Stripe), 2].Pairwise (fun left right => decide (left ≤ right) = true) := by decide
      change dedup ([1, 2].mergeSort (fun left right => decide (left ≤ right))) = _
      rw [List.mergeSort_of_pairwise sorted]
      decide
  | true =>
      change dedup ([2, 1, 2].mergeSort (fun left right => decide (left ≤ right))) = _
      rw [merged]
      decide

/-- Both batches have begun and the first one has taken its lower stripe. -/
def config : Config keyspaceOps Store Bool Stripe StoreAnswer where
  shared := Store.empty
  owner := Function.update (fun _ => none) 1 (some false)
  phase := fun i => if i then .acquiring [1, 2] else .acquiring [2]
  entered := []

theorem reached : Config.execute storage (fun i => (calls i).locked stripe) (Config.initial Store.empty)
    [false, true, false] = some config := by
  have phases : Function.update (Function.update (Function.update (fun _ => Phase.idle) false (.acquiring [1, 2]))
      true (.acquiring [1, 2])) false (.acquiring [2]) = config.phase := by
    funext i
    cases i <;> rfl
  simp only [Config.execute, Config.step, Config.initial, Config.setPhase, stripes]
  simp [phases, config]

end CrossedBatches

open CrossedBatches in
/-- The second batch waits for the first, and the first can go on. -/
theorem crossed_batches_progress :
    config.step storage (fun i => (calls i).locked stripe) true = none ∧
      Exists fun j => (config.phase j).Pending ∧
        (config.step storage (fun i => (calls i).locked stripe) j).isSome = true := by
  constructor
  · simp [Config.step, config]
  · exact (striped_locks_progress stripe calls Store.empty [false, true, false] config reached).2.1 true trivial

end Keydock
