import Keydock.Fjall.Locks

/-!
# Writes are linearizable

Every location of the store has a guarding stripe: a data entry the stripe of
its storage key, an index row the stripe of the storage key it names.  The
programs of the store stay inside the stripes their calls hold, so the general
result on locked calls applies to any number of concurrent calls.

For a key that only integer increments touch, the sequential order yields the
sum of the acknowledged deltas, as long as no increment finds the entry
expired: an increment of an expired entry starts again from zero.
-/

namespace Keydock

open Effect Adapter

/-- A store is determined by the contents of its locations. -/
def storeMemory : Memory Store (Space × Bytes) (Option Bytes) where
  read store x := (store.space x.1)[x.2]?
  ext := by
    intro left right same
    have spaces : forall space, left.space space = right.space space := by
      intro space
      exact Std.ExtTreeMap.ext_getElem? (fun key => same (space, key))
    exact Store.ext (spaces .metadata) (spaces .data) (spaces .expiry)

/-- The stripe that guards a location. -/
def guardOf (stripe : Bytes -> Stripe) : Space × Bytes -> Stripe
  | (.expiry, row) => stripe (row.drop expiryKeyHeaderLen)
  | (_, storageKey) => stripe storageKey

theorem guardOf_expiryIndexKey (stripe : Bytes -> Stripe) (expiresUnix : Int64) (storageKey : Bytes) :
    guardOf stripe (.expiry, expiryIndexKey expiresUnix storageKey) = stripe storageKey := by
  have header : (encodeOrderedI64 expiresUnix).length = 8 := length_encodeOrderedI64 expiresUnix
  have tail : (expiryIndexKey expiresUnix storageKey).drop expiryKeyHeaderLen = storageKey := by
    rw [expiryIndexKey, show expiryKeyHeaderLen = (encodeOrderedI64 expiresUnix).length + 1 by
      rw [header]; rfl, List.drop_append]
    rfl
  simp only [guardOf, tail]

/-! ## Confinement of single operations -/

section Confinement

variable {region : Space × Bytes -> Prop}

theorem read_apply (write : BatchWrite) (store : Store) (x : Space × Bytes) :
    storeMemory.read (write.apply store) x =
      if (write.space, write.key) = x then
        match write with
        | .insert _ _ value => some value
        | .remove _ _ => none
      else storeMemory.read store x := by
  rcases x with ⟨space, key⟩
  cases write with
  | insert written name value =>
      simp only [storeMemory, BatchWrite.apply, BatchWrite.space, BatchWrite.key, Store.space_update, Prod.mk.injEq]
      by_cases sameSpace : written = space
      · simp only [sameSpace, if_true, true_and, Keyspace.get_insert]
      · simp only [sameSpace, if_false, false_and]
  | remove written name =>
      simp only [storeMemory, BatchWrite.apply, BatchWrite.space, BatchWrite.key, Store.space_update, Prod.mk.injEq]
      by_cases sameSpace : written = space
      · simp only [sameSpace, if_true, true_and, Keyspace.get_remove]
      · simp only [sameSpace, if_false, false_and]

theorem agree_apply {write : BatchWrite} {left right : Store}
    (agree : storeMemory.Agree region left right) :
    storeMemory.Agree region (write.apply left) (write.apply right) := by
  intro x inside
  rw [read_apply, read_apply]
  split
  · rfl
  · exact agree x inside

theorem confined_get {space : Space} {key : Bytes} (inside : region (space, key)) :
    storeMemory.ConfinedProgram storage region (Engine.get space key) :=
  ⟨⟨fun _ _ agree => congrArg Except.ok (agree _ inside), fun _ _ _ => rfl, fun _ _ agree => agree⟩,
    fun _ => trivial⟩

theorem confined_containsKey {space : Space} {key : Bytes} (inside : region (space, key)) :
    storeMemory.ConfinedProgram storage region (Engine.containsKey space key) := by
  refine ⟨⟨fun left right agree => ?_, fun _ _ _ => rfl, fun _ _ agree => agree⟩, fun _ => trivial⟩
  have same : (left.space space)[key]? = (right.space space)[key]? := agree _ inside
  change Except.ok ((left.space space).contains key) = Except.ok ((right.space space).contains key)
  rw [Keyspace.contains_eq_isSome, Keyspace.contains_eq_isSome, same]

theorem confined_commit {batch : List BatchWrite}
    (inside : forall write, write ∈ batch -> region (write.space, write.key)) :
    storeMemory.ConfinedProgram storage region (Engine.commit batch) := by
  refine ⟨⟨fun _ _ _ => rfl, fun state x outside => ?_, fun left right agree => ?_⟩, fun _ => trivial⟩
  · change storeMemory.read (batch.foldl BatchWrite.apply state) x = storeMemory.read state x
    induction batch generalizing state with
    | nil => rfl
    | cons write rest ih =>
        rw [List.foldl_cons, ih (fun later member => inside later (List.mem_cons_of_mem write member)), read_apply,
          if_neg (fun same : (write.space, write.key) = x => outside (same ▸ inside write List.mem_cons_self))]
  · change storeMemory.Agree region (batch.foldl BatchWrite.apply left) (batch.foldl BatchWrite.apply right)
    induction batch generalizing left right with
    | nil => exact agree
    | cons write rest ih =>
        exact ih (fun later member => inside later (List.mem_cons_of_mem write member)) _ _ (agree_apply agree)

theorem confined_write {write : BatchWrite} (inside : region (write.space, write.key)) :
    storeMemory.ConfinedProgram storage region (Engine.write write) := by
  refine ⟨⟨fun _ _ _ => rfl, fun state x outside => ?_, fun left right agree => agree_apply agree⟩,
    fun _ => trivial⟩
  change storeMemory.read (write.apply state) x = storeMemory.read state x
  rw [read_apply, if_neg (fun same : (write.space, write.key) = x => outside (same ▸ inside))]

theorem confined_backend {α : Type} {program : Program keyspaceOps (Except FjallError α)}
    (confined : storeMemory.ConfinedProgram storage region program) :
    storeMemory.ConfinedProgram storage region (backend program).run :=
  confined.bind (fun _ => trivial)

end Confinement

/-! ## Confinement of the store's programs -/

section Programs

variable {region : Space × Bytes -> Prop}

theorem confined_writeEntry {storageKey : Bytes} (data : region (.data, storageKey))
    (index : forall expiresUnix, region (.expiry, expiryIndexKey expiresUnix storageKey))
    (bytes : Bytes) (expiresAt : Option OffsetDateTime) :
    storeMemory.ConfinedProgram storage region (FjallStore.writeEntry storageKey bytes expiresAt).run := by
  cases expiresAt with
  | none => exact confined_backend (confined_write data)
  | some expiry =>
      refine confined_backend (confined_commit ?_)
      intro write member
      simp only [List.mem_cons, List.not_mem_nil, or_false] at member
      rcases member with rfl | rfl
      · exact data
      · exact index _

theorem confined_set {bucket : BucketId} {key : Key} (data : region (.data, dataStorageKey bucket key))
    (index : forall expiresUnix, region (.expiry, expiryIndexKey expiresUnix (dataStorageKey bucket key)))
    (value : StoredValue) (expiresAt : Option OffsetDateTime) :
    storeMemory.ConfinedProgram storage region (FjallStore.set bucket key value expiresAt).run :=
  Memory.ConfinedProgram.exceptBind trivial (fun bytes => confined_writeEntry data index bytes expiresAt)

theorem confined_delete {bucket : BucketId} {key : Key} (data : region (.data, dataStorageKey bucket key)) :
    storeMemory.ConfinedProgram storage region (FjallStore.delete bucket key).run := by
  refine Memory.ConfinedProgram.exceptBind (confined_backend (confined_containsKey data)) (fun existed => ?_)
  cases existed with
  | true => exact Memory.ConfinedProgram.exceptBind (confined_backend (confined_write data)) (fun _ => trivial)
  | false => exact trivial

theorem confined_increment {bucket : BucketId} {key : Key} (data : region (.data, dataStorageKey bucket key))
    (index : forall expiresUnix, region (.expiry, expiryIndexKey expiresUnix (dataStorageKey bucket key)))
    (now : OffsetDateTime) (op : CounterOp) (expiresAt : Option OffsetDateTime) :
    storeMemory.ConfinedProgram storage region (FjallStore.increment now bucket key op expiresAt).run := by
  refine Memory.ConfinedProgram.exceptBind (confined_backend (confined_get data)) (fun found => ?_)
  refine Memory.ConfinedProgram.exceptBind trivial (fun current => ?_)
  refine Memory.ConfinedProgram.exceptBind trivial (fun merged => ?_)
  refine Memory.ConfinedProgram.exceptBind trivial (fun stored => ?_)
  refine Memory.ConfinedProgram.exceptBind trivial (fun bytes => ?_)
  exact Memory.ConfinedProgram.exceptBind (confined_writeEntry data index bytes expiresAt) (fun _ => trivial)

theorem mapM_prepare {bucket : BucketId} {ops : List TxnOp} {items : List FjallStore.BatchItem}
    (mapped : ops.mapM (FjallStore.BatchItem.prepare bucket) = .ok items)
    {write : BatchWrite} (member : write ∈ items.flatMap FjallStore.BatchItem.writes) :
    Exists fun op => op ∈ ops ∧
      ((write.space, write.key) = (.data, dataStorageKey bucket op.key) ∨
        Exists fun expiresUnix =>
          (write.space, write.key) = (.expiry, expiryIndexKey expiresUnix (dataStorageKey bucket op.key))) := by
  induction ops generalizing items with
  | nil =>
      cases mapped
      cases member
  | cons op rest ih =>
      rw [List.mapM_cons] at mapped
      have head : Exists fun item => FjallStore.BatchItem.prepare bucket op = .ok item := by
        cases op <;> exact ⟨_, rfl⟩
      rcases head with ⟨item, made⟩
      rw [made] at mapped
      cases later : rest.mapM (FjallStore.BatchItem.prepare bucket) with
      | error error => rw [later] at mapped; cases mapped
      | ok others =>
          rw [later] at mapped
          cases mapped
          rw [List.flatMap_cons, List.mem_append] at member
          rcases member with here | there
          · refine ⟨op, List.mem_cons_self, ?_⟩
            cases op with
            | set key value expiresAt =>
                cases made
                cases expiresAt with
                | none =>
                    rw [List.mem_singleton.mp here]
                    exact Or.inl rfl
                | some expiry =>
                    simp only [FjallStore.BatchItem.writes, Option.map_some, Option.toList_some, List.mem_cons,
                      List.not_mem_nil, or_false] at here
                    rcases here with rfl | rfl
                    · exact Or.inl rfl
                    · exact Or.inr ⟨expiry.unixTimestamp, rfl⟩
            | delete key =>
                cases made
                rw [List.mem_singleton.mp here]
                exact Or.inl rfl
          · rcases ih later there with ⟨found, listed, shape⟩
            exact ⟨found, List.mem_cons_of_mem op listed, shape⟩

theorem confined_applyBatch {bucket : BucketId} {ops : List TxnOp}
    (data : forall op, op ∈ ops -> region (.data, dataStorageKey bucket op.key))
    (index : forall op expiresUnix, op ∈ ops ->
      region (.expiry, expiryIndexKey expiresUnix (dataStorageKey bucket op.key))) :
    storeMemory.ConfinedProgram storage region (FjallStore.applyBatch bucket ops).run := by
  unfold FjallStore.applyBatch
  split
  · exact trivial
  · cases mapped : ops.mapM (FjallStore.BatchItem.prepare bucket) with
    | error error => exact trivial
    | ok items =>
        refine confined_backend (confined_commit ?_)
        intro write member
        rcases mapM_prepare mapped member with ⟨op, listed, same | ⟨expiresUnix, same⟩⟩
        · rw [same]
          exact data op listed
        · rw [same]
          exact index op expiresUnix listed

theorem confined_sweepLocked {nowTs expiresUnix : Int64} {expiryKey storageKey : Bytes}
    (index : region (.expiry, expiryKey)) (data : region (.data, storageKey)) :
    storeMemory.ConfinedProgram storage region (sweepLocked nowTs expiresUnix expiryKey storageKey) := by
  refine (confined_write index).bind (fun removed => ?_)
  cases removed with
  | error error => exact trivial
  | ok _ =>
      refine (confined_get data).bind (fun found => ?_)
      rcases found with error | _ | bytes
      · exact trivial
      · exact trivial
      · simp only
        rcases decodeEntryExpiresUnix bytes with error | _ | actual
        · exact trivial
        · exact trivial
        · simp only
          split
          · exact trivial
          · split
            · exact trivial
            · exact (confined_write data).bind (fun _ => trivial)

end Programs

/-! ## Every call stays inside its stripes -/

theorem disciplined {ι : Type} (stripe : Bytes -> Stripe) (calls : ι -> StoreCall) :
    Disciplined storeMemory storage (guardOf stripe) (fun i => (calls i).locked stripe) := by
  intro i
  have data : forall storageKey, storageKey ∈ (calls i).storageKeys ->
      ((calls i).locked stripe).region (guardOf stripe) (.data, storageKey) :=
    fun storageKey member => mem_lockStripesForKeys member
  have index : forall storageKey expiresUnix, storageKey ∈ (calls i).storageKeys ->
      ((calls i).locked stripe).region (guardOf stripe) (.expiry, expiryIndexKey expiresUnix storageKey) := by
    intro storageKey expiresUnix member
    unfold Call.region
    rw [guardOf_expiryIndexKey]
    exact mem_lockStripesForKeys member
  generalize ((calls i).locked stripe).region (guardOf stripe) = region at data index
  change storeMemory.ConfinedProgram storage region (calls i).body
  cases call : calls i with
  | set bucket key value expiresAt =>
      rw [call] at data index
      exact (confined_set (data _ List.mem_cons_self) (fun t => index _ t List.mem_cons_self) value
        expiresAt).bind (fun _ => trivial)
  | delete bucket key =>
      rw [call] at data
      exact (confined_delete (data _ List.mem_cons_self)).bind (fun _ => trivial)
  | increment now bucket key op expiresAt =>
      rw [call] at data index
      exact (confined_increment (data _ List.mem_cons_self) (fun t => index _ t List.mem_cons_self) now op
        expiresAt).bind (fun _ => trivial)
  | applyBatch bucket ops =>
      rw [call] at data index
      have listed : forall op, op ∈ ops ->
          dataStorageKey bucket op.key ∈ (StoreCall.applyBatch bucket ops).storageKeys :=
        fun op member => List.mem_map.mpr ⟨op, member, rfl⟩
      exact (confined_applyBatch (fun op member => data _ (listed op member))
        (fun op t member => index _ t (listed op member))).bind (fun _ => trivial)
  | sweepEntry nowTs row =>
      rw [call] at data index
      refine Memory.ConfinedProgram.bind ?_ (fun _ => trivial)
      rcases row with error | ⟨expiryKey, value⟩
      · exact trivial
      · simp only [sweepEntry]
        simp only [StoreCall.storageKeys] at data index
        cases parsed : parseExpiryIndexKey expiryKey with
        | none => exact trivial
        | some parts =>
            rcases parts with ⟨expiresUnix, storageKey⟩
            simp only
            split
            next => exact trivial
            next due =>
              simp only [parsed, if_neg due] at data index
              have shape := (expiryIndexKey_of_parse parsed).1
              have row := index storageKey expiresUnix List.mem_cons_self
              rw [← shape] at row
              exact (confined_sweepLocked row (data storageKey List.mem_cons_self)).bind (fun _ => trivial)

end Keydock
