import Keydock.Fjall.Store

/-!
# The repository operations

The bucket and key operations of the store as programs, and their closed
forms when no backend call fails.  All writes of a key go through `Store.put`
and `Store.erase`.
-/

namespace Keydock

open Effect Adapter

namespace FjallStore

/-! ## Buckets -/

def getPolicy (platform : Platform) (bucket : BucketId) : Adapter (Option BucketPolicy) := do
  match <- get .metadata (Bytes.utf8 bucket.asStr) with
  | some bytes =>
      let policy <- known (decodePolicy platform bytes)
      return some policy
  | none => return none

def createBucket (platform : Platform) (id : BucketId) (policy : BucketPolicy) : Adapter Unit := do
  let bytes <- known (encodePolicy platform policy)
  insert .metadata (Bytes.utf8 id.asStr) bytes

def deleteBucket (id : BucketId) : Adapter Unit :=
  remove .metadata (Bytes.utf8 id.asStr)

/-! ## Keys -/

def get (bucket : BucketId) (key : Key) : Adapter (Option StoredEntry) := do
  match <- Adapter.get .data (dataStorageKey bucket key) with
  | none => return none
  | some bytes =>
      let entry <- codec (decodeEntry bytes)
      return some entry

/-- Store encoded bytes; with an expiry, the index row is part of the batch. -/
def writeEntry (storageKey bytes : Bytes) (expiresAt : Option OffsetDateTime) : Adapter Unit :=
  match expiresAt with
  | some expiry =>
      commit [.insert .data storageKey bytes,
        .insert .expiry (expiryIndexKey expiry.unixTimestamp storageKey) []]
  | none => insert .data storageKey bytes

def set (bucket : BucketId) (key : Key) (value : StoredValue) (expiresAt : Option OffsetDateTime) :
    Adapter Unit := do
  let bytes <- codec (encodeEntry value expiresAt)
  writeEntry (dataStorageKey bucket key) bytes expiresAt

def delete (bucket : BucketId) (key : Key) : Adapter Bool := do
  let existed <- containsKey .data (dataStorageKey bucket key)
  if existed then
    remove .data (dataStorageKey bucket key)
  return existed

/-- The counter operand found under a storage key.  A missing or expired entry
counts as the integer zero. -/
def currentValue (now : OffsetDateTime) : Option Bytes -> Except UseCaseError CounterValue
  | none => .ok (.int 0)
  | some bytes =>
      match decodeEntry bytes with
      | .error error => .error error.toUseCaseError
      | .ok entry =>
          if entry.expiredAt now then .ok (.int 0)
          else (CounterValue.fromStored entry.value).mapError UseCaseError.domain

def increment (now : OffsetDateTime) (bucket : BucketId) (key : Key) (op : CounterOp)
    (expiresAt : Option OffsetDateTime) : Adapter StoredValue := do
  let found <- Adapter.get .data (dataStorageKey bucket key)
  let current <- known (currentValue now found)
  let merged <- domain (op.apply current)
  let stored <- domain merged.intoStored
  let bytes <- codec (encodeEntry stored expiresAt)
  writeEntry (dataStorageKey bucket key) bytes expiresAt
  return stored

/-! ## Batches -/

/-- A prepared operation of a batch. -/
inductive BatchItem
  | set (storageKey bytes : Bytes) (index : Option Bytes)
  | delete (storageKey : Bytes)

namespace BatchItem

def storageKey : BatchItem -> Bytes
  | .set storageKey _ _ => storageKey
  | .delete storageKey => storageKey

def prepare (bucket : BucketId) : TxnOp -> Except FjallError BatchItem
  | .set key value expiresAt => do
      let storageKey := dataStorageKey bucket key
      let index := expiresAt.map (fun expiry => expiryIndexKey expiry.unixTimestamp storageKey)
      let bytes <- encodeEntry value expiresAt
      return .set storageKey bytes index
  | .delete key => return .delete (dataStorageKey bucket key)

def writes : BatchItem -> List BatchWrite
  | .set storageKey bytes index =>
      .insert .data storageKey bytes :: (index.map (fun row => BatchWrite.insert .expiry row [])).toList
  | .delete storageKey => [.remove .data storageKey]

end BatchItem

def applyBatch (bucket : BucketId) (ops : List TxnOp) : Adapter Unit := do
  if ops.isEmpty then
    return ()
  let items <- codec (ops.mapM (BatchItem.prepare bucket))
  commit (items.flatMap BatchItem.writes)

end FjallStore

/-! ## Closed forms -/

namespace Store

/-- Store a value under a storage key, with its index row. -/
def put (store : Store) (storageKey : Bytes) (value : StoredValue)
    (expiresAt : Option OffsetDateTime) : Store where
  metadata := store.metadata
  data := store.data.insert storageKey (entryBytes value expiresAt)
  expiry := match expiresAt with
    | none => store.expiry
    | some expiry => store.expiry.insert (expiryIndexKey expiry.unixTimestamp storageKey) []

/-- Remove the entry under a storage key.  Its index row stays. -/
def erase (store : Store) (storageKey : Bytes) : Store :=
  { store with data := store.data.erase storageKey }

def applyTxnOp (bucket : BucketId) (store : Store) : TxnOp -> Store
  | .set key value expiresAt => store.put (dataStorageKey bucket key) value expiresAt
  | .delete key => store.erase (dataStorageKey bucket key)

/-- The policy a bucket has; `none` also when its record does not decode. -/
def policy (platform : Platform) (store : Store) (bucket : BucketId) : Option BucketPolicy :=
  match store.metadata[Bytes.utf8 bucket.asStr]? with
  | none => none
  | some bytes => (decodePolicy platform bytes).toOption

theorem erase_of_missing {store : Store} {storageKey : Bytes} (missing : store.data[storageKey]? = none) :
    store.erase storageKey = store := by
  have same : store.data.erase storageKey = store.data := by
    apply Std.ExtTreeMap.ext_getElem?
    intro other
    rw [Keyspace.get_remove]
    split
    next equal => rw [← equal, missing]
    next => rfl
  unfold erase
  rw [same]

end Store

/-- What an increment computes from the bytes found and the delta. -/
def mergedValue (now : OffsetDateTime) (found : Option Bytes) (op : CounterOp) :
    Except UseCaseError StoredValue :=
  match FjallStore.currentValue now found with
  | .error error => .error error
  | .ok current =>
      match op.apply current with
      | .error error => .error (.domain error)
      | .ok merged => merged.intoStored.mapError UseCaseError.domain

namespace FjallStore

variable (store : Store)

theorem eval_getPolicy (platform : Platform) (bucket : BucketId) :
    eval (getPolicy platform bucket) store =
      match store.metadata[Bytes.utf8 bucket.asStr]? with
      | none => (.ok none, store)
      | some bytes => ((decodePolicy platform bytes).map some, store) := by
  simp only [getPolicy, eval_bind, eval_get, Store.space]
  cases store.metadata[Bytes.utf8 bucket.asStr]? with
  | none => rfl
  | some bytes =>
      simp only [eval_bind]
      cases decoded : decodePolicy platform bytes <;> rfl

theorem eval_createBucket (platform : Platform) (id : BucketId) (policy : BucketPolicy) :
    eval (createBucket platform id policy) store =
      match encodePolicy platform policy with
      | .error error => (.error error, store)
      | .ok bytes => (.ok (), { store with metadata := store.metadata.insert (Bytes.utf8 id.asStr) bytes }) := by
  simp only [createBucket, eval_bind]
  cases encoded : encodePolicy platform policy <;> rfl

theorem eval_deleteBucket (id : BucketId) :
    eval (deleteBucket id) store =
      (.ok (), { store with metadata := store.metadata.erase (Bytes.utf8 id.asStr) }) := rfl

theorem eval_get (bucket : BucketId) (key : Key) :
    eval (get bucket key) store =
      match store.data[dataStorageKey bucket key]? with
      | none => (.ok none, store)
      | some bytes => ((decodeEntry bytes).mapError FjallError.toUseCaseError |>.map some, store) := by
  simp only [get, eval_bind, Adapter.eval_get, Store.space]
  cases store.data[dataStorageKey bucket key]? with
  | none => rfl
  | some bytes =>
      simp only [eval_bind, eval_codec]
      cases decodeEntry bytes <;> rfl

theorem eval_writeEntry (storageKey : Bytes) (value : StoredValue) (expiresAt : Option OffsetDateTime) :
    eval (writeEntry storageKey (entryBytes value expiresAt) expiresAt) store =
      (.ok (), store.put storageKey value expiresAt) := by
  cases expiresAt <;> rfl

theorem eval_set (bucket : BucketId) (key : Key) (value : StoredValue)
    (expiresAt : Option OffsetDateTime) :
    eval (set bucket key value expiresAt) store =
      (.ok (), store.put (dataStorageKey bucket key) value expiresAt) := by
  simp only [set, eval_bind, eval_codec, encodeEntry_eq, Except.mapError, eval_writeEntry]

theorem eval_delete (bucket : BucketId) (key : Key) :
    eval (delete bucket key) store =
      (.ok (store.data[dataStorageKey bucket key]?).isSome, store.erase (dataStorageKey bucket key)) := by
  simp only [delete, eval_bind, eval_containsKey, Store.space, Keyspace.contains_eq_isSome]
  cases found : store.data[dataStorageKey bucket key]? with
  | none =>
      rw [Store.erase_of_missing found]
      rfl
  | some bytes => rfl

theorem eval_increment (now : OffsetDateTime) (bucket : BucketId) (key : Key) (op : CounterOp)
    (expiresAt : Option OffsetDateTime) :
    eval (increment now bucket key op expiresAt) store =
      match mergedValue now store.data[dataStorageKey bucket key]? op with
      | .error error => (.error error, store)
      | .ok stored => (.ok stored, store.put (dataStorageKey bucket key) stored expiresAt) := by
  simp only [increment, eval_bind, Adapter.eval_get, Store.space, eval_known, mergedValue]
  cases currentValue now store.data[dataStorageKey bucket key]? with
  | error error => rfl
  | ok current =>
      simp only [eval_domain]
      cases op.apply current with
      | error error => rfl
      | ok merged =>
          simp only [Except.mapError]
          cases merged.intoStored with
          | error error => rfl
          | ok stored =>
              simp only [eval_codec, encodeEntry_eq, Except.mapError, eval_writeEntry]
              rfl

/-- A commit applies the operations of a batch in order. -/
theorem eval_applyBatch (bucket : BucketId) (ops : List TxnOp) :
    eval (applyBatch bucket ops) store = (.ok (), ops.foldl (Store.applyTxnOp bucket) store) := by
  have prepared : forall ops : List TxnOp, Exists fun items : List BatchItem =>
      ops.mapM (BatchItem.prepare bucket) = .ok items ∧
        forall store : Store, (items.flatMap BatchItem.writes).foldl BatchWrite.apply store =
          ops.foldl (Store.applyTxnOp bucket) store := by
    intro ops
    induction ops with
    | nil => exact ⟨[], rfl, fun _ => rfl⟩
    | cons op rest ih =>
        rcases ih with ⟨items, mapped, folded⟩
        have head : Exists fun item : BatchItem => BatchItem.prepare bucket op = .ok item ∧
            forall store : Store, item.writes.foldl BatchWrite.apply store =
              Store.applyTxnOp bucket store op := by
          cases op with
          | set key value expiresAt =>
              refine ⟨_, rfl, fun store => ?_⟩
              cases expiresAt <;> rfl
          | delete key => exact ⟨_, rfl, fun _ => rfl⟩
        rcases head with ⟨item, made, applied⟩
        refine ⟨item :: items, ?_, fun store => ?_⟩
        · rw [List.mapM_cons, made, mapped]
          rfl
        · rw [List.flatMap_cons, List.foldl_append, applied, folded, List.foldl_cons]
  rcases prepared ops with ⟨items, mapped, folded⟩
  unfold applyBatch
  cases ops with
  | nil => rfl
  | cons op rest =>
      simp only [List.isEmpty_cons, Bool.false_eq_true, if_false, eval_bind, eval_codec, mapped,
        Except.mapError, eval_commit, folded]

end FjallStore
end Keydock
