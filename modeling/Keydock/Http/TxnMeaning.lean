import Keydock.Http.Authorization
import Keydock.Http.Sweeping

/-!
# The meaning of a transaction

A transaction is a second way to set and delete keys: its items are checked
first, staged with an encoding of their own and committed as one batch.  It
means the same as its items performed one after another with the operations for
single keys, and one item that cannot be performed, wherever it stands, keeps
all the others from taking effect.
-/

namespace Keydock

open Effect Handler Json

/-! ## Items -/

/-- The items of a request body, before any of them is read. -/
def txnTrees (platform : Platform) (body : Bytes) : Option (List Json) :=
  match (platform.json.fromSlice body).bind (fields false 1 ["txn"]) with
  | some [some (.arr trees)] => some trees
  | _ => none

/-- The operation that an item stands for.  The item has one of the two shapes,
its key and value are short enough, its time to live is in range and the
identity may perform it. -/
inductive StandsFor (state : AppState) (auth : BucketAuth) (now : OffsetDateTime) : Json -> TxnOp -> Prop
  | set {tree value : Json} {raw : String} {ttl : Option UInt64} {key : Key} {body : Bytes}
      {contentType : Option String} {stored : StoredValue} {expiresAt : Option OffsetDateTime}
      (shape : txnItemFromJson tree = some (.set raw value ttl)) (named : parsePercentEncodedKey raw = .ok key)
      (allowed : auth.requireWriteOn key = .ok ())
      (written : jsonValueToBody state.platform value = .ok (body, contentType))
      (inferred : KeyService.inferStoredValue state.platform body contentType = .ok stored)
      (resolved : KeyService.resolveTtl now ttl auth.defaultTtlSecs = .ok expiresAt) :
      StandsFor state auth now tree (.set key stored expiresAt)
  | delete {tree : Json} {raw : String} {key : Key} (shape : txnItemFromJson tree = some (.delete raw))
      (named : parsePercentEncodedKey raw = .ok key) (allowed : auth.requireDeleteOn key = .ok ()) :
      StandsFor state auth now tree (.delete key)

/-- An operation performed with the call for single keys. -/
def TxnOp.performAlone (bucket : BucketId) (store : Store) : TxnOp -> Store
  | .set key value expiresAt => (Adapter.eval (FjallStore.set bucket key value expiresAt) store).2
  | .delete key => (Adapter.eval (FjallStore.delete bucket key) store).2

theorem performAlone_eq (bucket : BucketId) : TxnOp.performAlone bucket = Store.applyTxnOp bucket := by
  funext store op
  cases op with
  | set key value expiresAt => rw [TxnOp.performAlone, FjallStore.eval_set, Store.applyTxnOp]
  | delete key => rw [TxnOp.performAlone, FjallStore.eval_delete, Store.applyTxnOp]

section Preparation

variable {state : AppState} {auth : BucketAuth} {clock : Clock}

theorem mapError_eq_ok {α ε δ : Type} {outcome : Except ε α} {convert : ε -> δ} {value : α} :
    outcome.mapError convert = .ok value ↔ outcome = .ok value := by
  constructor
  · exact eq_ok_of_mapError
  · rintro rfl
    rfl

/-- An item is accepted exactly as the operation it stands for. -/
theorem prepareItem_eq_ok {now : OffsetDateTime} {tree : Json} {op : TxnOp} :
    (Exists fun item => txnItemFromJson tree = some item ∧ prepareItem state now auth item = .ok op) ↔
      StandsFor state auth now tree op := by
  constructor
  · rintro ⟨item, shape, prepared⟩
    cases item with
    | set raw value ttl =>
        simp only [prepareItem, bind_eq_ok, mapError_eq_ok] at prepared
        rcases prepared with ⟨key, named, _, allowed, ⟨body, contentType⟩, written, stored, inferred, expiresAt, resolved,
          same⟩
        cases same
        exact .set shape named allowed written inferred resolved
    | delete raw =>
        simp only [prepareItem, bind_eq_ok] at prepared
        rcases prepared with ⟨key, named, _, allowed, same⟩
        cases same
        exact .delete shape named allowed
  · intro stands
    cases stands with
    | set shape named allowed written inferred resolved =>
        refine ⟨_, shape, ?_⟩
        simp only [prepareItem, bind_eq_ok, mapError_eq_ok]
        exact ⟨_, named, _, allowed, _, written, _, inferred, _, resolved, rfl⟩
    | delete shape named allowed =>
        refine ⟨_, shape, ?_⟩
        simp only [prepareItem, bind_eq_ok]
        exact ⟨_, named, _, allowed, rfl⟩

/-- The operations that the items stand for, each at its own reading of the
clock. -/
def AllStandFor (state : AppState) (auth : BucketAuth) (clock : Clock) (reading : Nat) (trees : List Json)
    (ops : List TxnOp) : Prop :=
  List.Forall₂ (fun item op => StandsFor state auth (clock item.2) item.1 op) (trees.zipIdx reading) ops

/-- A list is accepted exactly as the operations its items stand for. -/
theorem prepareItems_eq_ok {reading : Nat} {trees : List Json} {ops : List TxnOp} :
    (Exists fun items => trees.mapM txnItemFromJson = some items ∧
      prepareItems state clock auth reading items = .ok ops) ↔ AllStandFor state auth clock reading trees ops := by
  induction trees generalizing reading ops with
  | nil =>
      constructor
      · rintro ⟨items, read, prepared⟩
        cases read
        cases prepared
        exact .nil
      · intro stand
        cases stand
        exact ⟨[], rfl, rfl⟩
  | cons tree rest ih =>
      simp only [AllStandFor, List.zipIdx_cons] at ih ⊢
      constructor
      · rintro ⟨items, read, prepared⟩
        simp only [List.mapM_cons, Option.bind_eq_bind, Option.bind_eq_some_iff, Option.pure_def, Option.some.injEq]
          at read
        rcases read with ⟨item, shape, later, readLater, rfl⟩
        simp only [prepareItems, bind_eq_ok] at prepared
        rcases prepared with ⟨op, made, others, madeLater, same⟩
        cases same
        exact .cons (prepareItem_eq_ok.mp ⟨item, shape, made⟩) (ih.mp ⟨later, readLater, madeLater⟩)
      · intro stand
        cases stand with
        | cons first others =>
            rcases prepareItem_eq_ok.mpr first with ⟨item, shape, made⟩
            rcases ih.mpr others with ⟨later, readLater, madeLater⟩
            refine ⟨item :: later, ?_, ?_⟩
            · rw [List.mapM_cons, shape, readLater]
              rfl
            · simp only [prepareItems, bind_eq_ok]
              exact ⟨_, made, _, madeLater, rfl⟩

end Preparation

/-! ## Requests -/

/-- Reading a body is reading each of its items. -/
theorem txnRequest_eq (platform : Platform) (body : Bytes) :
    (platform.json.fromSlice body).bind txnRequestFromJson =
      (txnTrees platform body).bind (fun trees => trees.mapM txnItemFromJson) := by
  unfold txnTrees
  cases platform.json.fromSlice body with
  | none => rfl
  | some tree =>
      simp only [Option.bind_some, txnRequestFromJson]
      cases fields false 1 ["txn"] tree with
      | none => rfl
      | some found =>
          cases found with
          | nil => rfl
          | cons txn rest =>
              cases rest with
              | cons _ _ =>
                  cases txn with
                  | none => rfl
                  | some value => cases value <;> rfl
              | nil =>
                  cases txn with
                  | none => rfl
                  | some value => cases value <;> rfl

section Requests

variable {state : AppState} {request : BucketRequest} {store : Store} {auth : BucketAuth} {body : Bytes}

theorem perform_executeTxn (accepted : request.authenticated state store = .ok auth)
    (asked : request.route = .executeTxn (.ok body)) :
    (Request.bucket request).perform state store =
      (outcome (eval state.platform (executeTxn state request.clock auth (.ok body)) store).1,
        (eval state.platform (executeTxn state request.clock auth (.ok body)) store).2) := by
  rw [Request.perform_eq, Request.handler, BucketRequest.eval_handler, accepted, asked]
  rfl

/-- A transaction whose items stand for operations performs them in order. -/
theorem perform_of_allStandFor (accepted : request.authenticated state store = .ok auth)
    (asked : request.route = .executeTxn (.ok body)) {trees : List Json}
    (listed : txnTrees state.platform body = some trees) (nonempty : trees ≠ []) {ops : List TxnOp}
    (stand : AllStandFor state auth request.clock 1 trees ops) :
    (Request.bucket request).perform state store =
      (Response.ofStatus 204, ops.foldl (TxnOp.performAlone auth.bucketId) store) := by
  rcases prepareItems_eq_ok.mpr stand with ⟨items, read, prepared⟩
  have filled : items.isEmpty = false := by
    cases items with
    | nil =>
        cases ops with
        | nil =>
            cases trees with
            | nil => exact absurd rfl nonempty
            | cons tree rest => cases stand
        | cons op rest => cases prepared
    | cons item rest => rfl
  rw [perform_executeTxn accepted asked, eval_executeTxn, txnRequest_eq, listed, Option.bind_some, read,
    performAlone_eq]
  simp only [filled, Bool.false_eq_true, if_false, prepared]
  rfl

/-- A transaction that does not stand for a list of operations changes
nothing. -/
theorem perform_of_not_allStandFor (accepted : request.authenticated state store = .ok auth)
    (asked : request.route = .executeTxn (.ok body)) {trees : List Json}
    (listed : txnTrees state.platform body = some trees)
    (misfit : forall ops, ¬ AllStandFor state auth request.clock 1 trees ops) :
    ((Request.bucket request).perform state store).1.isSuccess = false ∧
      ((Request.bucket request).perform state store).2 = store := by
  rw [perform_executeTxn accepted asked, eval_executeTxn, txnRequest_eq, listed, Option.bind_some]
  cases read : trees.mapM txnItemFromJson with
  | none => exact ⟨rfl, rfl⟩
  | some items =>
      simp only
      by_cases empty : items.isEmpty = true
      · rw [if_pos empty]
        exact ⟨rfl, rfl⟩
      · rw [if_neg empty]
        cases prepared : prepareItems state request.clock auth 1 items with
        | error response => exact ⟨prepareItems_error prepared, rfl⟩
        | ok ops => exact absurd (prepareItems_eq_ok.mp ⟨items, read, prepared⟩) (misfit ops)

end Requests

/-- A transaction means its items in order, all or nothing.  When every item
stands for an operation, the store afterwards is the one that performing the
operations one by one leaves behind; when some item, at whatever position,
stands for none, the store is unchanged. -/
theorem txn_means_its_items (state : AppState) (request : BucketRequest) (store : Store) (auth : BucketAuth)
    (accepted : request.authenticated state store = .ok auth) (body : Bytes)
    (asked : request.route = .executeTxn (.ok body)) (trees : List Json)
    (listed : txnTrees state.platform body = some trees) (nonempty : trees ≠ []) :
    let after := (Request.bucket request).perform state store
    ((forall item, item ∈ trees.zipIdx 1 -> Exists fun op => StandsFor state auth (request.clock item.2) item.1 op) ->
      Exists fun ops => AllStandFor state auth request.clock 1 trees ops ∧
        after = (Response.ofStatus 204, ops.foldl (TxnOp.performAlone auth.bucketId) store)) ∧
    forall item, item ∈ trees.zipIdx 1 -> (forall op, ¬ StandsFor state auth (request.clock item.2) item.1 op) ->
      after.1.isSuccess = false ∧ after.2 = store := by
  intro after
  constructor
  · intro valid
    rcases exists_forall₂ valid with ⟨ops, stand⟩
    exact ⟨ops, stand, perform_of_allStandFor accepted asked listed nonempty stand⟩
  · intro item member misfit
    refine perform_of_not_allStandFor accepted asked listed ?_
    intro ops stand
    rcases exists_of_forall₂ stand member with ⟨op, _, stands⟩
    exact misfit op stands

namespace OrderedTxn

/-- A key is set, deleted and set again. -/
def trees : List Json :=
  [.obj [("set", .str "k"), ("value", .str "a"), ("ttl", .posInt 1)], .obj [("delete", .str "k")],
    .obj [("set", .str "k"), ("value", .str "b")]]

def body : Bytes :=
  Bytes.utf8 ("\x7b\"txn\":[\x7b\"set\":\"k\",\"value\":\"a\",\"ttl\":1\x7d,\x7b\"delete\":\"k\"\x7d," ++
    "\x7b\"set\":\"k\",\"value\":\"b\"\x7d]\x7d")

def state : AppState :=
  ⟨Platform.ofJson [(storedPolicyToJson ExpiredRemoval.policy, ExpiredRemoval.record),
    (.obj [("txn", .arr trees)], body)] (by decide +kernel) [], []⟩

/-- The store after the creation of a bucket without keys. -/
def store : Store := storeAfter state (ExpiredRemoval.history.take 1)

def request : BucketRequest := ExpiredRemoval.request ExpiredRemoval.start (.executeTxn (.ok body))

def auth : BucketAuth := BucketAuth.ofPolicy request.bucketId ExpiredRemoval.policy .anonymous

theorem accepted : request.authenticated state store = .ok auth := by
  have found : store.lookupPolicy state.platform request.bucketId = .ok (some ExpiredRemoval.policy) := by
    decide +kernel
  rw [BucketRequest.authenticated, found]
  rfl

end OrderedTxn

open OrderedTxn in
/-- All three operations take effect, in order. -/
theorem ordered_txn_performed :
    Exists fun ops => AllStandFor state auth request.clock 1 trees ops ∧
      (Request.bucket request).perform state store =
        (Response.ofStatus 204, ops.foldl (TxnOp.performAlone auth.bucketId) store) := by
  refine (txn_means_its_items state request store auth accepted body rfl trees (by decide +kernel)
    (List.cons_ne_nil _ _)).1 ?_
  intro item member
  simp only [trees, List.zipIdx_cons, List.zipIdx_nil, List.mem_cons, List.not_mem_nil, or_false] at member
  rcases member with rfl | rfl | rfl
  · exact ⟨_, prepareItem_eq_ok.mp ⟨.set "k" (.str "a") (some 1), rfl, rfl⟩⟩
  · exact ⟨_, prepareItem_eq_ok.mp ⟨.delete "k", rfl, rfl⟩⟩
  · exact ⟨_, prepareItem_eq_ok.mp ⟨.set "k" (.str "b") none, rfl, rfl⟩⟩

end Keydock
