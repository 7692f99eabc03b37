import Keydock.Http.Server

/-!
# What a request may do to the store

Every storage call of the use cases has a closed form.  From these follows the
shape of all transitions: a request leaves the store as it is, or it succeeds
and made one change that the resolved identity is allowed to make.
-/

namespace Keydock

open Effect Handler

/-! ## Closed forms of the use cases -/

/-- The entry a read finds: missing and expired entries are not found. -/
def Store.liveEntry (store : Store) (now : OffsetDateTime) (bucket : BucketId) (key : Key) :
    Except UseCaseError StoredEntry :=
  match store.data[dataStorageKey bucket key]? with
  | none => .error .notFound
  | some bytes =>
      match decodeEntry bytes with
      | .error error => .error error.toUseCaseError
      | .ok entry => if entry.expiredAt now then .error .notFound else .ok entry

/-- Replace the stored record of a bucket. -/
def Store.writePolicy (store : Store) (bucket : BucketId) (bytes : Bytes) : Store :=
  { store with metadata := store.metadata.insert (Bytes.utf8 bucket.asStr) bytes }

/-- Remove the stored record of a bucket.  Its keys stay. -/
def Store.dropPolicy (store : Store) (bucket : BucketId) : Store :=
  { store with metadata := store.metadata.erase (Bytes.utf8 bucket.asStr) }

namespace Task

variable (platform : Platform) (store : Store)

theorem eval_createBucket (id : BucketId) (policy : BucketPolicy) :
    eval platform (Repo.createBucket id policy) store =
      match encodePolicy platform policy with
      | .error error => (.error (.useCase error), store)
      | .ok bytes => (.ok (), store.writePolicy id bytes) := by
  have served : eval platform (Repo.createBucket id policy) store =
      joined (Adapter.eval (FjallStore.createBucket platform id policy) store) := rfl
  rw [served, FjallStore.eval_createBucket]
  cases encodePolicy platform policy <;> rfl

theorem eval_deleteBucket (id : BucketId) :
    eval platform (Repo.deleteBucket id) store = (.ok (), store.dropPolicy id) := rfl

theorem eval_applyBatch (bucket : BucketId) (ops : List TxnOp) :
    eval platform (Repo.applyBatch bucket ops) store = (.ok (), ops.foldl (Store.applyTxnOp bucket) store) := by
  have served : eval platform (Repo.applyBatch bucket ops) store =
      joined (Adapter.eval (FjallStore.applyBatch bucket ops) store) := rfl
  rw [served, FjallStore.eval_applyBatch]
  rfl

theorem eval_get (now : OffsetDateTime) (bucket : BucketId) (key : Key) :
    eval platform (KeyService.get now bucket key) store =
      ((store.liveEntry now bucket key).mapError TaskError.useCase, store) := by
  have served : eval platform (Repo.get bucket key) store =
      joined (Adapter.eval (FjallStore.get bucket key) store) := rfl
  rw [KeyService.get, eval_bind, served, FjallStore.eval_get, Store.liveEntry]
  cases store.data[dataStorageKey bucket key]? with
  | none => rfl
  | some bytes =>
      cases decoded : decodeEntry bytes with
      | error error =>
          simp only [decoded]
          rfl
      | ok entry =>
          simp only [decoded, Except.mapError, Except.map, joined]
          by_cases expired : entry.expiredAt now = true
          · rw [if_pos expired, if_pos expired]
            rfl
          · rw [if_neg expired, if_neg expired]
            rfl

theorem eval_list (now : OffsetDateTime) (bucket : BucketId) (input : ListOptsInput) :
    eval platform (KeyService.list now bucket input) store =
      (FjallStore.listRows platform bucket (KeyService.listOpts now input)
        ((store.data.scan (dataKeyPrefix bucket input.keyPrefix)).map .ok), store) := rfl

theorem eval_set (now : OffsetDateTime) (bucket : BucketId) (key : Key) (body : Bytes)
    (contentType : Option String) (ttlOverride defaultTtl : Option UInt64) :
    eval platform (KeyService.set platform now bucket key body contentType ttlOverride defaultTtl) store =
      match KeyService.inferStoredValue platform body contentType with
      | .error error => (.error (.useCase error), store)
      | .ok value =>
          match KeyService.resolveTtl now ttlOverride defaultTtl with
          | .error error => (.error (.useCase error), store)
          | .ok expiresAt => (.ok value, store.put (dataStorageKey bucket key) value expiresAt) := by
  have served : forall value expiresAt, eval platform (Repo.set bucket key value expiresAt) store =
      joined (Adapter.eval (FjallStore.set bucket key value expiresAt) store) := fun _ _ => rfl
  simp only [KeyService.set, eval_bind, eval_known]
  cases KeyService.inferStoredValue platform body contentType with
  | error error => rfl
  | ok value =>
      cases KeyService.resolveTtl now ttlOverride defaultTtl with
      | error error => rfl
      | ok expiresAt =>
          simp only [Except.mapError, served, FjallStore.eval_set]
          rfl

theorem eval_increment (now storeNow : OffsetDateTime) (bucket : BucketId) (key : Key) (op : CounterOp)
    (ttlOverride defaultTtl : Option UInt64) :
    eval platform (KeyService.increment now storeNow bucket key op ttlOverride defaultTtl) store =
      match KeyService.resolveTtl now ttlOverride defaultTtl with
      | .error error => (.error (.useCase error), store)
      | .ok expiresAt =>
          match mergedValue storeNow store.data[dataStorageKey bucket key]? op with
          | .error error => (.error (.useCase error), store)
          | .ok stored => (.ok stored, store.put (dataStorageKey bucket key) stored expiresAt) := by
  have served : forall expiresAt, eval platform (Repo.increment storeNow bucket key op expiresAt) store =
      joined (Adapter.eval (FjallStore.increment storeNow bucket key op expiresAt) store) := fun _ => rfl
  simp only [KeyService.increment, eval_bind, eval_known]
  cases KeyService.resolveTtl now ttlOverride defaultTtl with
  | error error => rfl
  | ok expiresAt =>
      simp only [Except.mapError, served, FjallStore.eval_increment]
      cases mergedValue storeNow store.data[dataStorageKey bucket key]? op <;> rfl

theorem eval_delete (bucket : BucketId) (key : Key) :
    eval platform (KeyService.delete bucket key) store =
      match store.data[dataStorageKey bucket key]? with
      | none => (.error (.useCase .notFound), store)
      | some _ => (.ok (), store.erase (dataStorageKey bucket key)) := by
  have served : eval platform (Repo.delete bucket key) store =
      joined (Adapter.eval (FjallStore.delete bucket key) store) := rfl
  rw [KeyService.delete, eval_bind, served, FjallStore.eval_delete]
  cases found : store.data[dataStorageKey bucket key]? with
  | none =>
      rw [Store.erase_of_missing found]
      rfl
  | some bytes => rfl

end Task

/-! ## Checks before effects -/

namespace Handler

variable {α β : Type} {platform : Platform} {store : Store}

/-- The handler ends early without a change, or succeeds as stated. -/
abbrev Guards (platform : Platform) (handler : Handler α) (store : Store) (post : α -> Store -> Prop) : Prop :=
  (service platform).Guards handler store post

theorem guards_pure {post : α -> Store -> Prop} {value : α} (holds : post value store) :
    Guards platform (pure value) store post := holds

theorem guards_known {post : α -> Store -> Prop} {outcome : Except Response α}
    (holds : forall value, outcome = .ok value -> post value store) :
    Guards platform (known outcome) store post := by
  cases outcome with
  | error response => exact rfl
  | ok value => exact holds value rfl

/-- A check passes its value on. -/
theorem guards_check {post : β -> Store -> Prop} {outcome : Except Response α} {next : α -> Handler β}
    (rest : forall value, outcome = .ok value -> Guards platform (next value) store post) :
    Guards platform (known outcome >>= next) store post :=
  Semantics.Guards.bind _ (guards_known (fun value passed => ⟨rfl, rest value passed⟩))

theorem guards_orReject {post : β -> Store -> Prop} {response : Response} {found : Option α}
    {next : α -> Handler β} (rest : forall value, found = some value -> Guards platform (next value) store post) :
    Guards platform (orReject response found >>= next) store post := by
  cases found with
  | none => exact rfl
  | some value => exact rest value rfl

/-- A task that reads may precede the rest. -/
theorem guards_read {post : β -> Store -> Prop} {task : Task α} {next : α -> Handler β}
    (reads : (task.eval platform store).2 = store)
    (rest : forall value, (task.eval platform store).1 = .ok value -> Guards platform (next value) store post) :
    Guards platform (spawnUsecase task >>= next) store post := by
  apply Semantics.Guards.bind
  have spawned := eval_spawnUsecase platform task store
  unfold eval at spawned
  unfold Semantics.Guards
  rw [spawned, reads]
  cases outcome : (task.eval platform store).1 with
  | error error => exact rfl
  | ok value => exact ⟨rfl, rest value outcome⟩

/-- A task that writes comes last; the response is a function of its result. -/
theorem guards_write {post : β -> Store -> Prop} {task : Task α} {answer : α -> β}
    (writes : (service platform).Guards task store (fun value after => post (answer value) after)) :
    Guards platform (spawnUsecase task >>= fun value => pure (answer value)) store post := by
  have spawned := eval_spawnUsecase platform task store
  have bound := eval_bind platform (spawnUsecase task) (fun value => pure (answer value)) store
  unfold Task.eval at spawned
  unfold eval at spawned bound
  unfold Handler.Guards Semantics.Guards
  unfold Semantics.Guards at writes
  rw [bound, spawned]
  generalize (service platform).run task.run store = ended at writes ⊢
  rcases ended with ⟨outcome, after⟩
  cases outcome with
  | error error => exact writes
  | ok value => exact writes

end Handler

/-! ## Outcomes in sequence -/

theorem bind_eq_ok {α β ε : Type} {outcome : Except ε α} {next : α -> Except ε β} {value : β} :
    (outcome >>= next) = .ok value ↔ Exists fun first => outcome = .ok first ∧ next first = .ok value := by
  cases outcome with
  | error error =>
      constructor
      · intro impossible
        cases impossible
      · rintro ⟨_, impossible, _⟩
        cases impossible
  | ok first =>
      constructor
      · intro rest
        exact ⟨first, rfl, rest⟩
      · rintro ⟨_, same, rest⟩
        cases same
        exact rest

theorem eq_ok_of_mapError {α ε δ : Type} {outcome : Except ε α} {convert : ε -> δ} {value : α}
    (succeeded : outcome.mapError convert = .ok value) : outcome = .ok value := by
  cases outcome with
  | error error => cases succeeded
  | ok found =>
      cases succeeded
      rfl

theorem mapM_eq_ok {α β ε : Type} {step : α -> Except ε β} {items : List α} {values : List β} :
    items.mapM step = .ok values ↔ List.Forall₂ (fun item value => step item = .ok value) items values := by
  induction items generalizing values with
  | nil =>
      constructor
      · intro done
        cases done
        exact .nil
      · intro none
        cases none
        rfl
  | cons item rest ih =>
      simp only [List.mapM_cons, bind_eq_ok]
      constructor
      · rintro ⟨value, first, others, later, same⟩
        cases same
        exact .cons first (ih.mp later)
      · intro each
        cases each with
        | cons first others => exact ⟨_, first, _, ih.mpr others, rfl⟩

theorem exists_forall₂ {α β : Type} {related : α -> β -> Prop} {items : List α}
    (each : forall item, item ∈ items -> Exists fun value => related item value) :
    Exists fun values => List.Forall₂ related items values := by
  induction items with
  | nil => exact ⟨[], .nil⟩
  | cons item rest ih =>
      rcases each item List.mem_cons_self with ⟨value, first⟩
      rcases ih (fun other member => each other (List.mem_cons_of_mem item member)) with ⟨values, others⟩
      exact ⟨value :: values, .cons first others⟩

theorem exists_of_forall₂ {α β : Type} {related : α -> β -> Prop} {items : List α} {values : List β}
    (pairs : List.Forall₂ related items values) {item : α} (member : item ∈ items) :
    Exists fun value => value ∈ values ∧ related item value := by
  induction pairs with
  | nil => cases member
  | cons first _ ih =>
      rcases List.mem_cons.mp member with rfl | later
      · exact ⟨_, List.mem_cons_self, first⟩
      · rcases ih later with ⟨value, inside, holds⟩
        exact ⟨value, List.mem_cons_of_mem _ inside, holds⟩

/-! ## The changes a request can make -/

/-- A change an identity may make: a batch of operations it may perform, or,
for an administrator, patching or removing the record of the bucket.  A single
write, an increment and a removal are batches of one operation. -/
inductive Permitted (state : AppState) (auth : BucketAuth) (store : Store) : Store -> Prop
  | batch (ops : List TxnOp) (allowed : forall op, op ∈ ops -> op.Allowed auth) :
      Permitted state auth store (ops.foldl (Store.applyTxnOp auth.bucketId) store)
  | writePolicy {patch : UpdatePolicyJson} {policy patched : BucketPolicy} {bytes : Bytes}
      (admin : auth.identity = .admin)
      (found : store.lookupPolicy state.platform auth.bucketId = .ok (some policy))
      (applied : patchedPolicy state patch policy = .ok patched)
      (encoded : encodePolicy state.platform patched = .ok bytes) :
      Permitted state auth store (store.writePolicy auth.bucketId bytes)
  | dropPolicy (admin : auth.identity = .admin) :
      Permitted state auth store (store.dropPolicy auth.bucketId)

namespace Permitted

variable {state : AppState} {auth : BucketAuth} {store : Store}

theorem unchanged : Permitted state auth store store :=
  batch [] (fun _ member => by cases member)

theorem single (op : TxnOp) (allowed : op.Allowed auth) :
    Permitted state auth store (Store.applyTxnOp auth.bucketId store op) :=
  batch [op] (fun other member => by
    rw [List.mem_singleton] at member
    exact member ▸ allowed)

end Permitted

/-- The response is a success and the change is permitted. -/
def Effected (state : AppState) (auth : BucketAuth) (store : Store) (response : Response) (after : Store) : Prop :=
  response.isSuccess = true ∧ Permitted state auth store after

/-- What a route does to the store when it succeeds. -/
inductive RouteEffect (state : AppState) (clock : Clock) (auth : BucketAuth) (store : Store) : Route -> Store -> Prop
  | read {route : Route} : RouteEffect state clock auth store route store
  | put {segment : Segment} {ttl : Except Response (Option UInt64)} {contentType : Option Bytes} {body : Bytes}
      {key : Key} {value : StoredValue} {expiresAt : Option OffsetDateTime}
      (allowed : auth.requireWriteOn key = .ok ())
      (inferred : KeyService.inferStoredValue state.platform body ((contentType.bind headerToStr).map String.ofList) =
        .ok value) :
      RouteEffect state clock auth store (.putKey segment ttl contentType (.ok body))
        (Store.applyTxnOp auth.bucketId store (.set key value expiresAt))
  | increment {segment : Segment} {ttl : Except Response (Option UInt64)} {body : Except Response Bytes} {key : Key}
      {op : CounterOp} {value : StoredValue} {expiresAt : Option OffsetDateTime}
      (allowed : auth.requireWriteOn key = .ok ())
      (merged : mergedValue (clock 2) store.data[dataStorageKey auth.bucketId key]? op = .ok value) :
      RouteEffect state clock auth store (.patchKey segment ttl body)
        (Store.applyTxnOp auth.bucketId store (.set key value expiresAt))
  | delete {segment : Segment} {key : Key} (allowed : auth.requireDeleteOn key = .ok ()) :
      RouteEffect state clock auth store (.deleteKey segment) (Store.applyTxnOp auth.bucketId store (.delete key))
  | txn {body : Bytes} {items : List TxnItem} {ops : List TxnOp}
      (parsed : (state.platform.json.fromSlice body).bind txnRequestFromJson = some items)
      (prepared : prepareItems state clock auth 1 items = .ok ops) :
      RouteEffect state clock auth store (.executeTxn (.ok body)) (ops.foldl (Store.applyTxnOp auth.bucketId) store)
  | patchPolicy {body : Except Response Bytes} {patch : UpdatePolicyJson} {policy patched : BucketPolicy}
      {bytes : Bytes} (admin : auth.identity = .admin)
      (found : store.lookupPolicy state.platform auth.bucketId = .ok (some policy))
      (applied : patchedPolicy state patch policy = .ok patched)
      (encoded : encodePolicy state.platform patched = .ok bytes) :
      RouteEffect state clock auth store (.updatePolicy body) (store.writePolicy auth.bucketId bytes)
  | dropPolicy {slash : Bool} (admin : auth.identity = .admin) :
      RouteEffect state clock auth store (.deleteBucket slash) (store.dropPolicy auth.bucketId)

/-- The response is a success and the change is that of the route. -/
def Served (state : AppState) (clock : Clock) (auth : BucketAuth) (route : Route) (store : Store) (response : Response)
    (after : Store) : Prop :=
  response.isSuccess = true ∧ RouteEffect state clock auth store route after

section Routes

variable {state : AppState} {clock : Clock} {auth : BucketAuth} {bucket : Segment} {store : Store}

theorem identity_of_requireAdmin (admin : auth.requireAdmin = .ok ()) : auth.identity = .admin := by
  unfold BucketAuth.requireAdmin at admin
  split at admin
  next same => exact same
  next => cases admin

theorem getKey_guards (key : Segment) :
    Guards state.platform (getKey clock auth bucket key) store (Served state clock auth (.getKey key) store) := by
  apply guards_check
  intro raw _
  apply guards_check
  intro key _
  apply guards_check
  intro _ _
  apply guards_read (by rw [Task.eval_get])
  intro entry _
  exact guards_pure ⟨rfl, .read⟩

theorem headKey_guards (key : Segment) :
    Guards state.platform (headKey clock auth bucket key) store (Served state clock auth (.headKey key) store) := by
  apply guards_check
  intro raw _
  apply guards_check
  intro key _
  apply guards_check
  intro _ _
  apply guards_read (by rw [Task.eval_get])
  intro entry _
  exact guards_pure ⟨rfl, .read⟩

theorem set_guards (platform : Platform) (now : OffsetDateTime) (bucket : BucketId) (key : Key) (body : Bytes)
    (contentType : Option String) (ttlOverride defaultTtl : Option UInt64) (store : Store) :
    (service platform).Guards
      (KeyService.set platform now bucket key body contentType ttlOverride defaultTtl) store
      (fun value after => KeyService.inferStoredValue platform body contentType = .ok value ∧
        Exists fun expiresAt => after = Store.applyTxnOp bucket store (.set key value expiresAt)) := by
  have computed := Task.eval_set platform store now bucket key body contentType ttlOverride defaultTtl
  unfold Task.eval at computed
  unfold Semantics.Guards
  rw [computed]
  cases inferred : KeyService.inferStoredValue platform body contentType with
  | error error => exact rfl
  | ok value =>
      cases KeyService.resolveTtl now ttlOverride defaultTtl with
      | error error => exact rfl
      | ok expiresAt => exact ⟨rfl, expiresAt, rfl⟩

theorem increment_guards (platform : Platform) (now storeNow : OffsetDateTime) (bucket : BucketId) (key : Key)
    (op : CounterOp) (ttlOverride defaultTtl : Option UInt64) (store : Store) :
    (service platform).Guards (KeyService.increment now storeNow bucket key op ttlOverride defaultTtl) store
      (fun value after => mergedValue storeNow store.data[dataStorageKey bucket key]? op = .ok value ∧
        Exists fun expiresAt => after = Store.applyTxnOp bucket store (.set key value expiresAt)) := by
  have computed := Task.eval_increment platform store now storeNow bucket key op ttlOverride defaultTtl
  unfold Task.eval at computed
  unfold Semantics.Guards
  rw [computed]
  cases KeyService.resolveTtl now ttlOverride defaultTtl with
  | error error => exact rfl
  | ok expiresAt =>
      cases merged : mergedValue storeNow store.data[dataStorageKey bucket key]? op with
      | error error => exact rfl
      | ok stored => exact ⟨rfl, expiresAt, rfl⟩

theorem delete_guards (platform : Platform) (bucket : BucketId) (key : Key) (store : Store) :
    (service platform).Guards (KeyService.delete bucket key) store
      (fun _ after => after = Store.applyTxnOp bucket store (.delete key)) := by
  have computed := Task.eval_delete platform store bucket key
  unfold Task.eval at computed
  unfold Semantics.Guards
  rw [computed]
  cases store.data[dataStorageKey bucket key]? <;> exact rfl

theorem createBucket_guards (platform : Platform) (id : BucketId) (policy : BucketPolicy) (store : Store) :
    (service platform).Guards (Repo.createBucket id policy) store
      (fun _ after => Exists fun bytes => encodePolicy platform policy = .ok bytes ∧
        after = store.writePolicy id bytes) := by
  have computed := Task.eval_createBucket platform store id policy
  unfold Task.eval at computed
  unfold Semantics.Guards
  rw [computed]
  cases encoded : encodePolicy platform policy with
  | error error => exact rfl
  | ok bytes => exact ⟨bytes, rfl, rfl⟩

/-- A write stores a value that its body was read as, under the key that its
path names. -/
theorem putKey_writes (segment : Segment) (ttl : Except Response (Option UInt64)) (contentType : Option Bytes)
    (body : Except Response Bytes) :
    Guards state.platform (putKey state clock auth bucket segment ttl contentType body) store (fun response after =>
      response.isSuccess = true ∧ Exists fun key => Exists fun bytes => Exists fun value => Exists fun expiresAt =>
        pathKey bucket segment = .ok key ∧ auth.requireWriteOn key = .ok () ∧ body = .ok bytes ∧
        KeyService.inferStoredValue state.platform bytes ((contentType.bind headerToStr).map String.ofList) =
          .ok value ∧
        after = Store.applyTxnOp auth.bucketId store (.set key value expiresAt)) := by
  apply guards_check
  intro raw captured
  apply guards_check
  intro ttl _
  apply guards_check
  intro bytes received
  apply guards_check
  intro key parsed
  apply guards_check
  intro _ allowed
  apply guards_write
  refine Semantics.Guards.mono _ (set_guards ..) ?_
  rintro value after ⟨inferred, expiresAt, written⟩
  have named : pathKey bucket segment = .ok key := bind_eq_ok.mpr ⟨raw, captured, parsed⟩
  exact ⟨rfl, key, bytes, value, expiresAt, named, allowed, received, inferred, written⟩

/-- A counter write stores the merged value under the key that its path
names. -/
theorem patchKey_writes (segment : Segment) (ttl : Except Response (Option UInt64)) (body : Except Response Bytes) :
    Guards state.platform (patchKey clock auth bucket segment ttl body) store (fun response after =>
      response.isSuccess = true ∧ Exists fun key => Exists fun op => Exists fun value => Exists fun expiresAt =>
        pathKey bucket segment = .ok key ∧ auth.requireWriteOn key = .ok () ∧
        mergedValue (clock 2) store.data[dataStorageKey auth.bucketId key]? op = .ok value ∧
        after = Store.applyTxnOp auth.bucketId store (.set key value expiresAt)) := by
  apply guards_check
  intro raw captured
  apply guards_check
  intro ttl _
  apply guards_check
  intro body _
  apply guards_check
  intro key parsed
  apply guards_check
  intro _ allowed
  apply guards_check
  intro op _
  apply guards_write
  refine Semantics.Guards.mono _ (increment_guards ..) ?_
  rintro value after ⟨merged, expiresAt, written⟩
  have named : pathKey bucket segment = .ok key := bind_eq_ok.mpr ⟨raw, captured, parsed⟩
  exact ⟨rfl, key, op, value, expiresAt, named, allowed, merged, written⟩

theorem putKey_guards (key : Segment) (ttl : Except Response (Option UInt64)) (contentType : Option Bytes)
    (body : Except Response Bytes) :
    Guards state.platform (putKey state clock auth bucket key ttl contentType body) store
      (Served state clock auth (.putKey key ttl contentType body) store) := by
  refine Semantics.Guards.mono _ (putKey_writes key ttl contentType body) ?_
  rintro response after ⟨success, _, _, _, _, _, allowed, rfl, inferred, rfl⟩
  exact ⟨success, .put allowed inferred⟩

theorem patchKey_guards (key : Segment) (ttl : Except Response (Option UInt64)) (body : Except Response Bytes) :
    Guards state.platform (patchKey clock auth bucket key ttl body) store
      (Served state clock auth (.patchKey key ttl body) store) := by
  refine Semantics.Guards.mono _ (patchKey_writes key ttl body) ?_
  rintro response after ⟨success, _, _, _, _, _, allowed, merged, rfl⟩
  exact ⟨success, .increment allowed merged⟩

theorem deleteKey_guards (key : Segment) :
    Guards state.platform (deleteKey auth bucket key) store (Served state clock auth (.deleteKey key) store) := by
  apply guards_check
  intro raw _
  apply guards_check
  intro key _
  apply guards_check
  intro _ allowed
  apply guards_write
  refine Semantics.Guards.mono _ (delete_guards ..) ?_
  rintro value after rfl
  exact ⟨rfl, .delete allowed⟩

/-- A prepared item was parsed and checked for the permission it needs. -/
theorem prepareItem_checked {now : OffsetDateTime} {item : TxnItem} {op : TxnOp}
    (prepared : prepareItem state now auth item = .ok op) :
    match item with
    | .set raw _ _ => Exists fun key => Exists fun value => Exists fun expiresAt =>
        parsePercentEncodedKey raw = .ok key ∧ auth.requireWriteOn key = .ok () ∧ op = .set key value expiresAt
    | .delete raw => Exists fun key =>
        parsePercentEncodedKey raw = .ok key ∧ auth.requireDeleteOn key = .ok () ∧ op = .delete key := by
  cases item with
  | set raw value ttl =>
      simp only [prepareItem, bind_eq_ok] at prepared
      rcases prepared with ⟨key, parsed, _, allowed, _, _, stored, _, expiresAt, _, same⟩
      cases same
      exact ⟨key, stored, expiresAt, parsed, allowed, rfl⟩
  | delete raw =>
      simp only [prepareItem, bind_eq_ok] at prepared
      rcases prepared with ⟨key, parsed, _, allowed, same⟩
      cases same
      exact ⟨key, parsed, allowed, rfl⟩

theorem prepareItem_allowed {now : OffsetDateTime} {item : TxnItem} {op : TxnOp}
    (prepared : prepareItem state now auth item = .ok op) : op.Allowed auth := by
  have checked := prepareItem_checked prepared
  cases item with
  | set raw value ttl =>
      rcases checked with ⟨key, value, expiresAt, _, allowed, rfl⟩
      exact allowed
  | delete raw =>
      rcases checked with ⟨key, _, allowed, rfl⟩
      exact allowed

/-- A prepared list holds one prepared operation for each item. -/
theorem prepareItems_mem {reading : Nat} {items : List TxnItem} {ops : List TxnOp}
    (prepared : prepareItems state clock auth reading items = .ok ops) :
    List.Forall₂ (fun item op => Exists fun now => prepareItem state now auth item = .ok op) items ops := by
  induction items generalizing reading ops with
  | nil =>
      cases prepared
      exact .nil
  | cons item rest ih =>
      simp only [prepareItems, bind_eq_ok] at prepared
      rcases prepared with ⟨op, made, later, madeRest, same⟩
      cases same
      exact .cons ⟨clock reading, made⟩ (ih madeRest)

/-- Every operation of a transaction was checked for itself. -/
theorem prepareItems_allowed {reading : Nat} {items : List TxnItem} {ops : List TxnOp}
    (prepared : prepareItems state clock auth reading items = .ok ops) :
    forall op, op ∈ ops -> op.Allowed auth := by
  have paired := prepareItems_mem prepared
  clear prepared
  induction paired with
  | nil =>
      intro op member
      cases member
  | cons made _ ih =>
      intro op member
      rcases List.mem_cons.mp member with rfl | inside
      · rcases made with ⟨now, made⟩
        exact prepareItem_allowed made
      · exact ih op inside

theorem executeTxn_guards (body : Except Response Bytes) :
    Guards state.platform (executeTxn state clock auth body) store
      (Served state clock auth (.executeTxn body) store) := by
  apply guards_check
  rintro text rfl
  apply guards_orReject
  intro txn parsed
  by_cases nothing : txn.isEmpty = true
  · rw [if_pos nothing]
    exact rfl
  · rw [if_neg nothing]
    apply guards_check
    intro ops prepared
    apply guards_write
    have computed := Task.eval_applyBatch state.platform store auth.bucketId ops
    unfold Task.eval at computed
    unfold Semantics.Guards
    rw [computed]
    exact ⟨rfl, .txn parsed prepared⟩

theorem listBucket_guards (params : Except Response ListBucketParams) (accept : Option Bytes) :
    Guards state.platform (listBucket state clock auth params accept) store
      (Served state clock auth (.listBucket params accept) store) := by
  have rendered : forall {format entries includeValues response},
      listResponse state.platform format entries includeValues = .ok response ->
        Served state clock auth (.listBucket params accept) store response store := by
    intro format entries includeValues response made
    simp only [listResponse, bind, Except.bind] at made
    split at made
    next => cases made
    next body =>
      cases made
      exact ⟨rfl, .read⟩
  apply guards_check
  intro params _
  apply guards_check
  intro _ _
  apply guards_check
  intro format _
  cases prefixForRepo auth.identity params.keyPrefix with
  | none => exact guards_known (fun response made => rendered made)
  | some keyPrefix =>
      apply guards_read (by rw [Task.eval_list])
      intro entries _
      exact guards_known (fun response made => rendered made)

theorem createToken_guards (form : Except Response CreateTokenForm) :
    Guards state.platform (createToken state clock auth form) store
      (Served state clock auth (.createToken form) store) := by
  apply guards_check
  intro form _
  apply guards_check
  intro _ _
  apply guards_read (by rw [Task.eval_getPolicy])
  intro found _
  apply guards_orReject
  intro policy _
  apply guards_orReject
  intro signingKey _
  apply guards_check
  intro claims _
  apply guards_check
  intro accessToken _
  exact guards_pure ⟨rfl, .read⟩

theorem updatePolicy_guards (body : Except Response Bytes) :
    Guards state.platform (updatePolicy state auth body) store
      (Served state clock auth (.updatePolicy body) store) := by
  apply guards_check
  intro body _
  apply guards_check
  intro _ admin
  apply guards_orReject
  intro patch _
  apply guards_read (by rw [Task.eval_getPolicy])
  intro found looked
  apply guards_orReject
  rintro policy rfl
  apply guards_check
  intro patched applied
  apply guards_write
  refine Semantics.Guards.mono _ (createBucket_guards ..) ?_
  rintro value after ⟨bytes, encoded, rfl⟩
  rw [Task.eval_getPolicy] at looked
  exact ⟨rfl, .patchPolicy (identity_of_requireAdmin admin) (eq_ok_of_mapError looked) applied encoded⟩

theorem deleteBucket_guards (slash : Bool) :
    Guards state.platform (deleteBucket auth) store (Served state clock auth (.deleteBucket slash) store) := by
  apply guards_check
  intro _ admin
  apply guards_write
  exact ⟨rfl, .dropPolicy (identity_of_requireAdmin admin)⟩

theorem getBucketPolicy_guards :
    Guards state.platform (getBucketPolicy auth) store (Served state clock auth .getBucketPolicy store) := by
  apply guards_check
  intro _ _
  apply guards_read (by rw [Task.eval_getPolicy])
  intro found _
  apply guards_orReject
  intro policy _
  exact guards_pure ⟨rfl, .read⟩

theorem headBucket_guards :
    Guards state.platform (headBucket auth) store (Served state clock auth .headBucket store) := by
  apply guards_check
  intro _ _
  exact guards_pure ⟨rfl, .read⟩

/-- Every route fails without a change or succeeds with the change it is for. -/
theorem serve_effect (route : Route) :
    Guards state.platform (route.serve state clock bucket auth) store (Served state clock auth route store) := by
  cases route with
  | getKey key => exact getKey_guards key
  | headKey key => exact headKey_guards key
  | putKey key ttl contentType body => exact putKey_guards key ttl contentType body
  | deleteKey key => exact deleteKey_guards key
  | patchKey key ttl body => exact patchKey_guards key ttl body
  | executeTxn body => exact executeTxn_guards body
  | listBucket params accept => exact listBucket_guards params accept
  | createToken form => exact createToken_guards form
  | updatePolicy body => exact updatePolicy_guards body
  | deleteBucket slash => exact deleteBucket_guards slash
  | getBucketPolicy => exact getBucketPolicy_guards
  | headBucket => exact headBucket_guards

theorem RouteEffect.permitted {route : Route} {after : Store}
    (effect : RouteEffect state clock auth store route after) : Permitted state auth store after := by
  cases effect with
  | read => exact .unchanged
  | put allowed inferred => exact .single (.set _ _ _) allowed
  | increment allowed merged => exact .single (.set _ _ _) allowed
  | delete allowed => exact .single (.delete _) allowed
  | txn parsed prepared => exact .batch _ (prepareItems_allowed prepared)
  | patchPolicy admin found applied encoded => exact .writePolicy admin found applied encoded
  | dropPolicy admin => exact .dropPolicy admin

/-- Every route fails without a change or succeeds with a permitted one. -/
theorem serve_guards (route : Route) :
    Guards state.platform (route.serve state clock bucket auth) store (Effected state auth store) :=
  Semantics.Guards.mono _ (serve_effect route) (fun _ _ served => ⟨served.1, served.2.permitted⟩)

end Routes

/-! ## Transitions of the server -/

/-- A request below a bucket changes nothing, or it is answered as its route
guarantees for the identity it resolved to. -/
theorem BucketRequest.perform_guarded {state : AppState} {request : BucketRequest} {store : Store}
    {post : BucketAuth -> Response -> Store -> Prop}
    (serves : forall auth, Guards state.platform (request.route.serve state request.clock request.bucket auth) store
      (post auth)) :
    ((Request.bucket request).perform state store).2 = store ∨
      Exists fun auth => request.authenticated state store = .ok auth ∧
        post auth ((Request.bucket request).perform state store).1
          ((Request.bucket request).perform state store).2 := by
  rw [Request.perform_eq, Request.handler, BucketRequest.eval_handler]
  cases resolved : request.authenticated state store with
  | error response => exact .inl rfl
  | ok auth =>
      have guarded := serves auth
      unfold Handler.Guards Semantics.Guards at guarded
      simp only [Handler.eval]
      generalize (service state.platform).run
        (request.route.serve state request.clock request.bucket auth).run store = ended at guarded ⊢
      rcases ended with ⟨outcome, after⟩
      cases outcome with
      | error response => exact .inl guarded
      | ok response => exact .inr ⟨auth, rfl, guarded⟩

/-- A request below a bucket changes nothing, or it succeeds and the identity
it resolved to may make the change. -/
theorem BucketRequest.perform_cases (state : AppState) (request : BucketRequest) (store : Store) :
    ((Request.bucket request).perform state store).2 = store ∨
      Exists fun auth => request.authenticated state store = .ok auth ∧
        ((Request.bucket request).perform state store).1.isSuccess = true ∧
        Permitted state auth store ((Request.bucket request).perform state store).2 :=
  BucketRequest.perform_guarded (fun _ => serve_guards request.route)

/-- Creating a bucket writes its record or changes nothing. -/
theorem createBucket_cases (state : AppState) (fresh : Uuid) (form : Except Response CreateBucketForm)
    (store : Store) :
    ((Request.createBucket fresh form).perform state store).2 = store ∨
      Exists fun accepted => Exists fun policy => Exists fun bytes => newBucketPolicy state accepted = .ok policy ∧
        encodePolicy state.platform policy = .ok bytes ∧
        ((Request.createBucket fresh form).perform state store).1.isSuccess = true ∧
        ((Request.createBucket fresh form).perform state store).2 = store.writePolicy fresh.bucketId bytes := by
  have guarded : Guards state.platform (createBucket state fresh form) store
      (fun response after => response.isSuccess = true ∧
        Exists fun accepted => Exists fun policy => Exists fun bytes => newBucketPolicy state accepted = .ok policy ∧
          encodePolicy state.platform policy = .ok bytes ∧ after = store.writePolicy fresh.bucketId bytes) := by
    apply guards_check
    intro form _
    apply guards_check
    intro policy made
    apply guards_write
    refine Semantics.Guards.mono _ (createBucket_guards ..) ?_
    rintro value after ⟨bytes, encoded, rfl⟩
    exact ⟨rfl, form, policy, bytes, made, encoded, rfl⟩
  rw [Request.perform_eq, Request.handler]
  unfold Handler.Guards Semantics.Guards at guarded
  simp only [Handler.eval]
  generalize (service state.platform).run (createBucket state fresh form).run store = ended at guarded ⊢
  rcases ended with ⟨outcome, after⟩
  cases outcome with
  | error response => exact .inl guarded
  | ok response =>
      rcases guarded with ⟨success, accepted, policy, bytes, made, encoded, same⟩
      exact .inr ⟨accepted, policy, bytes, made, encoded, success, same⟩

end Keydock
