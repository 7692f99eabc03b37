import Keydock.Http.Reads
import Keydock.Http.Runs

/-!
# Sweeps between requests

A run with sweeps is compared with the run of the same requests without them.
The two stores differ only in entries that have expired and are still on disk
in the one that was never swept.  Every route but the removal of a key treats
such an entry like a missing one.
-/

namespace Keydock

open Effect Handler

/-! ## Coupled handlers -/

namespace Handler

variable {α β : Type} {platform : Platform} {relation : Store -> Store -> Prop}

/-- From related stores the handler gives equal outcomes and related stores. -/
abbrev Couples (platform : Platform) (relation : Store -> Store -> Prop) (handler : Handler α) : Prop :=
  (service platform).Couples relation handler.run

theorem couples_known (outcome : Except Response α) : Couples platform relation (known outcome) :=
  Semantics.Couples.done _ outcome

theorem couples_orReject (response : Response) (found : Option α) :
    Couples platform relation (orReject response found) := by
  cases found <;> exact Semantics.Couples.done _ _

theorem couples_bind {handler : Handler α} {next : α -> Handler β} (first : Couples platform relation handler)
    (rest : forall value, Couples platform relation (next value)) : Couples platform relation (handler >>= next) :=
  Semantics.Couples.exceptBind _ first rest

theorem couples_pure (value : α) : Couples platform relation (pure value : Handler α) :=
  Semantics.Couples.done _ _

theorem couples_spawn {task : Task α}
    (coupled : forall left right, relation left right ->
      (task.eval platform left).1 = (task.eval platform right).1 ∧
        relation (task.eval platform left).2 (task.eval platform right).2) :
    Couples platform relation (spawnUsecase task) :=
  Semantics.Couples.bind _ coupled (fun _ => Semantics.Couples.done _ _)

end Handler

/-! ## Stores that differ in expired entries -/

/-- One store lacks entries of the other that have expired at all instants
still to come. -/
structure Thinned (due : OffsetDateTime -> Prop) (swept full : Store) : Prop where
  metadata : swept.metadata = full.metadata
  entries : forall storageKey bytes : Bytes, full.data[storageKey]? = some bytes -> IsEntry bytes
  data : forall storageKey : Bytes, swept.data[storageKey]? = full.data[storageKey]? ∨
    (swept.data[storageKey]? = none ∧ Exists fun bytes => full.data[storageKey]? = some bytes ∧
      forall now, due now -> expiresBy now.unixTimestamp bytes = true)

namespace Thinned

variable {due : OffsetDateTime -> Prop} {swept full : Store}

theorem refl {store : Store} (entries : forall storageKey bytes : Bytes, store.data[storageKey]? = some bytes ->
    IsEntry bytes) : Thinned due store store where
  metadata := rfl
  entries := entries
  data := fun _ => .inl rfl

theorem weaken {fewer : OffsetDateTime -> Prop} (thinned : Thinned due swept full)
    (subset : forall now, fewer now -> due now) : Thinned fewer swept full where
  metadata := thinned.metadata
  entries := thinned.entries
  data := by
    intro storageKey
    rcases thinned.data storageKey with same | ⟨missing, bytes, present, expired⟩
    · exact .inl same
    · exact .inr ⟨missing, bytes, present, fun now later => expired now (subset now later)⟩

theorem applyTxnOp (thinned : Thinned due swept full) (bucket : BucketId) (op : TxnOp) :
    Thinned due (Store.applyTxnOp bucket swept op) (Store.applyTxnOp bucket full op) where
  metadata := by
    cases op <;> exact thinned.metadata
  entries := by
    intro storageKey bytes present
    rw [applyTxnOp_data] at present
    split at present
    next =>
      cases op with
      | set key value expiresAt =>
          cases present
          exact ⟨value, expiresAt, rfl⟩
      | delete key => cases present
    next => exact thinned.entries storageKey bytes present
  data := by
    intro storageKey
    rw [applyTxnOp_data, applyTxnOp_data]
    split
    · exact .inl rfl
    · exact thinned.data storageKey

theorem applyTxnOps (thinned : Thinned due swept full) (bucket : BucketId) (ops : List TxnOp) :
    Thinned due (ops.foldl (Store.applyTxnOp bucket) swept) (ops.foldl (Store.applyTxnOp bucket) full) := by
  induction ops generalizing swept full with
  | nil => exact thinned
  | cons op rest ih => exact ih (thinned.applyTxnOp bucket op)

/-- A sweep takes more entries away, all of them expired from then on. -/
theorem sweep {later : OffsetDateTime -> Prop} (thinned : Thinned due swept full) (indexed : Indexed swept)
    (now : OffsetDateTime) (subset : forall instant, later instant -> due instant)
    (after : forall instant, later instant -> now ≤ instant) : Thinned later (swept.sweep now) full where
  metadata := (indexed.sweep_metadata now).trans thinned.metadata
  entries := thinned.entries
  data := by
    intro storageKey
    rw [indexed.sweep_data now storageKey]
    rcases (thinned.weaken subset).data storageKey with same | ⟨missing, bytes, present, expired⟩
    · rw [same]
      cases found : full.data[storageKey]? with
      | none => exact .inl rfl
      | some bytes =>
          by_cases gone : expiresBy now.unixTimestamp bytes = true
          · refine .inr ⟨by simp [Option.filter, gone], bytes, rfl, ?_⟩
            intro instant isLater
            rcases expiresBy_iff.mp gone with ⟨expiresUnix, decoded, past⟩
            exact expiresBy_iff.mpr ⟨expiresUnix, decoded,
              Int64.le_trans past (OffsetDateTime.unixTimestamp_mono (after instant isLater))⟩
          · exact .inl (by simp [Option.filter, gone])
    · rw [missing]
      exact .inr ⟨rfl, bytes, present, expired⟩

/-! ### What the storage calls answer -/

theorem lookupPolicy (thinned : Thinned due swept full) (platform : Platform) (bucket : BucketId) :
    swept.lookupPolicy platform bucket = full.lookupPolicy platform bucket := by
  simp only [Store.lookupPolicy, thinned.metadata]

theorem liveEntry (thinned : Thinned due swept full) {now : OffsetDateTime} (isDue : due now) (bucket : BucketId)
    (key : Key) : swept.liveEntry now bucket key = full.liveEntry now bucket key := by
  unfold Store.liveEntry
  rcases thinned.data (dataStorageKey bucket key) with same | ⟨missing, bytes, present, expired⟩
  · rw [same]
  · rcases thinned.entries _ _ present with ⟨value, expiresAt, rfl⟩
    have past := expired now isDue
    rw [missing, present]
    simp only [decodeEntry_entryBytes, expiredAt_read, past, if_true]

theorem mergedValue (thinned : Thinned due swept full) {now : OffsetDateTime} (isDue : due now)
    (storageKey : Bytes) (op : CounterOp) :
    Keydock.mergedValue now swept.data[storageKey]? op = Keydock.mergedValue now full.data[storageKey]? op := by
  rcases thinned.data storageKey with same | ⟨missing, bytes, present, expired⟩
  · rw [same]
  · rcases thinned.entries _ _ present with ⟨value, expiresAt, rfl⟩
    have past := expired now isDue
    have zero : FjallStore.currentValue now (some (entryBytes value expiresAt)) = .ok (.int 0) := by
      simp only [FjallStore.currentValue, decodeEntry_entryBytes, expiredAt_read, past, if_true]
    rw [missing, present]
    unfold Keydock.mergedValue
    rw [zero]
    rfl

theorem sweptEntries (thinned : Thinned due swept full) (storageKey bytes : Bytes)
    (present : swept.data[storageKey]? = some bytes) : IsEntry bytes := by
  rcases thinned.data storageKey with same | ⟨missing, _⟩
  · exact thinned.entries storageKey bytes (same ▸ present)
  · rw [missing] at present
    cases present

theorem listAnswer (thinned : Thinned due swept full) {now : OffsetDateTime} (isDue : due now) (platform : Platform)
    (bucket : BucketId) (input : ListOptsInput) :
    swept.listAnswer platform now bucket input = full.listAnswer platform now bucket input := by
  have sweptRows := listRows_eq platform bucket (KeyService.listOpts now input) thinned.sweptEntries
  have fullRows := listRows_eq platform bucket (KeyService.listOpts now input) thinned.entries
  have same : listed bucket (KeyService.listOpts now input) swept.data =
      listed bucket (KeyService.listOpts now input) full.data := by
    apply Keyspace.scan_filterMap_congr (FjallStore.visible bucket (KeyService.listOpts now input))
    intro storageKey _
    rcases thinned.data storageKey with same | ⟨missing, bytes, present, expired⟩
    · rw [same]
    · rcases thinned.entries _ _ present with ⟨value, expiresAt, rfl⟩
      have hidden : (KeyService.listOpts now input).hides (entryBytes value expiresAt) = true := expired now isDue
      rw [missing, present, Option.bind_none, Option.bind_some, visible_entryBytes, hidden]
      cases userKeyFromStorageKey storageKey bucket <;> rfl
  rw [same] at sweptRows
  exact sweptRows.trans fullRows.symm

end Thinned

/-! ## Routes on such stores -/

namespace Route

/-- A request on the keys of a bucket. -/
def IsKeyRoute : Route -> Prop
  | .getKey _ | .headKey _ | .putKey _ _ _ _ | .deleteKey _ | .patchKey _ _ _ | .executeTxn _ | .listBucket _ _ => True
  | _ => False

end Route

section Routes

variable {due : OffsetDateTime -> Prop} {platform : Platform}

theorem couples_get {now : OffsetDateTime} (isDue : due now) (bucket : BucketId) (key : Key) :
    Couples platform (Thinned due) (spawnUsecase (KeyService.get now bucket key)) := by
  apply couples_spawn
  intro swept full thinned
  rw [Task.eval_get, Task.eval_get, thinned.liveEntry isDue]
  exact ⟨rfl, thinned⟩

theorem couples_list {now : OffsetDateTime} (isDue : due now) (bucket : BucketId) (input : ListOptsInput) :
    Couples platform (Thinned due) (spawnUsecase (KeyService.list now bucket input)) := by
  apply couples_spawn
  intro swept full thinned
  exact ⟨thinned.listAnswer isDue platform bucket input, thinned⟩

theorem couples_set (now : OffsetDateTime) (bucket : BucketId) (key : Key) (body : Bytes)
    (contentType : Option String) (ttlOverride defaultTtl : Option UInt64) :
    Couples platform (Thinned due)
      (spawnUsecase (KeyService.set platform now bucket key body contentType ttlOverride defaultTtl)) := by
  apply couples_spawn
  intro swept full thinned
  rw [Task.eval_set, Task.eval_set]
  cases KeyService.inferStoredValue platform body contentType with
  | error error => exact ⟨rfl, thinned⟩
  | ok value =>
      cases KeyService.resolveTtl now ttlOverride defaultTtl with
      | error error => exact ⟨rfl, thinned⟩
      | ok expiresAt => exact ⟨rfl, thinned.applyTxnOp bucket (.set key value expiresAt)⟩

theorem couples_increment {storeNow : OffsetDateTime} (isDue : due storeNow) (now : OffsetDateTime)
    (bucket : BucketId) (key : Key) (op : CounterOp) (ttlOverride defaultTtl : Option UInt64) :
    Couples platform (Thinned due)
      (spawnUsecase (KeyService.increment now storeNow bucket key op ttlOverride defaultTtl)) := by
  apply couples_spawn
  intro swept full thinned
  rw [Task.eval_increment, Task.eval_increment, thinned.mergedValue isDue]
  cases KeyService.resolveTtl now ttlOverride defaultTtl with
  | error error => exact ⟨rfl, thinned⟩
  | ok expiresAt =>
      cases mergedValue storeNow full.data[dataStorageKey bucket key]? op with
      | error error => exact ⟨rfl, thinned⟩
      | ok stored => exact ⟨rfl, thinned.applyTxnOp bucket (.set key stored expiresAt)⟩

theorem couples_applyBatch (bucket : BucketId) (ops : List TxnOp) :
    Couples platform (Thinned due) (spawnUsecase (Repo.applyBatch bucket ops)) := by
  apply couples_spawn
  intro swept full thinned
  rw [Task.eval_applyBatch, Task.eval_applyBatch]
  exact ⟨rfl, thinned.applyTxnOps bucket ops⟩

/-- Every key route but the removal of a key cannot tell the stores apart. -/
theorem serve_couples (state : AppState) {clock : Clock} (isDue : forall i, due (clock i)) (bucket : Segment)
    (auth : BucketAuth) {route : Route} (keyed : route.IsKeyRoute) (other : forall key, route ≠ .deleteKey key) :
    Couples state.platform (Thinned due) (route.serve state clock bucket auth) := by
  cases route with
  | getKey key | headKey key =>
      refine couples_bind (couples_known _) (fun raw => ?_)
      refine couples_bind (couples_known _) (fun key => ?_)
      refine couples_bind (couples_known _) (fun _ => ?_)
      exact couples_bind (couples_get (isDue 1) _ _) (fun entry => couples_pure _)
  | putKey key ttl contentType body =>
      refine couples_bind (couples_known _) (fun raw => ?_)
      refine couples_bind (couples_known _) (fun ttl => ?_)
      refine couples_bind (couples_known _) (fun body => ?_)
      refine couples_bind (couples_known _) (fun key => ?_)
      refine couples_bind (couples_known _) (fun _ => ?_)
      exact couples_bind (couples_set _ _ _ _ _ _ _) (fun value => couples_pure _)
  | patchKey key ttl body =>
      refine couples_bind (couples_known _) (fun raw => ?_)
      refine couples_bind (couples_known _) (fun ttl => ?_)
      refine couples_bind (couples_known _) (fun body => ?_)
      refine couples_bind (couples_known _) (fun key => ?_)
      refine couples_bind (couples_known _) (fun _ => ?_)
      refine couples_bind (couples_known _) (fun op => ?_)
      exact couples_bind (couples_increment (isDue 2) _ _ _ _ _ _) (fun value => couples_pure _)
  | executeTxn body =>
      refine couples_bind (couples_known _) (fun body => ?_)
      refine couples_bind (couples_orReject _ _) (fun txn => ?_)
      by_cases nothing : txn.isEmpty = true
      · rw [if_pos nothing]
        exact couples_known _
      · rw [if_neg nothing]
        refine couples_bind (couples_known _) (fun ops => ?_)
        exact couples_bind (couples_applyBatch _ _) (fun _ => couples_pure _)
  | listBucket params accept =>
      refine couples_bind (couples_known _) (fun params => ?_)
      refine couples_bind (couples_known _) (fun _ => ?_)
      refine couples_bind (couples_known _) (fun format => ?_)
      cases prefixForRepo auth.identity params.keyPrefix with
      | none => exact couples_known _
      | some keyPrefix => exact couples_bind (couples_list (isDue 1) _ _) (fun entries => couples_known _)
  | deleteKey key => exact False.elim (other key rfl)
  | createToken _ | updatePolicy _ | deleteBucket _ | getBucketPolicy | headBucket => exact False.elim keyed

/-- The key a removal is about, once it is parsed and allowed. -/
def deletable (auth : BucketAuth) (bucket key : Segment) : Except Response Key := do
  let raw <- pathParams bucket key
  let key <- parsePercentEncodedKey raw
  auth.requireDeleteOn key
  return key

/-- A removal answers by the mere presence of the entry. -/
theorem eval_deleteKey (auth : BucketAuth) (bucket key : Segment) (store : Store) :
    eval platform (deleteKey auth bucket key) store =
      match deletable auth bucket key with
      | .error response => (.error response, store)
      | .ok key =>
          match store.data[dataStorageKey auth.bucketId key]? with
          | none => (.error notFound, store)
          | some _ => (.ok (Response.ofStatus 204), store.erase (dataStorageKey auth.bucketId key)) := by
  simp only [deleteKey, eval_bind, eval_known, eval_spawnUsecase, Task.eval_delete, eval_pure]
  simp only [deletable, bind, Except.bind, pure, Except.pure]
  cases pathParams bucket key with
  | error response => rfl
  | ok raw =>
      cases parsed : parsePercentEncodedKey raw with
      | error response => simp only [parsed]
      | ok key =>
          simp only [parsed]
          cases auth.requireDeleteOn key with
          | error response => rfl
          | ok passed =>
              cases found : store.data[dataStorageKey auth.bucketId key]? with
              | none =>
                  simp only [found]
                  rfl
              | some bytes =>
                  simp only [found]
                  rfl

end Routes

/-- The request is an allowed removal that finds an entry which had expired
when the request arrived. -/
def FindsExpired (state : AppState) (store : Store) (request : BucketRequest) : Prop :=
  Exists fun segment => Exists fun auth => Exists fun key => Exists fun bytes =>
    request.route = .deleteKey segment ∧ request.authenticated state store = .ok auth ∧
      deletable auth request.bucket segment = .ok key ∧
      store.data[dataStorageKey auth.bucketId key]? = some bytes ∧
      expiresBy (request.clock 0).unixTimestamp bytes = true

section Requests

variable {due : OffsetDateTime -> Prop} {state : AppState} {swept full : Store} {request : BucketRequest}

theorem Thinned.authenticated (thinned : Thinned due swept full) (state : AppState) (request : BucketRequest) :
    request.authenticated state swept = request.authenticated state full := by
  simp only [BucketRequest.authenticated, thinned.lookupPolicy]

/-- A request gets the same answer from both stores unless it removes an
expired entry. -/
theorem Thinned.perform (thinned : Thinned due swept full) (keyed : request.route.IsKeyRoute)
    (isDue : forall i, due (request.clock i)) (harmless : ¬ FindsExpired state full request) :
    ((Request.bucket request).perform state swept).1 = ((Request.bucket request).perform state full).1 ∧
      Thinned due ((Request.bucket request).perform state swept).2
        ((Request.bucket request).perform state full).2 := by
  rw [Request.perform_eq, Request.perform_eq, Request.handler, BucketRequest.eval_handler,
    BucketRequest.eval_handler, thinned.authenticated]
  cases accepted : request.authenticated state full with
  | error response => exact ⟨rfl, thinned⟩
  | ok auth =>
      by_cases removal : Exists fun segment => request.route = .deleteKey segment
      · rcases removal with ⟨segment, asked⟩
        simp only [asked, Route.serve, eval_deleteKey]
        cases parsed : deletable auth request.bucket segment with
        | error response => exact ⟨rfl, thinned⟩
        | ok key =>
            rcases thinned.data (dataStorageKey auth.bucketId key) with same | ⟨missing, bytes, present, expired⟩
            · simp only [same]
              cases full.data[dataStorageKey auth.bucketId key]? with
              | none => exact ⟨rfl, thinned⟩
              | some bytes => exact ⟨rfl, thinned.applyTxnOp auth.bucketId (.delete key)⟩
            · exact False.elim (harmless ⟨segment, auth, key, bytes, asked, accepted, parsed, present,
                expired _ (isDue 0)⟩)
      · have coupled := serve_couples state isDue request.bucket auth keyed
          (fun segment asked => removal ⟨segment, asked⟩) swept full thinned
        exact ⟨congrArg outcome coupled.1, coupled.2⟩

/-- A removal of an expired entry succeeds before a sweep and fails after it. -/
theorem FindsExpired.differs (sound : Sound state.platform full) (finds : FindsExpired state full request) :
    ((Request.bucket request).perform state (full.sweep (request.clock 0))).1 ≠
      ((Request.bucket request).perform state full).1 := by
  rcases finds with ⟨segment, auth, key, bytes, asked, accepted, parsed, present, expired⟩
  have metadata := sound.indexed.sweep_metadata (request.clock 0)
  have acceptedToo : request.authenticated state (full.sweep (request.clock 0)) = .ok auth := by
    rw [← accepted]
    simp only [BucketRequest.authenticated, Store.lookupPolicy, metadata]
  have gone : (full.sweep (request.clock 0)).data[dataStorageKey auth.bucketId key]? = none := by
    rw [sound.indexed.sweep_data, present]
    simp [Option.filter, expired]
  rw [Request.perform_eq, Request.perform_eq, Request.handler, BucketRequest.eval_handler,
    BucketRequest.eval_handler, accepted, acceptedToo]
  simp only [asked, Route.serve, eval_deleteKey, parsed, present, gone, outcome]
  decide

end Requests

/-! ## Runs with and without sweeps -/

/-- The events are the requests with sweeps inserted. -/
inductive Inserted : List Event -> List BucketRequest -> Prop
  | nil : Inserted [] []
  | request {events : List Event} {requests : List BucketRequest} (request : BucketRequest)
      (rest : Inserted events requests) : Inserted (.request (.bucket request) :: events) (request :: requests)
  | sweep {events : List Event} {requests : List BucketRequest} (now : OffsetDateTime)
      (rest : Inserted events requests) : Inserted (.sweep now :: events) requests

/-- The requests alone. -/
def unswept (requests : List BucketRequest) : List Event :=
  requests.map (fun request => .request (.bucket request))

namespace Event

/-- An instant at which the event reads the clock. -/
def Reads : Event -> OffsetDateTime -> Prop
  | .request (.bucket asked), now => Exists fun i => asked.clock i = now
  | .request (.createBucket _ _), _ => False
  | .sweep instant, now => instant = now

/-- Every clock reading of the first event is at or before every one of the
second. -/
def Precedes (first second : Event) : Prop :=
  forall earlier later, first.Reads earlier -> second.Reads later -> earlier ≤ later

end Event

/-- The responses of a run, in order. -/
def responses (state : AppState) : Store -> List Event -> List Response
  | _, [] => []
  | store, .sweep now :: rest => responses state (store.sweep now) rest
  | store, .request incoming :: rest =>
      (incoming.perform state store).1 :: responses state (incoming.perform state store).2 rest

/-- No request of the run without sweeps removes an entry that had expired
when the request arrived. -/
def NoExpiredDelete (state : AppState) : Store -> List BucketRequest -> Prop
  | _, [] => True
  | store, request :: rest =>
      ¬ FindsExpired state store request ∧
        NoExpiredDelete state ((Request.bucket request).perform state store).2 rest

/-- Timed requests on keys: the clock never runs backwards, neither within a
request nor from one to the next. -/
structure KeyTraffic where
  requests : List BucketRequest
  keyed : forall request, request ∈ requests -> request.route.IsKeyRoute
  steady : forall request, request ∈ requests -> forall i j, i ≤ j -> request.clock i ≤ request.clock j
  ordered : (unswept requests).Pairwise Event.Precedes

/-- The instants at which a run still reads the clock. -/
def StillReads (events : List Event) (now : OffsetDateTime) : Prop :=
  Exists fun event => event ∈ events ∧ event.Reads now

/-- Without removals of expired entries a run with sweeps gets the responses of
the run without. -/
theorem responses_eq_of_noExpiredDelete {state : AppState} {events : List Event} {requests : List BucketRequest}
    (inserted : Inserted events requests) {swept full : Store} (sound : Sound state.platform swept)
    (thinned : Thinned (StillReads events) swept full)
    (keyed : forall request, request ∈ requests -> request.route.IsKeyRoute)
    (ordered : events.Pairwise Event.Precedes) (harmless : NoExpiredDelete state full requests) :
    responses state swept events = responses state full (unswept requests) := by
  induction inserted generalizing swept full with
  | nil => rfl
  | request request rest ih =>
      have step := thinned.perform (keyed request List.mem_cons_self)
        (fun i => ⟨_, List.mem_cons_self, i, rfl⟩) harmless.1
      have later := ih (Request.perform_sound sound (.bucket request))
        (step.2.weaken (fun now reads => by
          rcases reads with ⟨event, member, here⟩
          exact ⟨event, List.mem_cons_of_mem _ member, here⟩))
        (fun other member => keyed other (List.mem_cons_of_mem request member))
        (List.pairwise_cons.mp ordered).2 harmless.2
      exact List.cons_eq_cons.mpr ⟨step.1, later⟩
  | sweep now rest ih =>
      have parts := List.pairwise_cons.mp ordered
      refine ih (sound.sweep now) ?_ keyed parts.2 harmless
      refine thinned.sweep sound.indexed now ?_ ?_
      · rintro instant ⟨event, member, here⟩
        exact ⟨event, List.mem_cons_of_mem _ member, here⟩
      · rintro instant ⟨event, member, here⟩
        exact parts.1 event member now instant rfl here

theorem inserted_unswept (requests : List BucketRequest) : Inserted (unswept requests) requests := by
  induction requests with
  | nil => exact .nil
  | cons request rest ih => exact .request request ih

/-- However sweeps are inserted after a given past, the responses are those of
the run without sweeps. -/
def Invisible (state : AppState) (past : List Event) (store : Store) (requests : List BucketRequest) : Prop :=
  forall events, Inserted events requests -> (past ++ events).Pairwise Event.Precedes ->
    responses state store events = responses state store (unswept requests)

/-- A sweep at the arrival of a request fits into the order of events. -/
theorem pairwise_sweep_at_arrival {past : List Event} {request : BucketRequest} {rest : List Event}
    (steady : forall i j, i ≤ j -> request.clock i ≤ request.clock j)
    (ordered : (past ++ .request (.bucket request) :: rest).Pairwise Event.Precedes) :
    (past ++ .sweep (request.clock 0) :: .request (.bucket request) :: rest).Pairwise Event.Precedes := by
  rcases List.pairwise_append.mp ordered with ⟨before, after, across⟩
  have follows := (List.pairwise_cons.mp after).1
  have arrival : (Event.request (.bucket request)).Reads (request.clock 0) := ⟨0, rfl⟩
  refine List.pairwise_append.mpr ⟨before, List.pairwise_cons.mpr ⟨?_, after⟩, ?_⟩
  · intro event member earlier later isSweep reads
    cases isSweep
    rcases List.mem_cons.mp member with rfl | inside
    · rcases reads with ⟨i, rfl⟩
      exact steady 0 i (Nat.zero_le i)
    · exact follows event inside _ _ arrival reads
  · intro event inPast other member earlier later reads readsToo
    rcases List.mem_cons.mp member with rfl | inside
    · cases readsToo
      exact across event inPast _ List.mem_cons_self _ _ reads arrival
    · exact across event inPast other inside _ _ reads readsToo

theorem noExpiredDelete_of_invisible {state : AppState} (past : List Event) {store : Store}
    {requests : List BucketRequest} (sound : Sound state.platform store)
    (steady : forall request, request ∈ requests -> forall i j, i ≤ j -> request.clock i ≤ request.clock j)
    (ordered : (past ++ unswept requests).Pairwise Event.Precedes) (invisible : Invisible state past store requests) :
    NoExpiredDelete state store requests := by
  induction requests generalizing past store with
  | nil => trivial
  | cons request rest ih =>
      constructor
      · intro finds
        have same := invisible (.sweep (request.clock 0) :: unswept (request :: rest))
          (.sweep _ (inserted_unswept _))
          (pairwise_sweep_at_arrival (steady request List.mem_cons_self) ordered)
        exact finds.differs sound (List.cons_eq_cons.mp same).1
      · have assoc : forall events : List Event, (past ++ [Event.request (.bucket request)]) ++ events =
            past ++ .request (.bucket request) :: events := fun events => by simp
        refine ih (past ++ [Event.request (.bucket request)]) (Request.perform_sound sound (.bucket request))
          (fun other member => steady other (List.mem_cons_of_mem request member)) ?_ ?_
        · rw [assoc]
          exact ordered
        · intro events inserted inOrder
          rw [assoc] at inOrder
          have same := invisible (.request (.bucket request) :: events) (.request request inserted) inOrder
          exact (List.cons_eq_cons.mp same).2

/-- Sweeps are invisible to a sequence of key requests, however they are
inserted, exactly when no allowed removal of the run without sweeps finds an
entry that had expired when the request arrived. -/
theorem sweeps_invisible_iff (state : AppState) (history : List Event) (traffic : KeyTraffic) :
    (forall events, Inserted events traffic.requests -> events.Pairwise Event.Precedes ->
      responses state (storeAfter state history) events =
        responses state (storeAfter state history) (unswept traffic.requests)) ↔
    NoExpiredDelete state (storeAfter state history) traffic.requests := by
  have sound : Sound state.platform (storeAfter state history) := storeAfter_sound state history
  constructor
  · intro invisible
    exact noExpiredDelete_of_invisible [] sound traffic.steady traffic.ordered invisible
  · intro harmless events inserted ordered
    exact responses_eq_of_noExpiredDelete inserted sound (Thinned.refl sound.indexed.isEntry) traffic.keyed ordered
      harmless

namespace ExpiredRemoval

/-- The policy of a bucket created without keys. -/
def policy : BucketPolicy where
  defaultTtlSecs := some 604800
  anonymousAccess := ⟨true, true, true, true⟩
  secretKeyHash := none
  readKeyHash := none
  writeKeyHash := none
  signingKey := none
  signingKeyGeneration := 0

def record : Bytes :=
  Bytes.utf8 ("\x7b\"secret_key_hash\":null,\"read_key_hash\":null,\"write_key_hash\":null,\"signing_key\":null," ++
    "\"signing_key_generation\":0,\"default_ttl_secs\":604800," ++
    "\"anonymous_access\":\x7b\"read\":true,\"write\":true,\"enumerate\":true,\"delete\":true\x7d\x7d")

def state : AppState := ⟨Platform.ofJson [(storedPolicyToJson policy, record)] (by simp) [], []⟩

def id : Uuid := Uuid.fromU128 0xc3f0a1d25b7e4e6f8a9123456789abcd

def start : OffsetDateTime := OffsetDateTime.unixEpoch

/-- Two seconds later. -/
def later : OffsetDateTime := ⟨2000000000, by decide, by decide⟩

/-- A request without credentials. -/
def request (now : OffsetDateTime) (route : Route) : BucketRequest where
  bucket := ⟨"c3f0a1d2-5b7e-4e6f-8a91-23456789abcd", by decide, by decide⟩
  query := none
  authorization := none
  clock := fun _ => now
  route := route

def key : Segment := ⟨"k", by decide, by decide⟩

/-- A bucket is created and a key written that lives for one second. -/
def history : List Event :=
  [.request (.createBucket id (.ok ⟨"a@b.c", none, none, none, none, none⟩)),
    .request (.bucket (request start (.putKey key (.ok (some 1)) none (.ok [0x68, 0x69]))))]

def removal : BucketRequest := request later (.deleteKey key)

end ExpiredRemoval

open ExpiredRemoval in
/-- A sweep turns the removal of an expired key from a success into a miss. -/
theorem sweep_turns_removal_into_miss :
    Inserted [.sweep later, .request (.bucket removal)] [removal] ∧
    [Event.sweep later, .request (.bucket removal)].Pairwise Event.Precedes ∧
    responses state (storeAfter state history) (unswept [removal]) = [Response.ofStatus 204] ∧
    responses state (storeAfter state history) [.sweep later, .request (.bucket removal)] = [notFound] := by
  refine ⟨.sweep later (.request removal .nil), ?_, by decide +kernel, by decide +kernel⟩
  refine List.pairwise_pair.mpr ?_
  rintro earlier _ rfl ⟨_, rfl⟩
  exact Int.le_refl _

end Keydock
