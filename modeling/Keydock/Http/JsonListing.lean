import Keydock.Http.KeyListing
import Keydock.Http.RecordedKinds

/-!
# Listings in JSON

A listing with values is one JSON document: a single value that cannot be
rendered makes the listing of the whole bucket fail.  What the requests of a run
record can be rendered as long as the text they have taken for JSON is JSON.
-/

namespace Keydock

open Effect Handler Json

/-! ## What a request leaves behind -/

/-- An entry afterwards stood there before, or holds a value that the request
recorded. -/
def Recording (platform : Platform) (route : Route) (store after : Store) : Prop :=
  forall storageKey bytes : Bytes, after.data[storageKey]? = some bytes ->
    store.data[storageKey]? = some bytes ∨
      Exists fun value => Exists fun expiresAt => bytes = entryBytes value expiresAt ∧ Recorded platform route value

namespace Recording

variable {platform : Platform} {route : Route} {store after : Store}

theorem of_data (same : after.data = store.data) : Recording platform route store after := by
  intro storageKey bytes present
  rw [same] at present
  exact .inl present

theorem applyTxnOps {bucket : BucketId} {ops : List TxnOp}
    (each : forall key value expiresAt, .set key value expiresAt ∈ ops -> Recorded platform route value) :
    Recording platform route store (ops.foldl (Store.applyTxnOp bucket) store) := by
  intro storageKey bytes present
  rcases applyTxnOps_origin present with before | ⟨key, value, expiresAt, member, _, coded⟩
  · exact .inl before
  · exact .inr ⟨value, expiresAt, coded, each key value expiresAt member⟩

theorem applyTxnOp {bucket : BucketId} {op : TxnOp}
    (recorded : forall key value expiresAt, op = .set key value expiresAt -> Recorded platform route value) :
    Recording platform route store (Store.applyTxnOp bucket store op) := by
  have batch : Recording platform route store ([op].foldl (Store.applyTxnOp bucket) store) :=
    applyTxnOps (fun key value expiresAt member => recorded key value expiresAt (List.mem_singleton.mp member).symm)
  exact batch

/-- The changes a route can make record only its own values. -/
theorem of_effect {state : AppState} {clock : Clock} {auth : BucketAuth}
    (effect : RouteEffect state clock auth store route after) : Recording state.platform route store after := by
  cases effect with
  | read => exact of_data rfl
  | put allowed inferred =>
      refine applyTxnOp ?_
      rintro _ _ _ ⟨⟩
      exact .body inferred
  | increment allowed merged =>
      refine applyTxnOp ?_
      rintro _ _ _ ⟨⟩
      exact .counter merged
  | delete allowed =>
      refine applyTxnOp ?_
      rintro _ _ _ ⟨⟩
  | txn parsed prepared =>
      refine applyTxnOps (fun key value expiresAt member => ?_)
      rw [txnRequest_eq] at parsed
      rcases Option.bind_eq_some_iff.mp parsed with ⟨trees, listed, read⟩
      have stand := prepareItems_eq_ok.mp ⟨_, read, prepared⟩
      rcases exists_of_forall₂ stand.flip member with ⟨⟨tree, reading⟩, indexed, stands⟩
      have inside : tree ∈ trees := List.fst_mem_of_mem_zipIdx indexed
      cases stands with
      | set shape named allowed written inferred resolved => exact .item listed inside shape written inferred
  | patchPolicy admin found applied encoded => exact of_data rfl
  | dropPolicy admin => exact of_data rfl

end Recording

/-- A request below a bucket changes nothing, or it succeeds and records only
values of its route. -/
theorem BucketRequest.perform_recording (state : AppState) (request : BucketRequest) (store : Store) :
    ((Request.bucket request).perform state store).2 = store ∨
      ((Request.bucket request).perform state store).1.isSuccess = true ∧
        Recording state.platform request.route store ((Request.bucket request).perform state store).2 := by
  rcases BucketRequest.perform_guarded (fun _ => serve_effect request.route) with same | ⟨auth, _, success, effect⟩
  · exact .inl same
  · exact .inr ⟨success, .of_effect effect⟩

/-! ## Runs -/

/-- Every stored value can stand in a JSON listing. -/
def Store.Renders (platform : Platform) (store : Store) : Prop :=
  forall storageKey bytes : Bytes, store.data[storageKey]? = some bytes ->
    Exists fun value => Exists fun expiresAt => bytes = entryBytes value expiresAt ∧ value.Renders platform

/-- A request that is accepted takes only JSON for JSON. -/
def Event.RecordsReadable (state : AppState) (store : Store) : Event -> Prop
  | .request (.bucket incoming) =>
      ((Request.bucket incoming).perform state store).1.isSuccess = true ->
        incoming.route.RecordsReadable state.platform
  | .request (.createBucket _ _) => True
  | .sweep _ => True

/-- The accepted requests of a run take only JSON for JSON. -/
def RecordsReadableFrom (state : AppState) : Store -> List Event -> Prop
  | _, [] => True
  | store, event :: rest =>
      event.RecordsReadable state store ∧ RecordsReadableFrom state (event.perform state store) rest

section Runs

variable {state : AppState} {store : Store}

theorem Store.Renders.recording (renders : store.Renders state.platform) (rereads : state.platform.json.Rereads)
    {route : Route} (readable : route.RecordsReadable state.platform) {after : Store}
    (recording : Recording state.platform route store after) : after.Renders state.platform := by
  intro storageKey bytes present
  rcases recording storageKey bytes present with before | ⟨value, expiresAt, coded, recorded⟩
  · exact renders storageKey bytes before
  · exact ⟨value, expiresAt, coded, recorded.renders rereads readable⟩

/-- One event keeps the values of the store renderable. -/
theorem Store.Renders.perform (renders : store.Renders state.platform) (rereads : state.platform.json.Rereads)
    (sound : Sound state.platform store) {event : Event} (readable : event.RecordsReadable state store) :
    (event.perform state store).Renders state.platform := by
  intro storageKey bytes present
  rcases Event.data_origin sound present with before | ⟨request, rfl⟩
  · exact renders storageKey bytes before
  · rw [Event.perform_request] at present
    rcases BucketRequest.perform_recording state request store with same | ⟨success, recording⟩
    · rw [same] at present
      exact renders storageKey bytes present
    · exact renders.recording rereads (readable success) recording storageKey bytes present

theorem foldl_renders (rereads : state.platform.json.Rereads) (events : List Event) {store : Store}
    (sound : Sound state.platform store) (renders : store.Renders state.platform)
    (readable : RecordsReadableFrom state store events) :
    (events.foldl (Event.perform state) store).Renders state.platform := by
  induction events generalizing store with
  | nil => exact renders
  | cons event rest ih =>
      exact ih (Event.perform_sound sound event) (renders.perform rereads sound readable.1) readable.2

end Runs

/-! ## Listings -/

/-- The rows a listing has to render. -/
def listEntries (state : AppState) (now : OffsetDateTime) (auth : BucketAuth) (params : ListBucketParams)
    (store : Store) : Except TaskError (List ListEntry) :=
  match prefixForRepo auth.identity params.keyPrefix with
  | none => .ok []
  | some keyPrefix => store.listAnswer state.platform now auth.bucketId (params.input keyPrefix)

/-- The request is an authorized listing with values, in a format other than
text, and these are the rows it finds. -/
structure ListsValues (state : AppState) (store : Store) (request : BucketRequest) (auth : BucketAuth)
    (params : ListBucketParams) (accept : Option Bytes) (format : ListFormat) (entries : List ListEntry) : Prop where
  accepted : request.authenticated state store = .ok auth
  allowed : auth.requireEnumerate = .ok ()
  asked : request.route = .listBucket (.ok params) accept
  valued : params.values = some true
  chosen : resolveListFormat params accept = .ok format
  structured : format = .json ∨ format = .jsonl
  found : listEntries state (request.clock 1) auth params store = .ok entries

section Listings

variable {state : AppState} {store : Store} {request : BucketRequest} {auth : BucketAuth} {params : ListBucketParams}
  {accept : Option Bytes} {format : ListFormat} {entries : List ListEntry}

/-- The answer to such a listing is its body, rendered. -/
theorem ListsValues.perform (lists : ListsValues state store request auth params accept format entries) :
    ((Request.bucket request).perform state store).1 =
      outcome (listResponse state.platform format entries true) := by
  rw [Request.perform_eq, Request.handler, BucketRequest.eval_handler, lists.accepted, lists.asked]
  simp only [Route.serve, eval_listBucket]
  have found := lists.found
  unfold listEntries at found
  simp only [listAnswer, bind, Except.bind, lists.allowed, lists.chosen, lists.valued, Option.getD_some]
  cases narrowed : prefixForRepo auth.identity params.keyPrefix with
  | none =>
      rw [narrowed] at found
      cases found
      rfl
  | some keyPrefix =>
      rw [narrowed] at found
      simp only [found, Except.mapError]

theorem Store.Renders.found (renders : store.Renders state.platform) {now : OffsetDateTime} {bucket : BucketId}
    {key : Key} {entry : StoredEntry} (live : store.found now bucket key = some entry) :
    entry.value.Renders state.platform := by
  cases present : store.data[dataStorageKey bucket key]? with
  | none =>
      simp only [Store.found, Store.liveEntry, present] at live
      cases live
  | some bytes =>
      rcases renders _ _ present with ⟨value, expiresAt, rfl, good⟩
      rw [Store.found_eq now present] at live
      split at live
      next => cases live
      next =>
        cases live
        exact good

/-- Every row of such a listing has a value of the store. -/
theorem ListsValues.value (lists : ListsValues state store request auth params accept format entries)
    (sound : Sound state.platform store) (renders : store.Renders state.platform) {row : ListEntry}
    (member : row ∈ entries) : Exists fun value => row.value = some value ∧ value.Renders state.platform := by
  have found := lists.found
  unfold listEntries at found
  cases narrowed : prefixForRepo auth.identity params.keyPrefix with
  | none =>
      rw [narrowed] at found
      cases found
      cases member
  | some keyPrefix =>
      rw [narrowed] at found
      have rows := listRows_eq state.platform auth.bucketId
        (KeyService.listOpts (request.clock 1) (params.input keyPrefix)) sound.indexed.isEntry
      have answered := rows.symm.trans found
      cases eq_of_map_bufferOf answered
      rcases sound.indexed.mem_listed.mp (mem_of_mem_selected member) with ⟨_, entry, live, same⟩
      refine ⟨entry.value, ?_, renders.found live⟩
      rw [same]
      simp only [rowOf, ListBucketParams.input, lists.valued, Option.getD_some, if_true]

/-- Where the rows can be rendered, so can the document they make up. -/
theorem renderListBody_of_rows {platform : Platform} (structured : format = .json ∨ format = .jsonl)
    {rows : List Json} (rendered : entries.mapM (renderJsonRow platform true) = .ok rows)
    (writes : platform.json.Writes rows) :
    Exists fun bytes => renderListBody platform format entries true = .ok bytes := by
  rcases structured with rfl | rfl
  · rcases writes.1 with ⟨bytes, written⟩
    refine ⟨bytes, bind_eq_ok.mpr ⟨rows, rendered, ?_⟩⟩
    simp only [writeJson, written]
  · have lines : forall row, row ∈ entries -> Exists fun line => renderJsonLine platform true row = .ok line := by
      intro row member
      rcases exists_of_forall₂ (mapM_eq_ok.mp rendered) member with ⟨tree, listed, made⟩
      rcases writes.2 tree listed with ⟨bytes, written⟩
      refine ⟨bytes ++ [0x0A], bind_eq_ok.mpr ⟨tree, made, bind_eq_ok.mpr ⟨bytes, ?_, rfl⟩⟩⟩
      simp only [writeJson, written]
    rcases exists_forall₂ lines with ⟨chunks, each⟩
    exact ⟨chunks.flatten, bind_eq_ok.mpr ⟨chunks, mapM_eq_ok.mpr each, rfl⟩⟩

end Listings

/-- In every run whose accepted writes take only JSON for JSON, every stored
value can be rendered, and every authorized listing with values in one of the
JSON formats answers with its document. -/
theorem json_listings_succeed (state : AppState) (rereads : state.platform.json.Rereads) (events : List Event)
    (readable : RecordsReadableFrom state Store.empty events) :
    let store := storeAfter state events
    store.Renders state.platform ∧
    forall (request : BucketRequest) (auth : BucketAuth) (params : ListBucketParams) (accept : Option Bytes)
      (format : ListFormat) (entries : List ListEntry),
      ListsValues state store request auth params accept format entries ->
      (forall rows, entries.mapM (renderJsonRow state.platform true) = .ok rows -> state.platform.json.Writes rows) ->
      Exists fun bytes => renderListBody state.platform format entries true = .ok bytes ∧
        ((Request.bucket request).perform state store).1 = Response.ofBytes (listContentType format) bytes := by
  intro store
  have sound : Sound state.platform store := storeAfter_sound state events
  have renders : store.Renders state.platform := by
    refine foldl_renders rereads events Sound.empty ?_ readable
    intro storageKey bytes present
    simp [Store.empty] at present
  refine ⟨renders, ?_⟩
  intro request auth params accept format entries lists writes
  have each : forall row, row ∈ entries ->
      Exists fun tree => renderJsonRow state.platform true row = .ok tree := by
    intro row member
    rcases lists.value sound renders member with ⟨value, shown, good⟩
    exact exists_renderJsonRow (fun _ => ⟨value, shown, good⟩)
  rcases exists_forall₂ each with ⟨rows, paired⟩
  have rendered := mapM_eq_ok.mpr paired
  rcases renderListBody_of_rows lists.structured rendered (writes rows rendered) with ⟨bytes, body⟩
  refine ⟨bytes, body, ?_⟩
  rw [lists.perform, listResponse, body]
  rfl

namespace DeclaredJson

/-- A document with an object and a counter, its rows, and the object. -/
def trees : List (Json × Bytes) :=
  [(storedPolicyToJson ExpiredRemoval.policy, ExpiredRemoval.record), (.obj [], Bytes.utf8 "\x7b\x7d"),
    (.arr [.str "k", .obj []], Bytes.utf8 "[\"k\",\x7b\x7d]"), (.arr [.str "n", .posInt 1], Bytes.utf8 "[\"n\",1]"),
    (.arr [.arr [.str "k", .obj []], .arr [.str "n", .posInt 1]], Bytes.utf8 "[[\"k\",\x7b\x7d],[\"n\",1]]")]

theorem trees_injective : forall left, left ∈ trees -> forall right, right ∈ trees -> left.2 = right.2 ->
    left.1 = right.1 := by
  decide +kernel

def state : AppState := ⟨Platform.ofJson trees trees_injective [], []⟩

theorem rereads : state.platform.json.Rereads :=
  SerdeJson.rereads_ofTable trees_injective (by decide +kernel)

/-- A bucket is created, a text declared to be JSON is written and a counter
incremented. -/
def history (body : Bytes) : List Event :=
  [.request (.createBucket ExpiredRemoval.id (.ok ⟨"a@b.c", none, none, none, none, none⟩)),
    .request (.bucket (ExpiredRemoval.request ExpiredRemoval.start (.putKey ExpiredRemoval.key (.ok none)
      (some (Bytes.utf8 "application/json")) (.ok body)))),
    .request (.bucket (ExpiredRemoval.request ExpiredRemoval.start (.patchKey ⟨"n", by decide, by decide⟩ (.ok none)
      (.ok (Bytes.utf8 "+1")))))]

def params : ListBucketParams := ⟨none, none, none, none, some true, some "json"⟩

def listing : BucketRequest := ExpiredRemoval.request ExpiredRemoval.start (.listBucket (.ok params) none)

def auth : BucketAuth := BucketAuth.ofPolicy listing.bucketId ExpiredRemoval.policy .anonymous

def store (body : Bytes) : Store := storeAfter state (history body)

theorem accepted {body : Bytes}
    (found : (store body).lookupPolicy state.platform listing.bucketId = .ok (some ExpiredRemoval.policy)) :
    listing.authenticated state (store body) = .ok auth := by
  rw [BucketRequest.authenticated, found]
  rfl

theorem text_key_short : [(0x6B : UInt8)].length ≤ maxKeyBytes := by decide

theorem counter_key_short : [(0x6E : UInt8)].length ≤ maxKeyBytes := by decide

/-- The rows found, given the text written. -/
def entries (body : Bytes) (short : body.length ≤ maxValueBytes) : List ListEntry :=
  [⟨⟨[0x6B], text_key_short⟩, some ⟨body, .json, short⟩⟩,
    ⟨⟨[0x6E], counter_key_short⟩, some (CounterValue.storedInt 1)⟩]

end DeclaredJson

open DeclaredJson in
/-- An object and a counter are listed. -/
theorem object_and_counter_listed :
    let body := Bytes.utf8 "\x7b\x7d"
    Exists fun bytes => renderListBody state.platform .json (entries body (by decide)) true = .ok bytes ∧
      ((Request.bucket listing).perform state (store body)).1 = Response.ofBytes "application/json" bytes := by
  intro body
  have readable : RecordsReadableFrom state Store.empty (history body) :=
    ⟨trivial, fun _ _ => ⟨.obj [], by decide +kernel, rfl⟩, fun _ => trivial, trivial⟩
  have lists : ListsValues state (store body) listing auth params none .json (entries body (by decide)) :=
    ⟨accepted (by decide +kernel), rfl, rfl, rfl, rfl, .inl rfl, by decide +kernel⟩
  refine (json_listings_succeed state rereads (history body) readable).2 listing auth params none .json
    (entries body (by decide)) lists ?_
  intro rows rendered
  have made : (entries body (by decide)).mapM (renderJsonRow state.platform true) =
      .ok [.arr [.str "k", .obj []], .arr [.str "n", .posInt 1]] := by decide +kernel
  rw [made] at rendered
  cases rendered
  constructor
  · exact Option.isSome_iff_exists.mp (by decide +kernel)
  · intro row member
    rcases List.mem_pair.mp member with rfl | rfl
    · exact Option.isSome_iff_exists.mp (by decide +kernel)
    · exact Option.isSome_iff_exists.mp (by decide +kernel)

open DeclaredJson in
/-- A text that is declared to be JSON and is not makes the listing of the
bucket fail, with every key in it. -/
theorem declared_json_breaks_listing :
    let body := Bytes.utf8 "x"
    ListsValues state (store body) listing auth params none .json (entries body (by decide)) ∧
      renderListBody state.platform .json (entries body (by decide)) true = .error internalError ∧
      ((Request.bucket listing).perform state (store body)).1 = internalError := by
  intro body
  have lists : ListsValues state (store body) listing auth params none .json (entries body (by decide)) :=
    ⟨accepted (by decide +kernel), rfl, rfl, rfl, rfl, .inl rfl, by decide +kernel⟩
  have broken : renderListBody state.platform .json (entries body (by decide)) true = .error internalError := by
    decide +kernel
  refine ⟨lists, broken, ?_⟩
  rw [lists.perform, listResponse, broken]
  rfl

end Keydock
