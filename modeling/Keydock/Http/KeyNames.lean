import Keydock.Foundation.Utf8
import Keydock.Http.KeyListing
import Keydock.Http.TxnMeaning

/-!
# The names of keys in listings

A key is a byte string, and requests can name any.  A listing shows it as
text, in which every invalid sequence has become a replacement character.  Keys
that are valid UTF-8 are shown as they are; any other key shares its name with
a key of other bytes.
-/

namespace Keydock

open Effect Handler

/-- The key is the UTF-8 form of a text. -/
def Key.IsText (key : Key) : Prop :=
  Exists fun text : String => key.asBytes = Bytes.utf8 text

/-- The name of such a key gives its bytes back. -/
theorem Key.IsText.utf8_keyToJsonString {key : Key} (isText : key.IsText) :
    Bytes.utf8 (String.ofList (keyToJsonString key)) = key.asBytes := by
  rcases isText with ⟨text, same⟩
  rw [keyToJsonString, same, Text.fromUtf8Lossy_utf8, String.ofList_toList]

theorem Key.IsText.eq_of_keyToJsonString {left right : Key} (leftText : left.IsText) (rightText : right.IsText)
    (same : keyToJsonString left = keyToJsonString right) : left = right := by
  apply Key.ext_bytes
  rw [← leftText.utf8_keyToJsonString, ← rightText.utf8_keyToJsonString, same]

/-! ## The keys a request writes -/

/-- A request writes the key that its path names, or the keys of the items of
its body. -/
inductive Route.Writes (platform : Platform) (bucket : Segment) : Route -> Key -> Prop
  | put {segment : Segment} {ttl : Except Response (Option UInt64)} {contentType : Option Bytes}
      {body : Except Response Bytes} {key : Key} (named : pathKey bucket segment = .ok key) :
      Route.Writes platform bucket (.putKey segment ttl contentType body) key
  | increment {segment : Segment} {ttl : Except Response (Option UInt64)} {body : Except Response Bytes} {key : Key}
      (named : pathKey bucket segment = .ok key) : Route.Writes platform bucket (.patchKey segment ttl body) key
  | item {body : Bytes} {trees : List Json} {tree value : Json} {raw : String} {ttl : Option UInt64} {key : Key}
      (listed : txnTrees platform body = some trees) (inside : tree ∈ trees)
      (shape : txnItemFromJson tree = some (.set raw value ttl)) (named : parsePercentEncodedKey raw = .ok key) :
      Route.Writes platform bucket (.executeTxn (.ok body)) key

/-- An entry afterwards stood there before, or its key is one that the route
writes. -/
def Filed (platform : Platform) (bucket : Segment) (route : Route) (auth : BucketAuth) (store after : Store) : Prop :=
  forall storageKey bytes : Bytes, after.data[storageKey]? = some bytes ->
    store.data[storageKey]? = some bytes ∨
      Exists fun key => route.Writes platform bucket key ∧ storageKey = dataStorageKey auth.bucketId key

section Routes

variable {state : AppState} {clock : Clock} {auth : BucketAuth} {bucket : Segment} {store after : Store} {route : Route}

theorem Filed.of_data (same : after.data = store.data) : Filed state.platform bucket route auth store after := by
  intro storageKey bytes present
  rw [same] at present
  exact .inl present

theorem Filed.applyTxnOps {ops : List TxnOp}
    (each : forall key value expiresAt, .set key value expiresAt ∈ ops -> route.Writes state.platform bucket key) :
    Filed state.platform bucket route auth store (ops.foldl (Store.applyTxnOp auth.bucketId) store) := by
  intro storageKey bytes present
  rcases applyTxnOps_origin present with before | ⟨key, value, expiresAt, member, same, _⟩
  · exact .inl before
  · exact .inr ⟨key, each key value expiresAt member, same⟩

theorem Filed.set {key : Key} (written : route.Writes state.platform bucket key) (value : StoredValue)
    (expiresAt : Option OffsetDateTime) :
    Filed state.platform bucket route auth store (Store.applyTxnOp auth.bucketId store (.set key value expiresAt)) := by
  have batch : Filed state.platform bucket route auth store
      ([.set key value expiresAt].foldl (Store.applyTxnOp auth.bucketId) store) := by
    refine Filed.applyTxnOps (fun other _ _ member => ?_)
    cases List.mem_singleton.mp member
    exact written
  exact batch

theorem putKey_filed (segment : Segment) (ttl : Except Response (Option UInt64)) (contentType : Option Bytes)
    (body : Except Response Bytes) :
    Guards state.platform (putKey state clock auth bucket segment ttl contentType body) store (fun response after =>
      response.isSuccess = true ∧
        Filed state.platform bucket (.putKey segment ttl contentType body) auth store after) := by
  refine Semantics.Guards.mono _ (putKey_writes segment ttl contentType body) ?_
  rintro response after ⟨success, key, _, value, expiresAt, named, _, _, _, rfl⟩
  exact ⟨success, .set (.put named) value expiresAt⟩

theorem patchKey_filed (segment : Segment) (ttl : Except Response (Option UInt64)) (body : Except Response Bytes) :
    Guards state.platform (patchKey clock auth bucket segment ttl body) store (fun response after =>
      response.isSuccess = true ∧ Filed state.platform bucket (.patchKey segment ttl body) auth store after) := by
  refine Semantics.Guards.mono _ (patchKey_writes segment ttl body) ?_
  rintro response after ⟨success, key, _, value, expiresAt, named, _, _, rfl⟩
  exact ⟨success, .set (.increment named) value expiresAt⟩

/-- The other routes write the keys of items, or none. -/
theorem Filed.of_effect (effect : RouteEffect state clock auth store route after)
    (notPut : forall segment ttl contentType body, route ≠ .putKey segment ttl contentType body)
    (notPatch : forall segment ttl body, route ≠ .patchKey segment ttl body) :
    Filed state.platform bucket route auth store after := by
  cases effect with
  | read => exact .of_data rfl
  | put allowed inferred => exact absurd rfl (notPut _ _ _ _)
  | increment allowed merged => exact absurd rfl (notPatch _ _ _)
  | @delete segment key allowed =>
      have batch : Filed state.platform bucket (.deleteKey segment) auth store
          ([.delete key].foldl (Store.applyTxnOp auth.bucketId) store) :=
        .applyTxnOps (fun _ _ _ member => by cases List.mem_singleton.mp member)
      exact batch
  | txn parsed prepared =>
      refine .applyTxnOps (fun key value expiresAt member => ?_)
      rw [txnRequest_eq] at parsed
      rcases Option.bind_eq_some_iff.mp parsed with ⟨trees, listed, read⟩
      have stand := prepareItems_eq_ok.mp ⟨_, read, prepared⟩
      rcases exists_of_forall₂ stand.flip member with ⟨⟨tree, reading⟩, indexed, stands⟩
      cases stands with
      | set shape named allowed written inferred resolved =>
          exact .item listed (List.fst_mem_of_mem_zipIdx indexed) shape named
  | patchPolicy admin found applied encoded => exact .of_data rfl
  | dropPolicy admin => exact .of_data rfl

theorem serve_filed (route : Route) :
    Guards state.platform (route.serve state clock bucket auth) store (fun response after =>
      response.isSuccess = true ∧ Filed state.platform bucket route auth store after) := by
  have other : (forall segment ttl contentType body, route ≠ .putKey segment ttl contentType body) ->
      (forall segment ttl body, route ≠ .patchKey segment ttl body) ->
      Guards state.platform (route.serve state clock bucket auth) store (fun response after =>
        response.isSuccess = true ∧ Filed state.platform bucket route auth store after) := by
    intro notPut notPatch
    exact Semantics.Guards.mono _ (serve_effect route) (fun _ _ served =>
      ⟨served.1, .of_effect served.2 notPut notPatch⟩)
  cases route with
  | putKey segment ttl contentType body => exact putKey_filed segment ttl contentType body
  | patchKey segment ttl body => exact patchKey_filed segment ttl body
  | _ => exact other (fun _ _ _ _ same => Route.noConfusion same) (fun _ _ _ same => Route.noConfusion same)

/-- A request below a bucket changes nothing, or it succeeds and stores only
under keys that its route writes. -/
theorem BucketRequest.perform_filed (state : AppState) (request : BucketRequest) (store : Store) :
    ((Request.bucket request).perform state store).2 = store ∨
      Exists fun auth => request.authenticated state store = .ok auth ∧
        ((Request.bucket request).perform state store).1.isSuccess = true ∧
        Filed state.platform request.bucket request.route auth store
          ((Request.bucket request).perform state store).2 :=
  @BucketRequest.perform_guarded state request store (fun auth response after => response.isSuccess = true ∧
    Filed state.platform request.bucket request.route auth store after) (fun _ => serve_filed request.route)

end Routes

/-! ## Runs -/

/-- A request that is accepted writes only keys that are text. -/
def Event.WritesText (state : AppState) (store : Store) : Event -> Prop
  | .request (.bucket incoming) =>
      ((Request.bucket incoming).perform state store).1.isSuccess = true ->
        forall key, incoming.route.Writes state.platform incoming.bucket key -> key.IsText
  | .request (.createBucket _ _) => True
  | .sweep _ => True

/-- Every key of a bucket is text. -/
def Store.TextKeys (store : Store) : Prop :=
  forall (id : Uuid) (key : Key) (bytes : Bytes), store.data[dataStorageKey id.bucketId key]? = some bytes -> key.IsText

section Runs

variable {state : AppState} {store : Store}

/-- One event keeps the keys text. -/
theorem Store.TextKeys.perform (texts : store.TextKeys) (sound : Sound state.platform store) {event : Event}
    (written : event.WritesText state store) : (event.perform state store).TextKeys := by
  intro id key bytes present
  rcases Event.data_origin sound present with before | ⟨request, rfl⟩
  · exact texts id key bytes before
  · rw [Event.perform_request] at present
    rcases request.perform_filed state store with same | ⟨auth, resolved, success, filed⟩
    · rw [same] at present
      exact texts id key bytes present
    · rcases filed _ _ present with before | ⟨other, writes, same⟩
      · exact texts id key bytes before
      · rcases request.authenticated_eq_ok resolved with ⟨_, _, found, _, rfl⟩
        rcases sound.bucket_of_lookupPolicy found with ⟨owner, addressed⟩
        have sameOwner : dataStorageKey id.bucketId key = dataStorageKey owner.bucketId other :=
          same.trans (congrArg (fun bucket => dataStorageKey bucket other) addressed)
        rw [(dataStorageKey_injective sameOwner).2]
        exact written success other writes

/-- The keys of a run that writes only text keys are text. -/
theorem storeAfter_textKeys (state : AppState) (events : List Event)
    (texts : forall earlier event later, events = earlier ++ event :: later ->
      event.WritesText state (storeAfter state earlier)) :
    (storeAfter state events).TextKeys := by
  induction events using List.reverseRecOn with
  | nil =>
      intro id key bytes present
      simp [storeAfter, Store.empty] at present
  | append_singleton earlier event ih =>
      rw [storeAfter_snoc]
      refine (ih ?_).perform (storeAfter_sound state earlier) (texts earlier event [] rfl)
      intro before middle later same
      refine texts before middle (later ++ [event]) ?_
      rw [same, List.append_assoc, List.cons_append]

theorem Store.TextKeys.isText (texts : store.TextKeys) {id : Uuid} {now : OffsetDateTime} {key : Key}
    {entry : StoredEntry} (found : store.found now id.bucketId key = some entry) : key.IsText := by
  cases stored : store.data[dataStorageKey id.bucketId key]? with
  | some bytes => exact texts id key bytes stored
  | none =>
      simp only [Store.found, Store.liveEntry, stored] at found
      cases found

end Runs

/-! ## Names -/

/-- Any other key shares its name with a key of other bytes. -/
theorem exists_same_keyToJsonString {key : Key} (notText : ¬ key.IsText) :
    Exists fun other : Key => other ≠ key ∧ keyToJsonString other = keyToJsonString key := by
  have invalid : forall text, key.asBytes ≠ Bytes.utf8 text := fun text same => notText ⟨text, same⟩
  rcases Text.exists_same_fromUtf8Lossy key.asBytes invalid with ⟨bytes, different, short, same⟩
  exact ⟨⟨bytes, short.trans key.bounded⟩, fun equal => different (congrArg Key.asBytes equal), same⟩

/-- In every run whose accepted writes name only keys that are text, the live
keys of a bucket have different names at every instant, and the names in a
listing give the keys back.  Without the condition they need not: every other
key shares its name with some key. -/
theorem text_keys_have_distinct_names (state : AppState) (events : List Event)
    (texts : forall earlier event later, events = earlier ++ event :: later ->
      event.WritesText state (storeAfter state earlier)) :
    let store := storeAfter state events
    (forall (id : Uuid) (now : OffsetDateTime) (left right : Key) (leftEntry rightEntry : StoredEntry),
      store.found now id.bucketId left = some leftEntry -> store.found now id.bucketId right = some rightEntry ->
      keyToJsonString left = keyToJsonString right -> left = right) ∧
    (forall (id : Uuid) (now : OffsetDateTime) (input : ListOptsInput) (entries : List ListEntry),
      store.listAnswer state.platform now id.bucketId input = .ok entries -> forall row, row ∈ entries ->
      Bytes.utf8 (String.ofList (keyToJsonString row.key)) = row.key.asBytes) ∧
    (forall key : Key, ¬ key.IsText -> Exists fun other : Key => other ≠ key ∧
      keyToJsonString other = keyToJsonString key) := by
  intro store
  have keys : store.TextKeys := storeAfter_textKeys state events texts
  refine ⟨?_, ?_, fun _ => exists_same_keyToJsonString⟩
  · intro id now left right leftEntry rightEntry leftFound rightFound same
    exact (keys.isText leftFound).eq_of_keyToJsonString (keys.isText rightFound) same
  · intro id now input entries answered row member
    have inv : Indexed store := (storeAfter_sound state events).indexed
    have outcome := listRows_eq state.platform id.bucketId (KeyService.listOpts now input) inv.isEntry
    have rows : store.listAnswer state.platform now id.bucketId input = _ := outcome
    rw [answered] at rows
    cases eq_of_map_bufferOf rows.symm
    rcases inv.mem_listed.mp (mem_of_mem_selected member) with ⟨_, entry, found, _⟩
    exact (keys.isText found).utf8_keyToJsonString

open ExpiredRemoval in
/-- The fresh key `k` is the only live key under its name. -/
theorem fresh_key_name :
    let store := storeAfter state history
    let fresh : Key := ⟨[0x6B], by decide⟩
    (store.found start id.bucketId fresh).isSome = true ∧
    forall key entry, store.found start id.bucketId key = some entry -> keyToJsonString key = ['k'] -> key = fresh := by
  intro store fresh
  have present : (store.found start id.bucketId fresh).isSome = true := by decide +kernel
  refine ⟨present, fun key entry found named => ?_⟩
  rcases Option.isSome_iff_exists.mp present with ⟨freshEntry, freshFound⟩
  refine (text_keys_have_distinct_names state history ?_).1 id start key fresh entry freshEntry found freshFound
    (named.trans (by decide))
  intro earlier event later same
  have split : [Event.request (.createBucket id (.ok ⟨"a@b.c", none, none, none, none, none⟩)),
      .request (.bucket (request start (.putKey ExpiredRemoval.key (.ok (some 1)) none (.ok [0x68, 0x69]))))] =
        earlier ++ event :: later := same
  rcases earlier with _ | ⟨created, _ | ⟨written, rest⟩⟩
  · cases split
    exact trivial
  · cases split
    intro _ written writes
    cases writes with
    | put path =>
        have parsed : pathKey (request start .headBucket).bucket ExpiredRemoval.key = .ok fresh := by decide +kernel
        have same := parsed.symm.trans path
        cases same
        exact ⟨"k", by decide⟩
  · have lengths := congrArg List.length split
    simp only [List.length_cons, List.length_append, List.length_nil] at lengths
    omega

namespace UnreadableKeys

/-- A request that puts `hi` under the key of one byte, encoded twice in the
path. -/
def put (segment : Segment) : Event :=
  .request (.bucket (ExpiredRemoval.request ExpiredRemoval.start (.putKey segment (.ok none) none (.ok [0x68, 0x69]))))

def first : Segment := ⟨"%25FE", by decide, by decide⟩

def second : Segment := ⟨"%25FF", by decide, by decide⟩

def history : List Event :=
  [.request (.createBucket ExpiredRemoval.id (.ok ⟨"a@b.c", none, none, none, none, none⟩)), put first, put second]

theorem first_key_short : [(0xFE : UInt8)].length ≤ maxKeyBytes := by decide

theorem second_key_short : [(0xFF : UInt8)].length ≤ maxKeyBytes := by decide

end UnreadableKeys

open UnreadableKeys in
/-- Two live keys of a bucket are listed under one name. -/
theorem unreadable_keys_share_a_name :
    let store := storeAfter ExpiredRemoval.state history
    let left : Key := ⟨[0xFE], first_key_short⟩
    let right : Key := ⟨[0xFF], second_key_short⟩
    left ≠ right ∧
    (store.found ExpiredRemoval.start ExpiredRemoval.id.bucketId left).isSome = true ∧
    (store.found ExpiredRemoval.start ExpiredRemoval.id.bucketId right).isSome = true ∧
    keyToJsonString left = keyToJsonString right ∧
    store.listAnswer ExpiredRemoval.state.platform ExpiredRemoval.start ExpiredRemoval.id.bucketId
      ⟨none, none, none, none, none⟩ = .ok [⟨left, none⟩, ⟨right, none⟩] ∧
    [⟨left, none⟩, ⟨right, none⟩].mapM (renderJsonRow ExpiredRemoval.state.platform false) =
      .ok [.str "\uFFFD", .str "\uFFFD"] := by
  intro store left right
  exact ⟨by decide, by decide +kernel, by decide +kernel, by decide, by decide +kernel, by decide +kernel⟩

end Keydock
