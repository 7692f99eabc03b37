import Keydock.Http.KeyListing
import Keydock.Http.RecordedKinds
import Keydock.Http.TimeToLive

/-!
# The types of transaction values

A transaction stores a value that is not a string in its JSON form, and a read
returns it as JSON.  A string is stored as its text, and the kind is guessed
from it as for any other write.  A read therefore returns it as text unless the
guess is JSON: a string that holds a JSON text other than a number comes back as
the value which that text denotes.
-/

namespace Keydock

open Effect Handler Json

/-! ## Guesses -/

/-- A string whose text, without the white space around it, is a JSON text and
neither an integer nor a finite number. -/
def TakenForJson (platform : Platform) : Json -> Prop
  | .str text =>
      Text.parseI64 (Text.trim text.toList) = none ∧
        (Binary64.parse (Text.trim text.toList)).any Binary64.isFinite = false ∧
        isJsonText platform (Text.trim text.toList) = true
  | _ => False

section Guesses

variable {platform : Platform}

/-- A text is shown as text unless it is taken for JSON. -/
theorem contentType_of_text (text : String) :
    contentTypeForKind (inferValueKind platform (Bytes.utf8 text) none) = "text/plain; charset=utf-8" ↔
      ¬ TakenForJson platform (.str text) := by
  simp only [inferValueKind, Bytes.fromUtf8_utf8, TakenForJson]
  cases whole : Text.parseI64 (Text.trim text.toList) with
  | some number => simp [contentTypeForKind]
  | none =>
      cases real : (Binary64.parse (Text.trim text.toList)).any Binary64.isFinite with
      | true => simp [contentTypeForKind]
      | false =>
          cases structured : isJsonText platform (Text.trim text.toList) with
          | false => simp [contentTypeForKind]
          | true => simp [contentTypeForKind]

/-- A declared JSON text is shown as JSON. -/
theorem kind_of_declared (body : Bytes) : inferValueKind platform body (some jsonContentType) = .json := by
  have declared : Text.contains "application/json" (Text.toAsciiLowercase jsonContentType.toList) = true := by decide
  simp only [inferValueKind, declared, if_true]

end Guesses

/-! ## Types kept -/

/-- The response shows a string as text, and any other value as JSON that the
reader reads as the value. -/
def KeepsType (read : Bytes -> Option Json) (response : Response) : Json -> Prop
  | .str text => response = Response.ofBytes "text/plain; charset=utf-8" (Bytes.utf8 text)
  | value => Exists fun body => response = Response.ofBytes "application/json" body ∧ read body = some value

theorem keepsType_of_not_text {read : Bytes -> Option Json} {response : Response} {value : Json}
    (notText : forall text, value ≠ .str text) :
    KeepsType read response value ↔
      Exists fun body => response = Response.ofBytes "application/json" body ∧ read body = some value := by
  cases value with
  | str text => exact absurd rfl (notText text)
  | _ => exact Iff.rfl

theorem not_takenForJson {platform : Platform} {value : Json} (notText : forall text, value ≠ .str text) :
    ¬ TakenForJson platform value := by
  cases value with
  | str text => exact absurd rfl (notText text)
  | _ => exact not_false

/-- What is stored for a value that is accepted keeps its type unless it is
taken for JSON. -/
theorem keepsType_iff {platform : Platform} {read : Bytes -> Option Json} {value : Json} {body : Bytes}
    {contentType : Option String} {stored : StoredValue}
    (written : jsonValueToBody platform value = .ok (body, contentType))
    (inferred : KeyService.inferStoredValue platform body contentType = .ok stored)
    (inverts : forall bytes, platform.json.toVec value = some bytes -> read bytes = some value) :
    KeepsType read (storedValueResponse stored) value ↔ ¬ TakenForJson platform value := by
  rcases inferStoredValue_eq_ok inferred with ⟨payload, kind⟩
  rcases jsonValueToBody_eq_ok written with ⟨text, rfl, rfl, rfl⟩ | ⟨notText, produced, rfl⟩
  · rw [← contentType_of_text, KeepsType, storedValueResponse, payload, kind]
    simp [Response.ofBytes]
  · rw [kind_of_declared] at kind
    refine iff_of_true ((keepsType_of_not_text notText).mpr ⟨body, ?_, inverts body produced⟩) (not_takenForJson notText)
    rw [storedValueResponse, payload, kind]
    rfl

/-! ## Requests -/

def TxnItem.raw : TxnItem -> String
  | .set raw _ _ => raw
  | .delete raw => raw

/-- The request is a transaction that succeeds; an item of it sets the key to
the value, and no later item names the key. -/
inductive SetsValue (state : AppState) (store : Store) (request : BucketRequest) (key : Key) (value : Json) : Prop
  | intro {auth : BucketAuth} {body : Bytes} {earlier later : List Json} {tree : Json} {raw : String}
      {ttl : Option UInt64} (resolved : request.authenticated state store = .ok auth)
      (asked : request.route = .executeTxn (.ok body))
      (listed : txnTrees state.platform body = some (earlier ++ tree :: later))
      (shape : txnItemFromJson tree = some (.set raw value ttl)) (named : parsePercentEncodedKey raw = .ok key)
      (last : forall other item, other ∈ later -> txnItemFromJson other = some item ->
        parsePercentEncodedKey item.raw ≠ .ok key)
      (succeeded : ((Request.bucket request).perform state store).1.isSuccess = true)

/-- The request is an authorized read of the key of the bucket. -/
inductive ReadsKey (state : AppState) (store : Store) (request : BucketRequest) (bucket : BucketId) (key : Key) : Prop
  | intro {auth : BucketAuth} {segment : Segment} (resolved : request.authenticated state store = .ok auth)
      (asked : request.route = .getKey segment) (addressed : request.bucketId = bucket)
      (named : pathKey request.bucket segment = .ok key) (allowed : auth.requireReadOn key = .ok ())

theorem forall₂_split {α β : Type} {related : α -> β -> Prop} {earlier later : List α} {item : α} {values : List β}
    (pairs : List.Forall₂ related (earlier ++ item :: later) values) :
    Exists fun before => Exists fun value => Exists fun rest => values = before ++ value :: rest ∧
      related item value ∧ List.Forall₂ related later rest := by
  induction earlier generalizing values with
  | nil =>
      cases pairs with
      | cons here others => exact ⟨[], _, _, rfl, here, others⟩
  | cons first middle ih =>
      cases pairs with
      | cons _ others =>
          rcases ih others with ⟨before, value, rest, rfl, here, after⟩
          exact ⟨_ :: before, value, rest, rfl, here, after⟩

section Requests

variable {state : AppState} {store : Store} {request : BucketRequest} {key : Key} {value : Json}

theorem SetsValue.shallow (sets : SetsValue state store request key value) (rereads : state.platform.json.Rereads) :
    value.depth < 128 := by
  rcases sets with @⟨auth, text, earlier, later, tree, raw, ttl, _, _, listed, shape, _, _, _⟩
  have member : tree ∈ earlier ++ tree :: later := List.mem_append_right earlier List.mem_cons_self
  exact Nat.lt_trans (value_of_txnItem shape).2 (depth_of_txnTrees rereads listed member)

/-- The entry such a transaction leaves under the key. -/
theorem SetsValue.stored (sets : SetsValue state store request key value) :
    Exists fun body => Exists fun contentType => Exists fun stored => Exists fun expiresAt =>
      jsonValueToBody state.platform value = .ok (body, contentType) ∧
      KeyService.inferStoredValue state.platform body contentType = .ok stored ∧
      ((Request.bucket request).perform state store).2.data[dataStorageKey request.bucketId key]? =
        some (entryBytes stored expiresAt) := by
  rcases sets with @⟨auth, text, earlier, later, tree, raw, ttl, resolved, asked, listed, shape, named, last, succeeded⟩
  have stand : Exists fun ops => AllStandFor state auth request.clock 1 (earlier ++ tree :: later) ops := by
    by_contra none
    have failed := (perform_of_not_allStandFor resolved asked listed (fun ops stands => none ⟨ops, stands⟩)).1
    rw [succeeded] at failed
    cases failed
  rcases stand with ⟨ops, stand⟩
  have performed := perform_of_allStandFor resolved asked listed (by simp) stand
  unfold AllStandFor at stand
  rw [List.zipIdx_append, List.zipIdx_cons] at stand
  rcases forall₂_split stand with ⟨before, op, rest, rfl, here, others⟩
  rcases request.authenticated_eq_ok resolved with ⟨policy, identity, _, _, rfl⟩
  cases here with
  | delete other => rw [shape] at other; cases other
  | @set _ _ _ _ body contentType stored expiresAt same parsed allowed written inferred lasting =>
      rw [shape] at same
      cases same
      rw [named] at parsed
      cases parsed
      refine ⟨body, contentType, stored, expiresAt, written, inferred, ?_⟩
      have elsewhere : forall op, op ∈ rest -> dataStorageKey request.bucketId op.key ≠
          dataStorageKey request.bucketId key := by
        intro op member equal
        have sameKey := dataStorageKey_key_injective equal
        rcases exists_of_forall₂ others.flip member with ⟨⟨other, reading⟩, indexed, stands⟩
        have inside : other ∈ later := List.fst_mem_of_mem_zipIdx indexed
        cases stands with
        | set otherShape otherNamed => exact last other _ inside otherShape (otherNamed.trans (congrArg _ sameKey))
        | delete otherShape otherNamed => exact last other _ inside otherShape (otherNamed.trans (congrArg _ sameKey))
      rw [performed, performAlone_eq, List.foldl_append, List.foldl_cons]
      refine (applyTxnOps_other request.bucketId rest _ elsewhere).trans ?_
      exact (Keyspace.get_insert ..).trans (if_pos rfl)

/-- An authorized read of a live key shows its value. -/
theorem ReadsKey.perform {bucket : BucketId} (reads : ReadsKey state store request bucket key) {entry : StoredEntry}
    (found : store.found (request.clock 1) bucket key = some entry) :
    ((Request.bucket request).perform state store).1 = storedValueResponse entry.value := by
  rcases reads with @⟨auth, segment, resolved, asked, rfl, named, allowed⟩
  rcases request.authenticated_eq_ok resolved with ⟨policy, identity, _, _, rfl⟩
  rcases bind_eq_ok.mp named with ⟨raw, captured, parsed⟩
  have live : store.liveEntry (request.clock 1) request.bucketId key = .ok entry := by
    unfold Store.found at found
    cases outcome : store.liveEntry (request.clock 1) request.bucketId key with
    | error error => rw [outcome] at found; cases found
    | ok other =>
        rw [outcome] at found
        cases found
        rfl
  have answer : keyAnswer (request.clock 1) (BucketAuth.ofPolicy request.bucketId policy identity) request.bucket
      segment storedValueResponse store = .ok (storedValueResponse entry.value) := by
    refine bind_eq_ok.mpr ⟨raw, captured, bind_eq_ok.mpr ⟨key, parsed, bind_eq_ok.mpr ⟨(), allowed, ?_⟩⟩⟩
    refine bind_eq_ok.mpr ⟨entry, ?_, rfl⟩
    exact mapError_eq_ok.mpr live
  rw [Request.perform_eq, Request.handler, BucketRequest.eval_handler, resolved, asked]
  simp only [Route.serve, eval_getKey, answer]
  rfl

end Requests

/-- A read of a key that a transaction has set shows the value with its type, as
long as the entry stands and has not expired, exactly when it is not a string
that is taken for JSON. -/
theorem txn_value_keeps_type_iff (state : AppState) (rereads : state.platform.json.Rereads) (store : Store)
    (request : BucketRequest) (key : Key) (value : Json) (sets : SetsValue state store request key value)
    (proper : value.proper = true) (current : Store)
    (stands : current.data[dataStorageKey request.bucketId key]? =
      ((Request.bucket request).perform state store).2.data[dataStorageKey request.bucketId key]?)
    (get : BucketRequest) (reads : ReadsKey state current get request.bucketId key)
    (live : (current.found (get.clock 1) request.bucketId key).isSome = true)
    (read : Bytes -> Option Json) (inverts : state.platform.json.InvertedBy read) :
    KeepsType read ((Request.bucket get).perform state current).1 value ↔ ¬ TakenForJson state.platform value := by
  rcases sets.stored with ⟨body, contentType, stored, expiresAt, written, inferred, left⟩
  have found := Store.found_eq (get.clock 1) (stands.trans left)
  split at found
  next =>
    rw [found] at live
    cases live
  next =>
    rw [reads.perform found]
    exact keepsType_iff written inferred (fun bytes produced => inverts proper (sets.shallow rereads) produced)

namespace StringValue

/-- The item that sets `k` to a value. -/
def item (value : Json) : Json := .obj [("set", .str "k"), ("value", value)]

def body (value : String) : Bytes :=
  Bytes.utf8 ("\x7b\"txn\":[\x7b\"set\":\"k\",\"value\":" ++ value ++ "\x7d]\x7d")

/-- A transaction that sets `k` to a string, one that sets it to a list, and the
texts of both values. -/
def trees : List (Json × Bytes) :=
  [(storedPolicyToJson ExpiredRemoval.policy, ExpiredRemoval.record),
    (.obj [("txn", .arr [item (.str "true")])], body "\"true\""), (.bool true, Bytes.utf8 "true"),
    (.obj [("txn", .arr [item (.arr [.posInt 1])])], body "[1]"), (.arr [.posInt 1], Bytes.utf8 "[1]")]

theorem trees_separate : forall left, left ∈ trees -> forall right, right ∈ trees -> left.2 = right.2 ->
    left.1 = right.1 := by
  decide +kernel

def state : AppState := ⟨Platform.ofJson trees trees_separate [], []⟩

/-- The store after the creation of a bucket without keys. -/
def store : Store := storeAfter state (ExpiredRemoval.history.take 1)

def txn (value : String) : BucketRequest := ExpiredRemoval.request ExpiredRemoval.start (.executeTxn (.ok (body value)))

def get : BucketRequest := ExpiredRemoval.request ExpiredRemoval.start (.getKey ExpiredRemoval.key)

theorem key_short : [(0x6B : UInt8)].length ≤ maxKeyBytes := by decide

def key : Key := ⟨[0x6B], key_short⟩

def auth : BucketAuth := BucketAuth.ofPolicy get.bucketId ExpiredRemoval.policy .anonymous

/-- Anyone may act on the bucket. -/
theorem authenticated (route : Route) {current : Store}
    (found : current.lookupPolicy state.platform get.bucketId = .ok (some ExpiredRemoval.policy)) :
    (ExpiredRemoval.request ExpiredRemoval.start route).authenticated state current = .ok auth := by
  have same : (ExpiredRemoval.request ExpiredRemoval.start route).bucketId = get.bucketId := rfl
  rw [BucketRequest.authenticated, same, found]
  rfl

/-- The store after the transaction. -/
def after (value : String) : Store := ((Request.bucket (txn value)).perform state store).2

theorem sets {text : String} {value : Json}
    (listed : txnTrees state.platform (body text) = some [item value])
    (shape : txnItemFromJson (item value) = some (.set "k" value none))
    (succeeded : ((Request.bucket (txn text)).perform state store).1.isSuccess = true) :
    SetsValue state store (txn text) key value := by
  refine .intro (authenticated _ (by decide +kernel)) rfl (show _ = some ([] ++ item value :: []) from listed) shape
    (by decide +kernel) ?_ succeeded
  intro other _ impossible
  cases impossible

theorem reads {text : String}
    (found : (after text).lookupPolicy state.platform get.bucketId = .ok (some ExpiredRemoval.policy)) :
    ReadsKey state (after text) get (txn text).bucketId key :=
  .intro (authenticated _ found) rfl rfl (by decide +kernel) rfl

end StringValue

open StringValue in
/-- A list is returned as a list. -/
theorem list_value_returned :
    KeepsType state.platform.json.fromSlice ((Request.bucket get).perform state (after "[1]")).1 (.arr [.posInt 1]) := by
  have rereads : state.platform.json.Rereads := SerdeJson.rereads_ofTable trees_separate (by decide +kernel)
  have written : SetsValue state store (txn "[1]") key (.arr [.posInt 1]) :=
    sets (by decide +kernel) rfl (by decide +kernel)
  have answered := txn_value_keeps_type_iff state rereads store (txn "[1]") key (.arr [.posInt 1]) written rfl
    (after "[1]") (by rw [after]) get (reads (by decide +kernel)) (by decide +kernel) state.platform.json.fromSlice
    (SerdeJson.invertedBy_ofTable trees_separate)
  exact answered.mpr not_false

open StringValue in
/-- The string `true` is returned as the truth value. -/
theorem string_returned_as_json :
    SetsValue state store (txn "\"true\"") key (.str "true") ∧
    ReadsKey state (after "\"true\"") get (txn "\"true\"").bucketId key ∧
    ((after "\"true\"").found (get.clock 1) (txn "\"true\"").bucketId key).isSome = true ∧
    ((Request.bucket get).perform state (after "\"true\"")).1 =
      Response.ofBytes "application/json" (Bytes.utf8 "true") ∧
    ¬ KeepsType state.platform.json.fromSlice ((Request.bucket get).perform state (after "\"true\"")).1
      (.str "true") := by
  have answer : ((Request.bucket get).perform state (after "\"true\"")).1 =
      Response.ofBytes "application/json" (Bytes.utf8 "true") := by
    decide +kernel
  refine ⟨sets (by decide +kernel) rfl (by decide +kernel),
    reads (by decide +kernel), by decide +kernel, answer, ?_⟩
  rw [answer]
  intro kept
  have types := congrArg Response.contentType kept
  revert types
  decide

end Keydock
