import Keydock.Foundation.Utf8
import Keydock.Fjall.Counters
import Keydock.Http.Forms
import Keydock.Http.Isolation
import Keydock.Http.PolicyRuns
import Keydock.Http.PolicyUpdates
import Keydock.Http.Sweeping
import Keydock.Sdk.Requests

/-!
# The client of a bucket

A program that holds the secret key of a bucket calls the client: it writes
texts and bytes under names, reads and removes them.  Each call becomes a
request, and the response becomes a value, an absence or a failure.

The bucket is then a shelf to it: one slot for each name, with a payload and
perhaps a deadline.  What happens in other buckets, and when expired entries
are swept, is not seen.  The shelf keeps a slot whose deadline is over until a
sweep comes, because a removal answers by the mere presence of the entry.
-/

namespace Keydock
namespace Sdk

open Handler PercentCoding

/-- A name that neither the resolution of the path nor the decoder of keys
changes. -/
structure PlainName extends KeyName where
  unescaped : hasEscape (Bytes.utf8 text) = false
  ordinary : ¬ toName.isDots

/-! ## Calls -/

/-- A call of the client, with its arguments. -/
inductive ClientCall
  | getText (name : PlainName)
  | getTextOrNull (name : PlainName)
  | getBytes (name : PlainName)
  | getBytesOrNull (name : PlainName)
  | setText (name : PlainName) (value : String) (ttlSeconds : Option UInt64)
  | setBytes (name : PlainName) (value : Bytes) (ttlSeconds : Option UInt64)
  | deleteKey (name : PlainName)
  | keyExists (name : PlainName)

/-- What a call resolves to, or the status with which it throws. -/
inductive ClientResult
  | done
  | text (value : Option String)
  | bytes (value : Option Bytes)
  | answer (value : Bool)
  | failed (status : Nat)
  deriving DecidableEq

/-- The text of a body.  The decoding drops a byte order mark at its start.  A
runtime may look for the mark a second time; what follows a second mark is not
modelled. -/
def bodyText (body : Bytes) : String :=
  String.ofList (Text.fromUtf8Lossy (if [0xEF, 0xBB, 0xBF].isPrefixOf body then body.drop 3 else body))

namespace ClientCall

def name : ClientCall -> PlainName
  | .getText name | .getTextOrNull name | .getBytes name | .getBytesOrNull name | .setText name _ _
  | .setBytes name _ _ | .deleteKey name | .keyExists name => name

/-- The operation that makes the path. -/
def operation (bucket : Name) : ClientCall -> Operation
  | .getText name | .getTextOrNull name | .getBytes name | .getBytesOrNull name => .readKey bucket name.toName
  | .setText name _ _ | .setBytes name _ _ => .writeValue bucket name.toName
  | .deleteKey name => .deleteKey bucket name.toName
  | .keyExists name => .keyExists bucket name.toName

def ttlSeconds : ClientCall -> Option UInt64
  | .setText _ _ ttlSeconds | .setBytes _ _ ttlSeconds => ttlSeconds
  | .getText _ | .getTextOrNull _ | .getBytes _ | .getBytesOrNull _ | .deleteKey _ | .keyExists _ => none

def route : ClientCall -> Route
  | .getText name | .getTextOrNull name | .getBytes name | .getBytesOrNull name => .getKey name.segment
  | .setText name value ttlSeconds =>
      .putKey name.segment (.ok ttlSeconds) (some (Bytes.utf8 "text/plain; charset=utf-8"))
        (extractBody (Bytes.utf8 value))
  | .setBytes name value ttlSeconds =>
      .putKey name.segment (.ok ttlSeconds) (some (Bytes.utf8 "application/octet-stream")) (extractBody value)
  | .deleteKey name => .deleteKey name.segment
  | .keyExists name => .headKey name.segment

/-- The request of a call, with the credential as a Bearer token. -/
def request (bucket : Name) (credential : String) (clock : Clock) (call : ClientCall) : BucketRequest where
  bucket := bucket.segment
  query := call.ttlSeconds.map (fun seconds => "ttl=" ++ toString seconds)
  authorization := some (Bytes.utf8 ("Bearer " ++ credential))
  clock := clock
  route := call.route

/-- What a call makes of the body of a success. -/
def resolved (call : ClientCall) (body : Bytes) : ClientResult :=
  match call with
  | .getText _ | .getTextOrNull _ => .text (some (bodyText body))
  | .getBytes _ | .getBytesOrNull _ => .bytes (some body)
  | .setText _ _ _ | .setBytes _ _ _ | .deleteKey _ => .done
  | .keyExists _ => .answer true

/-- What a call makes of the status that something is missing. -/
def missing : ClientCall -> ClientResult
  | .getTextOrNull _ => .text none
  | .getBytesOrNull _ => .bytes none
  | .keyExists _ => .answer false
  | .getText _ | .getBytes _ | .setText _ _ _ | .setBytes _ _ _ | .deleteKey _ => .failed 404

/-- What a call makes of a response.  A tree in the body is a text that cannot be
empty, and no success of these calls has one. -/
def read (platform : Platform) (call : ClientCall) (response : Response) : ClientResult :=
  if response.isSuccess then
    match response.body with
    | .bytes content => call.resolved content
    | .json tree => call.resolved ((platform.json.toVec tree).getD [])
  else if response.status = 404 then call.missing
  else .failed response.status

theorem read_refused (platform : Platform) (call : ClientCall) {response : Response}
    (refused : response.isSuccess = false) (present : response.status ≠ 404) :
    call.read platform response = .failed response.status := by
  rw [read, refused, if_neg Bool.false_ne_true, if_neg present]

end ClientCall

/-! ## The shelf -/

/-- A value on the shelf. -/
structure Slot where
  payload : Bytes
  deadline : Option OffsetDateTime
  deriving DecidableEq

/-- The deadline is over. -/
def Slot.over (slot : Slot) (now : OffsetDateTime) : Bool := slot.deadline.any (fun deadline => deadline ≤ now)

/-- What a bucket is to its client. -/
abbrev Shelf := String -> Option Slot

namespace Shelf

def live (shelf : Shelf) (now : OffsetDateTime) (name : String) : Option Bytes :=
  ((shelf name).filter (fun slot => !slot.over now)).map Slot.payload

/-- Put a value on the shelf.  One that is too long is refused, by its length
with one status or the other, and so is one whose deadline no calendar has. -/
def put (defaultTtl : Option UInt64) (now : OffsetDateTime) (name : String) (value : Bytes)
    (ttlSeconds : Option UInt64) (shelf : Shelf) : ClientResult × Shelf :=
  if bodyLimit < value.length then (.failed 413, shelf)
  else if maxValueBytes < value.length then (.failed 400, shelf)
  else
    match KeyService.resolveTtl now ttlSeconds defaultTtl with
    | .error _ => (.failed 400, shelf)
    | .ok deadline => (.done, Function.update shelf name (some ⟨value, deadline.map OffsetDateTime.floorSecond⟩))

/-- The meaning of a call. -/
def perform (defaultTtl : Option UInt64) (now : OffsetDateTime) (shelf : Shelf) : ClientCall -> ClientResult × Shelf
  | .getText name =>
      (match shelf.live now name.text with
        | none => .failed 404
        | some value => .text (some (bodyText value)), shelf)
  | .getTextOrNull name => (.text ((shelf.live now name.text).map bodyText), shelf)
  | .getBytes name =>
      (match shelf.live now name.text with
        | none => .failed 404
        | some value => .bytes (some value), shelf)
  | .getBytesOrNull name => (.bytes (shelf.live now name.text), shelf)
  | .setText name value ttlSeconds => shelf.put defaultTtl now name.text (Bytes.utf8 value) ttlSeconds
  | .setBytes name value ttlSeconds => shelf.put defaultTtl now name.text value ttlSeconds
  | .deleteKey name =>
      (if (shelf name.text).isSome then .done else .failed 404, Function.update shelf name.text none)
  | .keyExists name => (.answer (shelf.live now name.text).isSome, shelf)

def sweep (shelf : Shelf) (now : OffsetDateTime) : Shelf :=
  fun name => (shelf name).filter (fun slot => !slot.over now)

end Shelf

/-! ## Runs -/

/-- The bucket a name addresses. -/
def Name.bucketId (name : Name) : BucketId := ⟨name.segment.text⟩

/-- A request that is not about the bucket. -/
def Elsewhere (bucket : BucketId) : Request -> Prop
  | .createBucket fresh _ => fresh.bucketId ≠ bucket
  | .bucket request => request.bucketId ≠ bucket

/-- What happens at the server, as the client of one bucket divides it. -/
inductive ClientStep (bucket : BucketId)
  | call (clock : Clock) (call : ClientCall)
  | elsewhere (request : Request) (apart : Elsewhere bucket request)
  | sweep (now : OffsetDateTime)

section Runs

variable (state : AppState) (bucket : Name) (credential : String)

/-- The results of the calls, as the server answers them. -/
def resultsAtServer : Store -> List (ClientStep bucket.bucketId) -> List ClientResult
  | _, [] => []
  | store, .call clock call :: rest =>
      call.read state.platform ((Request.bucket (call.request bucket credential clock)).perform state store).1 ::
        resultsAtServer ((Request.bucket (call.request bucket credential clock)).perform state store).2 rest
  | store, .elsewhere request _ :: rest => resultsAtServer (request.perform state store).2 rest
  | store, .sweep now :: rest => resultsAtServer (store.sweep now) rest

/-- The results of the calls on a shelf. -/
def resultsOnShelf (defaultTtl : Option UInt64) :
    Shelf -> List (ClientStep bucket.bucketId) -> List ClientResult
  | _, [] => []
  | shelf, .call clock call :: rest =>
      (shelf.perform defaultTtl (clock 1) call).1 ::
        resultsOnShelf defaultTtl (shelf.perform defaultTtl (clock 1) call).2 rest
  | shelf, .elsewhere _ _ :: rest => resultsOnShelf defaultTtl shelf rest
  | shelf, .sweep now :: rest => resultsOnShelf defaultTtl (shelf.sweep now) rest

end Runs

/-- What is stored, as a slot. -/
def Slot.ofStored (bytes : Bytes) : Option Slot :=
  (decodeEntry bytes).toOption.map (fun entry => ⟨entry.value.payload, entry.expiresAt⟩)

/-- The shelf that a bucket is. -/
def Shelf.ofStore (store : Store) (bucket : BucketId) : Shelf := fun name =>
  if bounded : (Bytes.utf8 name).length ≤ maxKeyBytes then
    (store.data[dataStorageKey bucket ⟨Bytes.utf8 name, bounded⟩]?).bind Slot.ofStored
  else none

/-- The credential is the secret key of the bucket, and a header carries it. -/
structure Admits (state : AppState) (policy : BucketPolicy) (credential : String) : Prop where
  carried : credential.toList.all isHeaderChar = true
  trimmed : Text.trim credential.toList = credential.toList
  nonempty : credential.toList ≠ []
  matched : matchesKey state.platform credential state.rootKey policy.secretKeyHash = true

/-! ## One call -/

/-- The bucket holds the shelf. -/
structure Shelved (state : AppState) (bucket : BucketId) (policy : BucketPolicy) (store : Store) (shelf : Shelf) :
    Prop where
  sound : Sound state.platform store
  found : store.lookupPolicy state.platform bucket = .ok (some policy)
  slots : forall name : KeyName,
    (store.data[dataStorageKey bucket name.key]?).map Slot.ofStored = (shelf name.text).map some

/-- The slot an operation leaves behind. -/
def Slot.ofTxnOp : TxnOp -> Option Slot
  | .set _ value expiresAt => some ⟨value.payload, expiresAt.map OffsetDateTime.floorSecond⟩
  | .delete _ => none

theorem Slot.ofStored_entryBytes (value : StoredValue) (expiresAt : Option OffsetDateTime) :
    Slot.ofStored (entryBytes value expiresAt) = some ⟨value.payload, expiresAt.map OffsetDateTime.floorSecond⟩ := by
  rw [Slot.ofStored, decodeEntry_entryBytes]
  rfl

namespace Shelved

variable {state : AppState} {bucket : BucketId} {policy : BucketPolicy} {store : Store} {shelf : Shelf}

/-- Both sides of a slot. -/
theorem slot_cases (shelved : Shelved state bucket policy store shelf) (name : KeyName) :
    (store.data[dataStorageKey bucket name.key]? = none ∧ shelf name.text = none) ∨
    Exists fun value => Exists fun expiresAt =>
      store.data[dataStorageKey bucket name.key]? = some (entryBytes value expiresAt) ∧
        shelf name.text = some ⟨value.payload, expiresAt.map OffsetDateTime.floorSecond⟩ := by
  have same := shelved.slots name
  cases stored : store.data[dataStorageKey bucket name.key]? with
  | none =>
      rw [stored, Option.map_none] at same
      exact .inl ⟨rfl, Option.map_eq_none_iff.mp same.symm⟩
  | some bytes =>
      rcases shelved.sound.indexed.isEntry _ _ stored with ⟨value, expiresAt, rfl⟩
      rw [stored, Option.map_some, Slot.ofStored_entryBytes] at same
      rcases Option.map_eq_some_iff.mp same.symm with ⟨slot, found, equal⟩
      cases equal
      exact .inr ⟨value, expiresAt, rfl, found⟩

/-- A read finds what is live on the shelf. -/
theorem liveEntry_cases (shelved : Shelved state bucket policy store shelf) (now : OffsetDateTime) (name : KeyName) :
    (store.liveEntry now bucket name.key = .error .notFound ∧ shelf.live now name.text = none) ∨
    Exists fun entry => store.liveEntry now bucket name.key = .ok entry ∧
      shelf.live now name.text = some entry.value.payload := by
  rcases shelved.slot_cases name with ⟨missing, absent⟩ | ⟨value, expiresAt, stored, present⟩
  · exact .inl ⟨by rw [Store.liveEntry, missing], by rw [Shelf.live, absent]; rfl⟩
  · have ended : Slot.over ⟨value.payload, expiresAt.map OffsetDateTime.floorSecond⟩ now =
        StoredEntry.expiredAt ⟨value, expiresAt.map OffsetDateTime.floorSecond⟩ now := by
      cases expiresAt <;> rfl
    have lookup : store.liveEntry now bucket name.key =
        if StoredEntry.expiredAt ⟨value, expiresAt.map OffsetDateTime.floorSecond⟩ now then .error .notFound
        else .ok ⟨value, expiresAt.map OffsetDateTime.floorSecond⟩ := by
      simp only [Store.liveEntry, stored, decodeEntry_entryBytes]
    rw [lookup, Shelf.live, present, Option.filter_some, ended]
    cases StoredEntry.expiredAt ⟨value, expiresAt.map OffsetDateTime.floorSecond⟩ now with
    | true => exact .inl ⟨rfl, rfl⟩
    | false => exact .inr ⟨_, rfl, rfl⟩

theorem applyTxnOp (shelved : Shelved state bucket policy store shelf) (name : KeyName) (op : TxnOp)
    (about : op.key = name.key) :
    Shelved state bucket policy (Store.applyTxnOp bucket store op)
      (Function.update shelf name.text (Slot.ofTxnOp op)) where
  sound := by
    rcases shelved.sound.bucket_of_lookupPolicy shelved.found with ⟨id, rfl⟩
    exact shelved.sound.applyTxnOps id [op]
  found := by
    cases op <;> exact shelved.found
  slots := by
    intro other
    rw [applyTxnOp_data, about]
    by_cases same : name.text = other.text
    · have sameKey : name.key = other.key := by simp only [KeyName.key, same]
      rw [sameKey, if_pos rfl, ← same, Function.update_self]
      cases op with
      | set key value expiresAt => exact congrArg some (Slot.ofStored_entryBytes value expiresAt)
      | delete key => rfl
    · have apart : dataStorageKey bucket name.key ≠ dataStorageKey bucket other.key :=
        fun equal => same (KeyName.key_injective (dataStorageKey_key_injective equal))
      rw [if_neg apart, Function.update_of_ne (Ne.symm same)]
      exact shelved.slots other

theorem sweep (shelved : Shelved state bucket policy store shelf) (now : OffsetDateTime) :
    Shelved state bucket policy (store.sweep now) (shelf.sweep now) where
  sound := shelved.sound.sweep now
  found := (Store.lookupPolicy_congr (by rw [shelved.sound.indexed.sweep_metadata now])).trans shelved.found
  slots := by
    intro name
    rw [shelved.sound.indexed.sweep_data now]
    rcases shelved.slot_cases name with ⟨missing, absent⟩ | ⟨value, expiresAt, stored, present⟩
    · rw [missing, Shelf.sweep, absent]
      rfl
    · have ended : Slot.over ⟨value.payload, expiresAt.map OffsetDateTime.floorSecond⟩ now =
          StoredEntry.expiredAt ⟨value, expiresAt.map OffsetDateTime.floorSecond⟩ now := by
        cases expiresAt <;> rfl
      rw [stored, Shelf.sweep, present, Option.filter_some, Option.filter_some, ended, expiredAt_read]
      split
      · exact congrArg some (Slot.ofStored_entryBytes value expiresAt)
      · rfl

/-- Nothing that happens elsewhere touches the shelf. -/
theorem elsewhere (shelved : Shelved state bucket policy store shelf) {request : Request}
    (apart : Elsewhere bucket request) :
    Shelved state bucket policy (request.perform state store).2 shelf := by
  rcases shelved.sound.bucket_of_lookupPolicy shelved.found with ⟨id, rfl⟩
  refine ⟨Request.perform_sound shelved.sound request, ?_, ?_⟩
  · refine (Store.lookupPolicy_congr ?_).trans shelved.found
    cases request with
    | createBucket fresh form =>
        rcases createBucket_cases state fresh form store with same | ⟨_, _, bytes, _, _, _, same⟩
        · rw [same]
        · rw [same, Store.writePolicy, Keyspace.get_insert,
            if_neg (fun equal => apart (BucketId.ext_str (Bytes.utf8_injective equal)))]
    | bucket request =>
        apply by_contra
        intro changed
        exact apart (policy_change_admin state request id.bucketId changed).1
  · intro name
    rw [← shelved.slots name]
    cases request with
    | createBucket fresh form =>
        rcases createBucket_cases state fresh form store with same | ⟨_, _, bytes, _, _, _, same⟩
        · rw [same]
        · rw [same]
          rfl
    | bucket request =>
        rw [perform_sameEntries shelved.sound request apart name.key]

end Shelved

/-- A text that a header carries arrives as a Bearer credential. -/
theorem extract_carried {text : String} (carried : text.toList.all isHeaderChar = true)
    (trimmed : Text.trim text.toList = text.toList) (nonempty : text.toList ≠ []) (query : Option String) :
    extract (some (Bytes.utf8 ("Bearer " ++ text))) query = some (.bearer text) := by
  rw [extract_bearer, trimmed, if_pos ⟨carried, nonempty⟩, String.ofList_toList]

/-- A holder of the secret key is the administrator. -/
theorem Admits.authenticated {state : AppState} {policy : BucketPolicy} {credential : String}
    (admits : Admits state policy credential) {store : Store} {request : BucketRequest}
    (found : store.lookupPolicy state.platform request.bucketId = .ok (some policy))
    (presented : request.authorization = some (Bytes.utf8 ("Bearer " ++ credential))) :
    request.authenticated state store = .ok (BucketAuth.ofPolicy request.bucketId policy .admin) := by
  have arrived : extract request.parts.authorization request.parts.query = some (.bearer credential) := by
    rw [BucketRequest.parts, presented]
    exact extract_carried admits.carried admits.trimmed admits.nonempty _
  simp only [BucketRequest.authenticated, found, BucketAuth.authenticate, arrived, Option.map_some,
    RawCredential.asStr, resolve, admits.matched, if_true]

/-- A name reaches its key through the path. -/
theorem PlainName.reaches (name : PlainName) (bucket : Name) : Exists fun raw =>
    pathParams bucket.segment name.segment = .ok raw ∧ parsePercentEncodedKey raw = .ok name.key := by
  have onPath := (name.onPath_eq_key_iff bucket).mpr name.unescaped
  rw [KeyName.onPath, pathKey] at onPath
  rcases bind_eq_ok.mp onPath with ⟨raw, params, parsed⟩
  exact ⟨raw, params, parsed⟩

/-- A deadline is refused as a bad argument. -/
theorem resolveTtl_error {now : OffsetDateTime} {ttlSeconds defaultTtl : Option UInt64} {error : UseCaseError}
    (refused : KeyService.resolveTtl now ttlSeconds defaultTtl = .error error) :
    Exists fun reason => error = .domain reason := by
  unfold KeyService.resolveTtl at refused
  split at refused
  next => cases refused
  next seconds _ =>
    split at refused
    next => cases refused
    next =>
      split at refused
      next =>
        cases refused
        exact ⟨_, rfl⟩
      next =>
        split at refused
        next =>
          cases refused
          exact ⟨_, rfl⟩
        next => cases refused

section Calls

variable {state : AppState} {bucket : Name} {policy : BucketPolicy} {store : Store} {shelf : Shelf}

/-- The administrator of the bucket, as the handlers see it. -/
def administrator (bucket : Name) (policy : BucketPolicy) : BucketAuth :=
  BucketAuth.ofPolicy bucket.bucketId policy .admin

/-- A read answers with what is live on the shelf. -/
theorem keyAnswer_cases (shelved : Shelved state bucket.bucketId policy store shelf) (now : OffsetDateTime)
    (name : PlainName) (render : StoredValue -> Response) :
    (keyAnswer now (administrator bucket policy) bucket.segment name.segment render store = .error notFound ∧
      shelf.live now name.text = none) ∨
    Exists fun value => keyAnswer now (administrator bucket policy) bucket.segment name.segment render store =
      .ok (render value) ∧ shelf.live now name.text = some value.payload := by
  rcases name.reaches bucket with ⟨raw, params, parsed⟩
  have allowed : (administrator bucket policy).requireReadOn name.key = .ok () := rfl
  rcases shelved.liveEntry_cases now name.toKeyName with ⟨missing, absent⟩ | ⟨entry, found, present⟩
  · refine .inl ⟨?_, absent⟩
    have lookup : store.liveEntry now (administrator bucket policy).bucketId name.key = .error .notFound := missing
    simp only [keyAnswer, params, parsed, allowed, lookup, bind, Except.bind]
    rfl
  · refine .inr ⟨entry.value, ?_, present⟩
    have lookup : store.liveEntry now (administrator bucket policy).bucketId name.key = .ok entry := found
    simp only [keyAnswer, params, parsed, allowed, lookup, bind, Except.bind]
    rfl

/-- A write puts the value on the shelf, or is refused on both sides. -/
theorem putKey_shelved (shelved : Shelved state bucket.bucketId policy store shelf) (clock : Clock) (name : PlainName)
    (ttlSeconds : Option UInt64) (contentType : Option Bytes) (value : Bytes) :
    (Exists fun refusal : Response =>
      eval state.platform (putKey state clock (administrator bucket policy) bucket.segment name.segment (.ok ttlSeconds)
        contentType (extractBody value)) store = (.error refusal, store) ∧
      refusal.isSuccess = false ∧ refusal.status ≠ 404 ∧
      shelf.put policy.defaultTtlSecs (clock 1) name.text value ttlSeconds = (.failed refusal.status, shelf)) ∨
    Exists fun stored : StoredValue => Exists fun after =>
      eval state.platform (putKey state clock (administrator bucket policy) bucket.segment name.segment (.ok ttlSeconds)
        contentType (extractBody value)) store = (.ok (storedValueResponse stored), after) ∧
      (shelf.put policy.defaultTtlSecs (clock 1) name.text value ttlSeconds).1 = .done ∧
      Shelved state bucket.bucketId policy after
        (shelf.put policy.defaultTtlSecs (clock 1) name.text value ttlSeconds).2 := by
  rcases name.reaches bucket with ⟨raw, params, parsed⟩
  have allowed : (administrator bucket policy).requireWriteOn name.key = .ok () := rfl
  simp only [putKey, eval_bind, eval_known, params, parsed, allowed, eval_spawnUsecase, Task.eval_set, eval_pure]
  generalize (contentType.bind headerToStr).map String.ofList = declared
  by_cases endless : bodyLimit < value.length
  · refine .inl ⟨payloadTooLarge, ?_, rfl, by decide, by rw [Shelf.put, if_pos endless]; rfl⟩
    simp only [extractBody, if_pos endless]
  rw [extractBody_of_short (Nat.not_lt.mp endless)]
  simp only [KeyService.inferStoredValue]
  by_cases long : maxValueBytes < value.length
  · have refused : StoredValue.new value (inferValueKind state.platform value declared) =
        .error (.valueTooLong maxValueBytes value.length) := dif_neg (Nat.not_le_of_lt long)
    refine .inl ⟨badRequest, ?_, rfl, by decide, by rw [Shelf.put, if_neg endless, if_pos long]; rfl⟩
    simp only [refused, Except.mapError]
    rfl
  · have kept : StoredValue.new value (inferValueKind state.platform value declared) =
        .ok ⟨value, inferValueKind state.platform value declared, Nat.le_of_not_lt long⟩ :=
      dif_pos (Nat.le_of_not_lt long)
    have defaulted : (administrator bucket policy).defaultTtlSecs = policy.defaultTtlSecs := rfl
    simp only [kept, Except.mapError, defaulted, Shelf.put, if_neg endless, if_neg long]
    cases resolved : KeyService.resolveTtl (clock 1) ttlSeconds policy.defaultTtlSecs with
    | error error =>
        rcases resolveTtl_error resolved with ⟨reason, rfl⟩
        exact .inl ⟨badRequest, rfl, rfl, by decide, rfl⟩
    | ok expiresAt =>
        exact .inr ⟨_, _, rfl, rfl, shelved.applyTxnOp name.toKeyName (.set name.key _ expiresAt) rfl⟩

/-- What the server answers to a call is what the shelf says, and the bucket
holds the shelf that the call leaves. -/
theorem call_shelved (shelved : Shelved state bucket.bucketId policy store shelf) {credential : String}
    (admits : Admits state policy credential) (clock : Clock) (call : ClientCall) :
    call.read state.platform ((Request.bucket (call.request bucket credential clock)).perform state store).1 =
        (shelf.perform policy.defaultTtlSecs (clock 1) call).1 ∧
      Shelved state bucket.bucketId policy
        ((Request.bucket (call.request bucket credential clock)).perform state store).2
        (shelf.perform policy.defaultTtlSecs (clock 1) call).2 := by
  have performed : (Request.bucket (call.request bucket credential clock)).perform state store =
      (outcome (eval state.platform (call.route.serve state clock bucket.segment (administrator bucket policy)) store).1,
        (eval state.platform (call.route.serve state clock bucket.segment (administrator bucket policy)) store).2) := by
    rw [Request.perform_eq, Request.handler, BucketRequest.eval_handler, admits.authenticated shelved.found rfl]
    rfl
  rw [performed]
  cases call with
  | getText name | getTextOrNull name | getBytes name | getBytesOrNull name =>
      simp only [ClientCall.route, Route.serve, eval_getKey, Shelf.perform]
      rcases keyAnswer_cases shelved (clock 1) name storedValueResponse with ⟨missing, absent⟩ | ⟨value, found, present⟩
      · rw [missing, absent]
        exact ⟨rfl, shelved⟩
      · rw [found, present]
        exact ⟨rfl, shelved⟩
  | keyExists name =>
      simp only [ClientCall.route, Route.serve, eval_headKey, Shelf.perform]
      rcases keyAnswer_cases shelved (clock 1) name (fun value =>
        Response.ofBytes (contentTypeForKind value.kind) []) with ⟨missing, absent⟩ | ⟨value, found, present⟩
      · rw [missing, absent]
        exact ⟨rfl, shelved⟩
      · rw [found, present]
        exact ⟨rfl, shelved⟩
  | setText name value ttlSeconds =>
      simp only [ClientCall.route, Route.serve, Shelf.perform]
      rcases putKey_shelved shelved clock name ttlSeconds (some (Bytes.utf8 "text/plain; charset=utf-8"))
        (Bytes.utf8 value) with ⟨refusal, refused, failed, present, kept⟩ | ⟨stored, after, written, done, held⟩
      · rw [refused, kept]
        exact ⟨ClientCall.read_refused _ _ failed present, shelved⟩
      · rw [written, done]
        exact ⟨rfl, held⟩
  | setBytes name value ttlSeconds =>
      simp only [ClientCall.route, Route.serve, Shelf.perform]
      rcases putKey_shelved shelved clock name ttlSeconds (some (Bytes.utf8 "application/octet-stream"))
        value with ⟨refusal, refused, failed, present, kept⟩ | ⟨stored, after, written, done, held⟩
      · rw [refused, kept]
        exact ⟨ClientCall.read_refused _ _ failed present, shelved⟩
      · rw [written, done]
        exact ⟨rfl, held⟩
  | deleteKey name =>
      rcases name.reaches bucket with ⟨raw, params, parsed⟩
      have deleted : deletable (administrator bucket policy) bucket.segment name.segment = .ok name.key := by
        simp only [deletable, params, parsed, bind, Except.bind]
        rfl
      have removed := shelved.applyTxnOp name.toKeyName (.delete name.key) rfl
      simp only [ClientCall.route, Route.serve, eval_deleteKey, deleted, Shelf.perform]
      rcases shelved.slot_cases name.toKeyName with ⟨missing, absent⟩ | ⟨value, expiresAt, stored, present⟩
      · have looked : store.data[dataStorageKey (administrator bucket policy).bucketId name.key]? = none := missing
        rw [Store.applyTxnOp, Store.erase_of_missing missing] at removed
        simp only [looked, absent]
        exact ⟨rfl, removed⟩
      · have looked : store.data[dataStorageKey (administrator bucket policy).bucketId name.key]? =
            some (entryBytes value expiresAt) := stored
        simp only [looked, present]
        exact ⟨rfl, removed⟩

end Calls

/-! ## Whole runs -/

theorem results_shelved {state : AppState} {bucket : Name} {policy : BucketPolicy} {credential : String}
    (admits : Admits state policy credential) (steps : List (ClientStep bucket.bucketId)) {store : Store}
    {shelf : Shelf} (shelved : Shelved state bucket.bucketId policy store shelf) :
    resultsAtServer state bucket credential store steps = resultsOnShelf bucket policy.defaultTtlSecs shelf steps := by
  induction steps generalizing store shelf with
  | nil => rfl
  | cons step rest ih =>
      cases step with
      | call clock call =>
          rcases call_shelved shelved admits clock call with ⟨same, held⟩
          rw [resultsAtServer, resultsOnShelf, same, ih held]
      | elsewhere request apart => exact ih (shelved.elsewhere apart)
      | sweep now => exact ih (shelved.sweep now)

theorem shelved_ofStore {state : AppState} {bucket : BucketId} {policy : BucketPolicy} {store : Store}
    (sound : Sound state.platform store) (found : store.lookupPolicy state.platform bucket = .ok (some policy)) :
    Shelved state bucket policy store (Shelf.ofStore store bucket) where
  sound := sound
  found := found
  slots := by
    intro name
    rw [Shelf.ofStore, dif_pos name.bounded]
    cases stored : store.data[dataStorageKey bucket name.key]? with
    | none =>
        rw [KeyName.key] at stored
        rw [stored]
        rfl
    | some bytes =>
        rcases sound.indexed.isEntry _ _ stored with ⟨value, expiresAt, rfl⟩
        rw [KeyName.key] at stored
        rw [stored, Option.map_some, Option.bind_some, Slot.ofStored_entryBytes]
        rfl

/-- A bucket that exists has no dot in its name. -/
theorem not_isDots_of_found {state : AppState} {bucket : Name} {policy : BucketPolicy} {store : Store}
    (sound : Sound state.platform store)
    (found : store.lookupPolicy state.platform bucket.bucketId = .ok (some policy)) : ¬ bucket.isDots := by
  rcases sound.bucket_of_lookupPolicy found with ⟨id, same⟩
  have text : (encodeURIComponent bucket.text).toList = id.hyphenated := by
    have named : encodeURIComponent bucket.text = id.toString := congrArg BucketId.asStr same
    rw [named, Uuid.toString, String.toList_ofList]
  have dotless : '.' ∉ id.hyphenated := fun member => absurd (Uuid.mem_hyphenated member) (by decide)
  rintro (dot | dots)
  · rw [dot] at text
    exact dotless (text ▸ by decide)
  · rw [dots] at text
    exact dotless (text ▸ by decide)

/-- A bucket is a shelf to the holder of its secret key.  After any history of
the server, whatever is done in other buckets and whenever expired entries are
swept, every call of the client is sent to the handler that it is meant for,
and the results of all calls are those of the shelf that the bucket then was. -/
theorem client_calls_on_shelf (exposeMetrics : Bool) {pathname : List Char}
    (served : basePath pathname = (apiPrefix ++ "/").toList) (state : AppState) (history : List Event) (bucket : Name)
    (policy : BucketPolicy)
    (found : (storeAfter state history).lookupPolicy state.platform bucket.bucketId = .ok (some policy))
    (credential : String) (admits : Admits state policy credential) (steps : List (ClientStep bucket.bucketId)) :
    (forall call : ClientCall, Exists fun path => (call.operation bucket).path = .ok path ∧
      dispatch exposeMetrics (call.operation bucket).method (Operation.sentTo pathname path) =
        .handler call.route.name (call.route.params bucket.segment.text)) ∧
    resultsAtServer state bucket credential (storeAfter state history) steps =
      resultsOnShelf bucket policy.defaultTtlSecs (Shelf.ofStore (storeAfter state history) bucket.bucketId) steps := by
  have sound := storeAfter_sound state history
  refine ⟨?_, results_shelved admits steps (shelved_ofStore sound found)⟩
  intro call
  rcases (call.operation bucket).path_eq with ⟨path, sent, chars⟩
  have plain : forall name, name ∈ (call.operation bucket).names -> ¬ name.isDots := by
    have both : (call.operation bucket).names = [bucket, call.name.toName] := by cases call <;> rfl
    intro name member
    rw [both] at member
    rcases List.mem_cons.mp member with rfl | second
    · exact not_isDots_of_found sound found
    · rw [List.mem_singleton.mp second]
      exact call.name.ordinary
  refine ⟨path, sent, (Operation.dispatch_of_plain exposeMetrics served chars plain).trans ?_⟩
  cases call <;> rfl

namespace ShelfRun

open Rotation (state id)

theorem requests_served : basePath ['/'] = (apiPrefix ++ "/").toList := by decide

def bucket : Name := ⟨"0b7e4ac2-6f0e-4a53-9d6b-1f2f0c3f9a11", by decide⟩

theorem name_nonempty : "k" ≠ "" := by decide

theorem name_short : (Bytes.utf8 "k").length ≤ maxKeyBytes := by decide

theorem name_ordinary : ¬ Name.isDots ⟨"k", name_nonempty⟩ := by
  rintro (same | same) <;> exact absurd same (by decide)

def name : PlainName := ⟨⟨⟨"k", name_nonempty⟩, name_short⟩, by decide, name_ordinary⟩

def history : List Event :=
  [.request (.createBucket id (.ok ⟨"a@b.c", some "s3cret", none, none, some "old", none⟩))]

theorem found : (storeAfter state history).lookupPolicy state.platform bucket.bucketId =
    .ok (some (Rotation.policy "old" 0 604800)) := by
  decide +kernel

theorem admits : Admits state (Rotation.policy "old" 0 604800) "s3cret" where
  carried := by decide
  trimmed := by decide
  nonempty := by decide
  matched := by decide +kernel

theorem thousand_pos : 0 < 1000 := by decide

/-- The time after some seconds. -/
def moment (seconds : Nat) : OffsetDateTime :=
  TwoIncrements.second ⟨seconds % 1000, Nat.mod_lt seconds thousand_pos⟩

/-- All readings of the clock at a second. -/
def atSecond (seconds : Nat) : Clock := fun _ => moment seconds

/-- A value with ten seconds to live is read, has expired, and is removed. -/
def steps : List (ClientStep bucket.bucketId) :=
  [.call (atSecond 0) (.setText name "hi" (some 10)), .sweep (moment 5),
    .call (atSecond 9) (.getTextOrNull name), .call (atSecond 10) (.getTextOrNull name),
    .call (atSecond 11) (.deleteKey name), .call (atSecond 12) (.deleteKey name)]

end ShelfRun

open ShelfRun in
open Rotation (state) in
theorem expiring_text_on_shelf : resultsAtServer state bucket "s3cret" (storeAfter state history) steps =
    [.done, .text (some "hi"), .text none, .done, .failed 404] := by
  have same := (client_calls_on_shelf false requests_served state history bucket _ found "s3cret" admits steps).2
  exact same.trans (by decide +kernel)

/-! ## Texts -/

def byteOrderMark : Char := '\ufeff'

theorem utf8EncodeChar_byteOrderMark : String.utf8EncodeChar byteOrderMark = [0xEF, 0xBB, 0xBF] := by decide

theorem byteOrderMark_isPrefixOf_iff (text : String) :
    [0xEF, 0xBB, 0xBF].isPrefixOf (Bytes.utf8 text) = true ↔ text.toList.head? = some byteOrderMark := by
  rw [← utf8EncodeChar_byteOrderMark, List.isPrefixOf_iff_prefix]
  constructor
  · rintro ⟨rest, split⟩
    have chars := Text.fromUtf8Lossy_utf8 text
    rw [← split, Text.fromUtf8Lossy_utf8EncodeChar] at chars
    rw [← chars, List.head?_cons]
  · intro first
    rcases List.head?_eq_some_iff.mp first with ⟨rest, chars⟩
    rw [Bytes.utf8_toList, chars, List.flatMap_cons]
    exact List.prefix_append _ _

/-- A text that is sent as its bytes is read back, unless it starts with a byte
order mark. -/
theorem bodyText_utf8_iff (text : String) :
    bodyText (Bytes.utf8 text) = text ↔ text.toList.head? ≠ some byteOrderMark := by
  rw [ne_eq, ← byteOrderMark_isPrefixOf_iff]
  by_cases marked : [0xEF, 0xBB, 0xBF].isPrefixOf (Bytes.utf8 text) = true
  · refine ⟨fun same => ?_, fun unmarked => absurd marked unmarked⟩
    -- What is read back is shorter by the mark.
    rcases List.isPrefixOf_iff_prefix.mp marked with ⟨rest, split⟩
    have chars := Text.fromUtf8Lossy_utf8 text
    rw [← split, ← utf8EncodeChar_byteOrderMark, Text.fromUtf8Lossy_utf8EncodeChar] at chars
    have tail : (Bytes.utf8 text).drop 3 = rest := by
      rw [← split]
      rfl
    have shown := congrArg String.toList same
    rw [bodyText, if_pos marked, String.toList_ofList, tail, ← chars] at shown
    exact absurd (congrArg List.length shown) (by simp)
  · refine ⟨fun _ => marked, fun _ => ?_⟩
    rw [bodyText, if_neg marked, Text.fromUtf8Lossy_utf8, String.ofList_toList]

/-- A text that the client writes without a deadline is read back as it was
exactly when it does not start with a byte order mark. -/
theorem text_read_back_iff (state : AppState) (history : List Event) (bucket : Name) (policy : BucketPolicy)
    (found : (storeAfter state history).lookupPolicy state.platform bucket.bucketId = .ok (some policy))
    (credential : String) (admits : Admits state policy credential) (name : PlainName) (value : String)
    (short : (Bytes.utf8 value).length ≤ maxValueBytes) (written read : Clock) :
    resultsAtServer state bucket credential (storeAfter state history)
        [.call written (.setText name value (some 0)), .call read (.getText name)] = [.done, .text (some value)] ↔
      value.toList.head? ≠ some byteOrderMark := by
  rw [results_shelved admits _ (shelved_ofStore (storeAfter_sound state history) found), ← bodyText_utf8_iff]
  have lasting : KeyService.resolveTtl (written 1) (some 0) policy.defaultTtlSecs = .ok none := rfl
  have buffered : (Bytes.utf8 value).length ≤ bodyLimit := Nat.le_trans short (by decide)
  simp only [resultsOnShelf, Shelf.perform, Shelf.put, if_neg (Nat.not_lt.mpr buffered),
    if_neg (Nat.not_lt.mpr short), lasting, Shelf.live,
    Function.update_self, Option.filter_some, Slot.over, Option.map_none, Option.any_none, Bool.not_false, if_true,
    Option.map_some, List.cons.injEq, ClientResult.text.injEq, Option.some.injEq, and_true, true_and]

open ShelfRun in
open Rotation (state) in
theorem marked_text_shortened : (resultsAtServer state bucket "s3cret" (storeAfter state history)
    [.call (atSecond 0) (.setText name (String.ofList [byteOrderMark, 'h']) (some 0)),
      .call (atSecond 1) (.getText name)] ≠ [.done, .text (some (String.ofList [byteOrderMark, 'h']))]) ∧
    resultsAtServer state bucket "s3cret" (storeAfter state history)
      [.call (atSecond 0) (.setText name "h" (some 0)), .call (atSecond 1) (.getText name)] =
        [.done, .text (some "h")] := by
  constructor
  · intro same
    exact (text_read_back_iff state history bucket _ found "s3cret" admits name _ (by decide) _ _).mp same (by decide)
  · exact (text_read_back_iff state history bucket _ found "s3cret" admits name "h" (by decide) _ _).mpr (by decide)

end Sdk
end Keydock
