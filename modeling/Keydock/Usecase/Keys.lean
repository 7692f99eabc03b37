import Keydock.Foundation.Program
import Keydock.Domain.Platform
import Keydock.Usecase.Ports

/-!
# Key use cases

The operations of the persistence port as a signature, and the key use cases
as programs over it: type inference, selection of the time to live, and
delegation to the repository.  Each use case makes one storage call.  Clock
readings are arguments.
-/

namespace Keydock

open Effect

/-- The calls of the persistence ports. -/
inductive StorageOp
  | getPolicy (bucket : BucketId)
  | createBucket (id : BucketId) (policy : BucketPolicy)
  | deleteBucket (id : BucketId)
  | get (bucket : BucketId) (key : Key)
  | set (bucket : BucketId) (key : Key) (value : StoredValue) (expiresAt : Option OffsetDateTime)
  | delete (bucket : BucketId) (key : Key)
  | list (bucket : BucketId) (opts : ListOpts)
  | increment (now : OffsetDateTime) (bucket : BucketId) (key : Key) (op : CounterOp)
      (expiresAt : Option OffsetDateTime)
  | applyBatch (bucket : BucketId) (ops : List TxnOp)

def StorageOp.Result : StorageOp -> Type
  | .getPolicy _ => Except TaskError (Option BucketPolicy)
  | .createBucket _ _ => Except TaskError Unit
  | .deleteBucket _ => Except TaskError Unit
  | .get _ _ => Except TaskError (Option StoredEntry)
  | .set _ _ _ _ => Except TaskError Unit
  | .delete _ _ => Except TaskError Bool
  | .list _ _ => Except TaskError (List ListEntry)
  | .increment _ _ _ _ _ => Except TaskError StoredValue
  | .applyBatch _ _ => Except TaskError Unit

def storageOps : Signature := ⟨StorageOp, StorageOp.Result⟩

/-- A blocking task of the use-case layer. -/
abbrev Task (α : Type) := ExceptT TaskError (Program storageOps) α

/-! Each storage call as a task of one step. -/

namespace Repo

def getPolicy (bucket : BucketId) : Task (Option BucketPolicy) :=
  ExceptT.mk (Program.perform (S := storageOps) (.getPolicy bucket))

def createBucket (id : BucketId) (policy : BucketPolicy) : Task Unit :=
  ExceptT.mk (Program.perform (S := storageOps) (.createBucket id policy))

def deleteBucket (id : BucketId) : Task Unit :=
  ExceptT.mk (Program.perform (S := storageOps) (.deleteBucket id))

def get (bucket : BucketId) (key : Key) : Task (Option StoredEntry) :=
  ExceptT.mk (Program.perform (S := storageOps) (.get bucket key))

def set (bucket : BucketId) (key : Key) (value : StoredValue) (expiresAt : Option OffsetDateTime) : Task Unit :=
  ExceptT.mk (Program.perform (S := storageOps) (.set bucket key value expiresAt))

def delete (bucket : BucketId) (key : Key) : Task Bool :=
  ExceptT.mk (Program.perform (S := storageOps) (.delete bucket key))

def list (bucket : BucketId) (opts : ListOpts) : Task (List ListEntry) :=
  ExceptT.mk (Program.perform (S := storageOps) (.list bucket opts))

def increment (now : OffsetDateTime) (bucket : BucketId) (key : Key) (op : CounterOp)
    (expiresAt : Option OffsetDateTime) : Task StoredValue :=
  ExceptT.mk (Program.perform (S := storageOps) (.increment now bucket key op expiresAt))

def applyBatch (bucket : BucketId) (ops : List TxnOp) : Task Unit :=
  ExceptT.mk (Program.perform (S := storageOps) (.applyBatch bucket ops))

end Repo

/-! ## Type inference and time to live -/

/-- The text parses as a generic JSON value. -/
def isJsonText (platform : Platform) (text : List Char) : Bool :=
  match platform.json.fromSlice (Bytes.utf8 (String.ofList text)) with
  | none => false
  | some tree => tree.readable

/-- The media type of a content type, without its parameters. -/
def mimeOf (lower : List Char) : List Char :=
  match Text.splitOnce ';' lower with
  | some (mime, _) => Text.trim mime
  | none => Text.trim lower

def inferValueKind (platform : Platform) (body : Bytes) (contentType : Option String) : ValueKind :=
  let byContent : ValueKind :=
    match Bytes.fromUtf8 body with
    | none => .raw
    | some text =>
        let trimmed := Text.trim text.toList
        if (Text.parseI64 trimmed).isSome then .int64
        else if (Binary64.parse trimmed).any Binary64.isFinite then .float64
        else if isJsonText platform trimmed then .json
        else .utf8
  match contentType with
  | none => byContent
  | some declared =>
      let lower := Text.toAsciiLowercase declared.toList
      if Text.contains "application/json" lower then .json
      else if mimeOf lower = "text/plain".toList then
        if (Bytes.fromUtf8 body).isSome then .utf8 else .raw
      else byContent

namespace KeyService

def inferStoredValue (platform : Platform) (body : Bytes) (contentType : Option String) :
    Except UseCaseError StoredValue :=
  (StoredValue.new body (inferValueKind platform body contentType)).mapError UseCaseError.domain

/-- The instant at which an entry written now expires; `none` is never. -/
def resolveTtl (now : OffsetDateTime) (ttlOverride defaultTtl : Option UInt64) :
    Except UseCaseError (Option OffsetDateTime) :=
  match ttlOverride.or defaultTtl with
  | none => .ok none
  | some seconds =>
      if seconds = 0 then .ok none
      else if 2 ^ 63 ≤ seconds.toNat then
        .error (.domain (.invalidTtl "ttl seconds out of supported range"))
      else
        match now.checkedAddSeconds seconds.toInt64 with
        | none => .error (.domain (.invalidTtl "ttl resulting instant out of range"))
        | some instant => .ok (some instant)

/-- An outcome of the use-case layer that needs no storage. -/
def known {α : Type} (outcome : Except UseCaseError α) : Task α :=
  ExceptT.mk (.done (outcome.mapError TaskError.useCase))

def get (now : OffsetDateTime) (bucket : BucketId) (key : Key) : Task StoredEntry := do
  match <- Repo.get bucket key with
  | none => known (.error .notFound)
  | some entry => if entry.expiredAt now then known (.error .notFound) else return entry

end KeyService

/-- Listing inputs before defaults. -/
structure ListOptsInput where
  keyPrefix : Option Bytes
  limit : Option UInt64
  skip : Option UInt64
  reverse : Option Bool
  includeValues : Option Bool

namespace KeyService

def defaultLimit : UInt64 := 10000

def listOpts (now : OffsetDateTime) (input : ListOptsInput) : ListOpts where
  keyPrefix := input.keyPrefix
  limit := input.limit.getD defaultLimit
  skip := input.skip.getD 0
  reverse := input.reverse.getD false
  includeValues := input.includeValues.getD false
  expiresBefore := some now

def list (now : OffsetDateTime) (bucket : BucketId) (input : ListOptsInput) : Task (List ListEntry) :=
  Repo.list bucket (listOpts now input)

def set (platform : Platform) (now : OffsetDateTime) (bucket : BucketId) (key : Key) (body : Bytes)
    (contentType : Option String) (ttlOverride defaultTtl : Option UInt64) : Task StoredValue := do
  let value <- known (inferStoredValue platform body contentType)
  let expiresAt <- known (resolveTtl now ttlOverride defaultTtl)
  Repo.set bucket key value expiresAt
  return value

/-- The store reads the clock again, after it holds the lock. -/
def increment (now storeNow : OffsetDateTime) (bucket : BucketId) (key : Key) (op : CounterOp)
    (ttlOverride defaultTtl : Option UInt64) : Task StoredValue := do
  let expiresAt <- known (resolveTtl now ttlOverride defaultTtl)
  Repo.increment storeNow bucket key op expiresAt

def delete (bucket : BucketId) (key : Key) : Task Unit := do
  if <- Repo.delete bucket key then
    return ()
  else
    known (.error .notFound)

end KeyService
end Keydock
