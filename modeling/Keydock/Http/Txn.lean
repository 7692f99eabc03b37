import Keydock.Http.Keys

/-!
# Transactions

The body of a transaction is a JSON record with a list of items.  An item is
read as a `set` and, when that fails, as a `delete`.  All items are checked
before the batch is applied, each against the permission it needs.
-/

namespace Keydock

open Handler Json

inductive TxnItem
  | set (set : String) (value : Json) (ttl : Option UInt64)
  | delete (delete : String)

def txnSetFromJson (tree : Json) : Option TxnItem :=
  match fields true 2 ["set", "value", "ttl"] tree with
  | some [set, value, ttl] => do
      return .set (<- required asString set) (<- required (fun value => some value.toValue) value)
        (<- optional asU64 ttl)
  | _ => none

def txnDeleteFromJson (tree : Json) : Option TxnItem :=
  match fields true 1 ["delete"] tree with
  | some [delete] => do
      return .delete (<- required asString delete)
  | _ => none

/-- An item is buffered whole before its shape is decided. -/
def txnItemFromJson (tree : Json) : Option TxnItem :=
  if tree.readable then (txnSetFromJson tree).or (txnDeleteFromJson tree) else none

def txnRequestFromJson (tree : Json) : Option (List TxnItem) :=
  match fields false 1 ["txn"] tree with
  | some [txn] => required (asList txnItemFromJson) txn
  | _ => none

def jsonContentType : String := "application/json"

def jsonValueToBody (platform : Platform) : Json -> Except Response (Bytes × Option String)
  | .null => .error badRequest
  | .str text => .ok (Bytes.utf8 text, none)
  | other =>
      match platform.json.toVec other with
      | none => .error badRequest
      | some bytes => .ok (bytes, some jsonContentType)

/-- Check one item and turn it into an operation. -/
def prepareItem (state : AppState) (now : OffsetDateTime) (auth : BucketAuth) : TxnItem -> Except Response TxnOp
  | .set set value ttl => do
      let key <- parsePercentEncodedKey set
      auth.requireWriteOn key
      let (body, contentType) <- jsonValueToBody state.platform value
      let stored <- (KeyService.inferStoredValue state.platform body contentType).mapError mapUseCaseRepoErr
      let expiresAt <- (KeyService.resolveTtl now ttl auth.defaultTtlSecs).mapError mapUseCaseRepoErr
      return .set key stored expiresAt
  | .delete delete => do
      let key <- parsePercentEncodedKey delete
      auth.requireDeleteOn key
      return .delete key

/-- Check the items in order; each reads the clock for itself. -/
def prepareItems (state : AppState) (clock : Clock) (auth : BucketAuth) :
    Nat -> List TxnItem -> Except Response (List TxnOp)
  | _, [] => .ok []
  | reading, item :: rest => do
      let op <- prepareItem state (clock reading) auth item
      let ops <- prepareItems state clock auth (reading + 1) rest
      return op :: ops

def executeTxn (state : AppState) (clock : Clock) (auth : BucketAuth) (body : Except Response Bytes) :
    Handler Response := do
  let body <- known body
  let txn <- orReject badRequest ((state.platform.json.fromSlice body).bind txnRequestFromJson)
  if txn.isEmpty then
    reject badRequest
  else
    let ops <- known (prepareItems state clock auth 1 txn)
    spawnUsecase (Repo.applyBatch auth.bucketId ops)
    return Response.ofStatus 204

/-- The operation is one the identity may perform. -/
def TxnOp.Allowed (auth : BucketAuth) : TxnOp -> Prop
  | .set key _ _ => auth.requireWriteOn key = .ok ()
  | .delete key => auth.requireDeleteOn key = .ok ()

end Keydock
