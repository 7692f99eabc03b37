import Keydock.Domain.Counter

/-!
# Ports

The types exchanged with the persistence layer, and the errors of the use
cases.
-/

namespace Keydock

inductive UseCaseError
  | notImplemented
  | notFound
  | domain (error : DomainError)
  | storage (message : String)
  deriving DecidableEq, Repr

/-- How a blocking task can end without a result.  A task that is `aborted`
takes the process with it. -/
inductive TaskError
  | useCase (error : UseCaseError)
  | panicked
  | aborted
  deriving DecidableEq, Repr

/-- Failures of credential resolution. -/
inductive AuthError
  | invalidCredential
  | invalidKeyMaterial
  deriving DecidableEq, Repr

/-- Failures of minting or verifying a temporary token. -/
inductive TokenError
  | invalidFormat
  | invalidSignature
  | expired
  | bucketMismatch
  | generationMismatch
  | noSigningKey
  | serialize
  deriving DecidableEq, Repr

/-- A stored payload with its optional expiry. -/
structure StoredEntry where
  value : StoredValue
  expiresAt : Option OffsetDateTime
  deriving DecidableEq

namespace StoredEntry

/-- The entry's expiry has been reached. -/
def expiredAt (entry : StoredEntry) (now : OffsetDateTime) : Bool :=
  match entry.expiresAt with
  | none => false
  | some expiry => expiry ≤ now

end StoredEntry

/-- One step of an atomic transaction. -/
inductive TxnOp
  | set (key : Key) (value : StoredValue) (expiresAt : Option OffsetDateTime)
  | delete (key : Key)
  deriving DecidableEq

namespace TxnOp

def key : TxnOp -> Key
  | .set key _ _ => key
  | .delete key => key

end TxnOp

/-- Parameters of a listing, after defaults. -/
structure ListOpts where
  keyPrefix : Option Bytes
  limit : UInt64
  skip : UInt64
  reverse : Bool
  includeValues : Bool
  expiresBefore : Option OffsetDateTime
  deriving DecidableEq

/-- One row of a listing. -/
structure ListEntry where
  key : Key
  value : Option StoredValue
  deriving DecidableEq

end Keydock
