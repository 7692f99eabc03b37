import Keydock.Foundation.Bytes
import Keydock.Foundation.Text
import Keydock.Domain.Time

/-!
# Buckets, keys, values and policies

The domain types with their bounds as fields: a key has at most 128 bytes and
a stored value at most 16 KiB.  The constructors of the source are the
functions that check these bounds.

A bucket id may be any text; its constructor refuses the empty one, but the
ids inside tokens are read without that check.  The ids the service hands out
are the hyphenated texts of 128-bit identifiers, in which no colon occurs.
-/

namespace Keydock

inductive DomainError
  | invalidBucketId (reason : String)
  | keyTooLong (max got : Nat)
  | valueTooLong (max got : Nat)
  | invalidTtl (reason : String)
  | invalidCounterOp (reason : String)
  deriving DecidableEq, Repr

/-! ## Keys -/

def maxKeyBytes : Nat := 128

/-- A key scoped to a bucket: opaque bytes. -/
structure Key where
  asBytes : Bytes
  bounded : asBytes.length ≤ maxKeyBytes
  deriving DecidableEq

namespace Key

def fromBytes (data : Bytes) : Except DomainError Key :=
  if bounded : data.length ≤ maxKeyBytes then .ok ⟨data, bounded⟩
  else .error (.keyTooLong maxKeyBytes data.length)

theorem fromBytes_asBytes (key : Key) : fromBytes key.asBytes = .ok key :=
  dif_pos key.bounded

theorem asBytes_of_fromBytes {data : Bytes} {key : Key} (made : fromBytes data = .ok key) :
    key.asBytes = data := by
  unfold fromBytes at made
  split at made
  · cases made
    rfl
  · cases made

theorem ext_bytes {left right : Key} (same : left.asBytes = right.asBytes) : left = right := by
  cases left
  cases right
  cases same
  rfl

end Key

/-! ## Buckets -/

structure BucketId where
  asStr : String
  deriving DecidableEq

namespace BucketId

def new (raw : String) : Except DomainError BucketId :=
  if raw = "" then .error (.invalidBucketId "empty") else .ok ⟨raw⟩

theorem ext_str {left right : BucketId} (same : left.asStr = right.asStr) : left = right := by
  cases left
  cases right
  cases same
  rfl

end BucketId

/-- A 128-bit identifier. -/
structure Uuid where
  value : Fin (2 ^ 128)
  deriving DecidableEq

namespace Uuid

def fromU128 (value : Nat) : Uuid := ⟨Fin.ofNat (2 ^ 128) value⟩

def hexDigits : List Char :=
  ['0', '1', '2', '3', '4', '5', '6', '7', '8', '9', 'a', 'b', 'c', 'd', 'e', 'f']

/-- The hexadecimal digit at a position, counted from the most significant. -/
def nibble (id : Uuid) (position : Nat) : Char :=
  hexDigits.getD (id.value.val / 16 ^ (31 - position) % 16) '0'

/-- Groups of 8, 4, 4, 4 and 12 digits, joined by hyphens. -/
def hyphenated (id : Uuid) : List Char :=
  (List.range 32).flatMap (fun position =>
    if position = 8 ∨ position = 12 ∨ position = 16 ∨ position = 20 then ['-', id.nibble position]
    else [id.nibble position])

def toString (id : Uuid) : String := String.ofList id.hyphenated

theorem nibble_mem (id : Uuid) (position : Nat) : id.nibble position ∈ hexDigits := by
  have every : forall n, n < 16 -> hexDigits.getD n '0' ∈ hexDigits := by decide
  exact every _ (Nat.mod_lt _ (by decide))

theorem mem_hyphenated {id : Uuid} {c : Char} (member : c ∈ id.hyphenated) :
    c ∈ '-' :: hexDigits := by
  rcases List.mem_flatMap.mp member with ⟨position, _, here⟩
  split at here
  · rcases List.mem_cons.mp here with rfl | digit
    · exact List.mem_cons_self
    · rw [List.mem_singleton.mp digit]
      exact List.mem_cons_of_mem _ (id.nibble_mem position)
  · rw [List.mem_singleton.mp here]
    exact List.mem_cons_of_mem _ (id.nibble_mem position)

theorem toString_ne_empty (id : Uuid) : id.toString ≠ "" := by
  intro empty
  have chars := congrArg String.toList empty
  rw [Uuid.toString, String.toList_ofList] at chars
  have first : id.nibble 0 ∈ id.hyphenated :=
    List.mem_flatMap.mpr ⟨0, by decide, by simp⟩
  rw [chars] at first
  cases first

/-- The bucket id with this identifier. -/
def bucketId (id : Uuid) : BucketId := ⟨id.toString⟩

theorem new_toString (id : Uuid) : BucketId.new id.toString = .ok id.bucketId :=
  if_neg id.toString_ne_empty

/-- The UTF-8 form of an identifier is ASCII and holds no colon. -/
theorem colon_not_mem_utf8 (id : Uuid) : (0x3A : UInt8) ∉ Bytes.utf8 id.bucketId.asStr := by
  intro member
  change (0x3A : UInt8) ∈ Bytes.utf8 (String.ofList id.hyphenated) at member
  rw [Bytes.utf8_ofList] at member
  rcases List.mem_flatMap.mp member with ⟨c, listed, encoded⟩
  have every : ('-' :: hexDigits).all (fun c => !(String.utf8EncodeChar c).contains 0x3A) = true := by
    decide +kernel
  have here := List.all_eq_true.mp every c (mem_hyphenated listed)
  rw [List.contains_iff_mem.mpr encoded] at here
  cases here

end Uuid

/-! ## Values -/

def maxValueBytes : Nat := 16 * 1024

inductive ValueKind
  | raw
  | utf8
  | int64
  | float64
  | json
  deriving DecidableEq, Repr

/-- A payload with the classification that shapes its responses. -/
structure StoredValue where
  payload : Bytes
  kind : ValueKind
  bounded : payload.length ≤ maxValueBytes
  deriving DecidableEq

namespace StoredValue

def new (payload : Bytes) (kind : ValueKind) : Except DomainError StoredValue :=
  if bounded : payload.length ≤ maxValueBytes then .ok ⟨payload, kind, bounded⟩
  else .error (.valueTooLong maxValueBytes payload.length)

theorem new_payload_kind (value : StoredValue) : new value.payload value.kind = .ok value :=
  dif_pos value.bounded

end StoredValue

/-! ## Permissions and policies -/

structure Permission where
  read : Bool
  write : Bool
  enumerate : Bool
  delete : Bool
  deriving DecidableEq, Repr

namespace Permission

def none : Permission := ⟨false, false, false, false⟩

def readEnumerate : Permission := ⟨true, false, true, false⟩

def writeOnly : Permission := ⟨false, true, false, false⟩

/-- What is granted without a credential, given which keys are configured. -/
def anonymousFromKeys (hasSecret hasRead hasWrite : Bool) : Permission where
  read := !hasRead
  write := !hasWrite
  enumerate := !hasRead
  delete := !hasSecret && !hasRead && !hasWrite

end Permission

/-- The policy attached to a bucket: hashed API keys, the signing key of its
tokens with its generation, and the anonymous defaults. -/
structure BucketPolicy where
  defaultTtlSecs : Option UInt64
  anonymousAccess : Permission
  secretKeyHash : Option Bytes
  readKeyHash : Option Bytes
  writeKeyHash : Option Bytes
  signingKey : Option Bytes
  signingKeyGeneration : UInt64
  deriving DecidableEq

/-- The claims carried by a signed temporary token. -/
structure TemporaryTokenClaims where
  version : UInt8
  bucket : BucketId
  bucketGeneration : UInt64
  allowedPrefix : Bytes
  permissions : Permission
  iat : OffsetDateTime
  exp : OffsetDateTime
  deriving DecidableEq

end Keydock
