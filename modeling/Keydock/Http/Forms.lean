import Keydock.Foundation.FormCoding
import Keydock.Http.Buckets
import Keydock.Http.Tokens

/-!
# Bodies and forms

The extractor of a body buffers it, up to a limit.  The extractor of a form
reads the pairs of the body into the fields of the handler's type.  A field
that the type does not have is ignored, one that occurs twice is refused, and
one that is missing is refused unless it is optional.  The response to a
refusal is the framework's own.
-/

namespace Keydock

/-- The longest body that is buffered. -/
def bodyLimit : Nat := 2 * 1024 * 1024

def payloadTooLarge : Response where
  status := 413
  contentType := some "text/plain; charset=utf-8"
  body := .bytes (Bytes.utf8 "Failed to buffer the request body: length limit exceeded")

/-- The extractor of a body. -/
def extractBody (body : Bytes) : Except Response Bytes :=
  if bodyLimit < body.length then .error payloadTooLarge else .ok body

theorem extractBody_of_short {body : Bytes} (short : body.length ≤ bodyLimit) : extractBody body = .ok body :=
  if_neg (Nat.not_lt.mpr short)

/-- The value of a field, if it has one; none at all when it is repeated. -/
def formField (name : String) (pairs : List (String × String)) : Option (Option String) :=
  match pairs.filter (fun pair => pair.1 = name) with
  | [] => some none
  | [pair] => some (some pair.2)
  | _ => none

/-- The digits behind an optional plus sign. -/
def stripPlus : List Char -> List Char
  | '+' :: digits => digits
  | digits => digits

/-- A `u64` literal: an optional plus sign and at least one digit, in range. -/
def parseU64 (text : List Char) : Option UInt64 :=
  match Text.parseDigits (stripPlus text) with
  | none => none
  | some value => if value < 2 ^ 64 then some (UInt64.ofNat value) else none

def createTokenFormOf (pairs : List (String × String)) : Option CreateTokenForm := do
  let keyPrefix <- (<- formField "prefix" pairs)
  let permissions <- (<- formField "permissions" pairs)
  let ttl <- (<- formField "ttl" pairs)
  let ttl <- Text.parseI64 ttl.toList
  return ⟨keyPrefix, permissions, ttl⟩

/-- An optional number of seconds. -/
def optionalSeconds : Option String -> Option (Option UInt64)
  | none => some none
  | some text => (parseU64 text.toList).map some

def createBucketFormOf (pairs : List (String × String)) : Option CreateBucketForm := do
  let email <- (<- formField "email" pairs)
  let secretKey <- formField "secret_key" pairs
  let readKey <- formField "read_key" pairs
  let writeKey <- formField "write_key" pairs
  let signingKey <- formField "signing_key" pairs
  let defaultTtl <- optionalSeconds (<- formField "default_ttl" pairs)
  return ⟨email, secretKey, readKey, writeKey, signingKey, defaultTtl⟩

/-- The extractor of a form. -/
def extractForm {α : Type} (read : List (String × String) -> Option α) (rejection : Response) (body : Bytes) :
    Except Response α := do
  let body <- extractBody body
  match read (FormCoding.parse body) with
  | none => .error rejection
  | some form => .ok form

section Serialized

variable {α : Type} {read : List (String × String) -> Option α} {pairs : List (String × String)} {form : α}

theorem extractForm_serialize (fields : read pairs = some form)
    (short : (FormCoding.serialize pairs).length ≤ bodyLimit) (rejection : Response) :
    extractForm read rejection (FormCoding.serialize pairs) = .ok form := by
  simp only [extractForm, extractBody_of_short short, FormCoding.parse_serialize, fields, bind, Except.bind]

/-- A form with these fields is read, unless it is too long. -/
theorem extractForm_serialize_cases (fields : read pairs = some form) (rejection : Response) :
    extractForm read rejection (FormCoding.serialize pairs) = .ok form ∨
      extractForm read rejection (FormCoding.serialize pairs) = .error payloadTooLarge := by
  by_cases long : bodyLimit < (FormCoding.serialize pairs).length
  · refine .inr ?_
    simp only [extractForm, extractBody, if_pos long, bind, Except.bind]
  · exact .inl (extractForm_serialize fields (Nat.not_lt.mp long) rejection)

end Serialized

theorem stripPlus_toDigits (value : Nat) : stripPlus (Nat.toDigits 10 value) = Nat.toDigits 10 value := by
  unfold stripPlus
  split
  next digits same =>
    have digit := Text.isDigit_toDigits value '+' (same ▸ List.mem_cons_self)
    exact absurd digit (by decide)
  next => rfl

theorem parseU64_toDigits {value : Nat} (bounded : value < 2 ^ 64) :
    parseU64 (Nat.toDigits 10 value) = some (UInt64.ofNat value) := by
  simp only [parseU64, stripPlus_toDigits, Text.parseDigits_toDigits, if_pos bounded]

end Keydock
