import Keydock.Foundation.Binary64
import Keydock.Domain.Model

/-!
# Counter deltas

Parsing of counter deltas and their application to stored values.  A delta or
an operand that is a floating point number makes the result one; integer
addition is checked.
-/

namespace Keydock

/-- A parsed counter delta. -/
inductive CounterOp
  | int (delta : Int64)
  | float (delta : Binary64)
  deriving DecidableEq

/-- The numeric value a delta is applied to. -/
inductive CounterValue
  | int (value : Int64)
  | float (value : Binary64)
  deriving DecidableEq

/-- Addition that fails outside the range of the type. -/
def checkedAdd (left right : Int64) : Option Int64 :=
  if -2 ^ 63 ≤ left.toInt + right.toInt ∧ left.toInt + right.toInt < 2 ^ 63 then some (left + right) else none

theorem toInt_of_checkedAdd {left right sum : Int64} (added : checkedAdd left right = some sum) :
    sum.toInt = left.toInt + right.toInt := by
  unfold checkedAdd at added
  split at added
  next inRange =>
    cases added
    rw [Int64.toInt_add, Int.bmod_eq_of_le]
    · omega
    · omega
  next => cases added

namespace CounterOp

def parse (body : Bytes) : Except DomainError CounterOp :=
  match Bytes.fromUtf8 body with
  | none => .error (.invalidCounterOp "body is not valid utf-8")
  | some text =>
      let trimmed := Text.trim text.toList
      match trimmed with
      | [] => .error (.invalidCounterOp "empty body")
      | first :: _ =>
          if first ≠ '+' ∧ first ≠ '-' then .error (.invalidCounterOp "missing +/- prefix")
          else
            match Text.parseI64 trimmed with
            | some delta => .ok (.int delta)
            | none =>
                match Binary64.parse trimmed with
                | some delta =>
                    if delta.isNan || delta.isInfinite then .error (.invalidCounterOp "invalid float")
                    else .ok (.float delta)
                | none => .error (.invalidCounterOp "invalid number")

def floatResult (result : Binary64) : Except DomainError CounterValue :=
  if result.isNan || result.isInfinite then .error (.invalidCounterOp "invalid result")
  else .ok (.float result)

def apply (op : CounterOp) (current : CounterValue) : Except DomainError CounterValue :=
  match op, current with
  | .int delta, .int value =>
      match checkedAdd value delta with
      | some sum => .ok (.int sum)
      | none => .error (.invalidCounterOp "integer overflow")
  | .int delta, .float value => floatResult (value.add (Binary64.ofInt delta.toInt))
  | .float delta, .int value => floatResult ((Binary64.ofInt value.toInt).add delta)
  | .float delta, .float value => floatResult (value.add delta)

end CounterOp

namespace CounterValue

/-- Read a stored value as a counter operand. -/
def fromStored (value : StoredValue) : Except DomainError CounterValue :=
  match value.kind with
  | .int64 =>
      match Bytes.fromUtf8 value.payload with
      | none => .error (.invalidCounterOp "stored int is not valid utf-8")
      | some text =>
          match Text.parseI64 (Text.trim text.toList) with
          | none => .error (.invalidCounterOp "stored int is not parseable")
          | some number => .ok (.int number)
  | .float64 =>
      match Bytes.fromUtf8 value.payload with
      | none => .error (.invalidCounterOp "stored float is not valid utf-8")
      | some text =>
          match Binary64.parse (Text.trim text.toList) with
          | none => .error (.invalidCounterOp "stored float is not parseable")
          | some number =>
              if number.isNan || number.isInfinite then
                .error (.invalidCounterOp "stored float is not finite")
              else .ok (.float number)
  | _ => .error (.invalidCounterOp "value is not numeric")

/-- Write a counter value for storage. -/
def intoStored : CounterValue -> Except DomainError StoredValue
  | .int number => StoredValue.new (Bytes.utf8 (String.ofList (Text.displayI64 number))) .int64
  | .float number => StoredValue.new (Bytes.utf8 (String.ofList (Binary64.display number))) .float64

/-- The stored form of an integer counter. -/
def storedInt (number : Int64) : StoredValue where
  payload := Bytes.utf8 (String.ofList (Text.displayI64 number))
  kind := .int64
  bounded := Nat.le_trans (Text.utf8_displayI64_length number) (by decide)

@[simp] theorem intoStored_int (number : Int64) : intoStored (.int number) = .ok (storedInt number) :=
  StoredValue.new_payload_kind (storedInt number)

/-- An integer counter reads back as itself. -/
@[simp] theorem fromStored_storedInt (number : Int64) : fromStored (storedInt number) = .ok (.int number) := by
  have trimmed : Text.trim (Text.displayI64 number) = Text.displayI64 number :=
    Text.trim_of_not_whitespace (Text.displayI64_not_whitespace number)
  simp only [fromStored, storedInt, Bytes.fromUtf8_utf8, String.toList_ofList, trimmed,
    Text.parseI64_displayI64]

end CounterValue
end Keydock
