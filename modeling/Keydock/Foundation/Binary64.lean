import Keydock.Foundation.Text
import Mathlib.Data.Nat.Log

/-!
# Binary64 numbers

An executable model of IEEE 754 binary64 as far as decimal counters need it:
correctly rounded reading of decimal literals, addition, conversion from
integers, and the shortest decimal text that reads back as the same number.

A number is a sign and the 63 remaining bits of its pattern, so that every
value of the type is a number.  Finite magnitudes are multiples of `2 ^ -1074`;
`scaled` is that multiple.  All rounding goes through `roundMagnitude`, which
rounds an exact fraction to the nearest magnitude, ties to even.
-/

structure Binary64 where
  negative : Bool
  magnitude : Fin (2 ^ 63)
  deriving DecidableEq, Repr

namespace Binary64

/-- The pattern of an infinite magnitude; larger patterns are not numbers. -/
def infinity : Nat := 2047 * 2 ^ 52

def ofPattern (negative : Bool) (pattern : Nat) : Binary64 :=
  ⟨negative, Fin.ofNat (2 ^ 63) pattern⟩

def nan : Binary64 := ofPattern false (infinity + 2 ^ 51)

def isNan (x : Binary64) : Bool := infinity < x.magnitude.val

def isInfinite (x : Binary64) : Bool := x.magnitude.val == infinity

def isFinite (x : Binary64) : Bool := x.magnitude.val < infinity

/-- The magnitude of a finite number as a multiple of `2 ^ -1074`. -/
def scaled (x : Binary64) : Nat :=
  let biased := x.magnitude.val / 2 ^ 52
  let fraction := x.magnitude.val % 2 ^ 52
  if biased = 0 then fraction else (fraction + 2 ^ 52) * 2 ^ (biased - 1)

/-- Round `numerator / denominator` to the nearest magnitude pattern. -/
def roundMagnitude (numerator denominator : Nat) : Nat :=
  let units := numerator * 2 ^ 1074
  let shift := (units / denominator).log2 - 52
  let divisor := denominator * 2 ^ shift
  let quotient := units / divisor
  let remainder := units % divisor
  let up := divisor < 2 * remainder || (2 * remainder == divisor && quotient % 2 == 1)
  min (shift * 2 ^ 52 + (if up then quotient + 1 else quotient)) infinity

def ofFraction (negative : Bool) (numerator denominator : Nat) : Binary64 :=
  ofPattern negative (roundMagnitude numerator denominator)

/-- The nearest number to an integer. -/
def ofInt (value : Int) : Binary64 :=
  ofFraction (decide (value < 0)) value.natAbs 1

def add (x y : Binary64) : Binary64 :=
  if x.isNan || y.isNan then nan
  else if x.isInfinite then
    if y.isInfinite && x.negative != y.negative then nan else x
  else if y.isInfinite then y
  else
    let signed (z : Binary64) : Int := if z.negative then -(z.scaled : Int) else z.scaled
    let sum := signed x + signed y
    if sum = 0 then ofPattern (x.negative && y.negative) 0
    else ofFraction (decide (sum < 0)) sum.natAbs (2 ^ 1074)

/-! ## Reading -/

/-- The decimal fraction `digits * 10 ^ exponent`.  Exponents that decide the
result on their own are cut off before the power is computed. -/
def ofDecimal (negative : Bool) (digits : Nat) (exponent : Int) : Binary64 :=
  if digits = 0 then ofPattern negative 0
  else if 310 < exponent then ofPattern negative infinity
  else if (Nat.log 10 digits : Int) + exponent < -330 then ofPattern negative 0
  else if 0 ≤ exponent then ofFraction negative (digits * 10 ^ exponent.toNat) 1
  else ofFraction negative digits (10 ^ exponent.natAbs)

def isDigit (c : Char) : Bool := (Text.digitValue c).isSome

def parseExponent : List Char -> Option Int
  | [] => some 0
  | mark :: rest =>
      if mark = 'e' ∨ mark = 'E' then
        match rest with
        | '-' :: digits => (Text.parseDigits digits).map (fun n => -(n : Int))
        | '+' :: digits => (Text.parseDigits digits).map (fun n => (n : Int))
        | digits => (Text.parseDigits digits).map (fun n => (n : Int))
      else none

/-- An unsigned literal: the named values, or digits with an optional point
and an optional exponent, at least one digit in all. -/
def parseUnsigned (negative : Bool) (text : List Char) : Option Binary64 :=
  let lower := Text.toAsciiLowercase text
  if lower = "inf".toList ∨ lower = "infinity".toList then some (ofPattern negative infinity)
  else if lower = "nan".toList then some nan
  else
    let whole := text.takeWhile isDigit
    let afterWhole := text.dropWhile isDigit
    let (fraction, tail) :=
      match afterWhole with
      | '.' :: rest => (rest.takeWhile isDigit, rest.dropWhile isDigit)
      | rest => ([], rest)
    match Text.parseDigits (whole ++ fraction), parseExponent tail with
    | some digits, some exponent => some (ofDecimal negative digits (exponent - fraction.length))
    | _, _ => none

def parse (text : List Char) : Option Binary64 :=
  match text with
  | '-' :: rest => parseUnsigned true rest
  | '+' :: rest => parseUnsigned false rest
  | rest => parseUnsigned false rest

/-! ## Writing -/

/-- The position of the leading decimal digit of `units * 2 ^ -1074`. -/
def leadingPosition (units : Nat) : Int :=
  if 2 ^ 1074 ≤ units then Nat.log 10 (units / 2 ^ 1074)
  else
    let guess := Nat.log 10 (2 ^ 1074 / units)
    if 2 ^ 1074 ≤ units * 10 ^ guess then -(guess : Int) else -(guess : Int) - 1

/-- The decimal with `count` digits nearest to `units * 2 ^ -1074` among those
that read back as the pattern `target`, with its exponent. -/
def shortestWith (target units count : Nat) : Option (Nat × Int) :=
  let exponent := leadingPosition units - (count : Int) + 1
  let numerator := if 0 ≤ exponent then units else units * 10 ^ exponent.natAbs
  let denominator := if 0 ≤ exponent then 2 ^ 1074 * 10 ^ exponent.natAbs else 2 ^ 1074
  let low := numerator / denominator
  let readsBack (digits : Nat) : Bool := (ofDecimal false digits exponent).magnitude.val == target
  let upperFirst := denominator ≤ 2 * (numerator % denominator)
  let nearer := if upperFirst then low + 1 else low
  let farther := if upperFirst then low else low + 1
  if readsBack nearer then some (nearer, exponent)
  else if readsBack farther then some (farther, exponent)
  else none

/-- Digits and a decimal exponent as plain decimal text. -/
def plainDecimal (digits : Nat) (exponent : Int) : List Char :=
  let text := Nat.toDigits 10 digits
  if 0 ≤ exponent then text ++ List.replicate exponent.toNat '0'
  else
    let places := exponent.natAbs
    if places < text.length then
      text.take (text.length - places) ++ '.' :: text.drop (text.length - places)
    else '0' :: '.' :: (List.replicate (places - text.length) '0' ++ text)

/-- The shortest decimal text of a number.  Seventeen digits always suffice;
the exact expansion closes the search. -/
def display (x : Binary64) : List Char :=
  if x.isNan then "NaN".toList
  else
    let unsigned :=
      if x.isInfinite then "inf".toList
      else if x.scaled = 0 then "0".toList
      else
        let found := (List.range 17).findSome? (fun i => shortestWith x.magnitude.val x.scaled (i + 1))
        let (digits, exponent) := found.getD (x.scaled * 5 ^ 1074, -1074)
        plainDecimal digits exponent
    if x.negative then '-' :: unsigned else unsigned

example : (parse "-1.5".toList).map display = some "-1.5".toList := by decide +kernel

example : display (ofInt (2 ^ 63)) = "9223372036854776000".toList := by decide +kernel

end Binary64
