import Keydock.Foundation.Bytes
import Mathlib.Data.UInt
import Mathlib.Tactic.IntervalCases

/-!
# Percent coding

Decoding replaces every `%` followed by two hexadecimal digits by the byte
they denote and keeps everything else, including a `%` that starts no escape.
The component encoder writes a text in UTF-8 and escapes every byte outside
the unreserved characters.

Decoding inverts one encoding.  It changes a byte string exactly when the
string holds an escape, so decoding a second time is not harmless in general.
-/

namespace PercentCoding

def percent : UInt8 := 0x25

/-- The value of an ASCII hexadecimal digit, in either case. -/
def hexValue (digit : UInt8) : Option Nat :=
  if 0x30 ≤ digit.toNat ∧ digit.toNat ≤ 0x39 then some (digit.toNat - 0x30)
  else if 0x41 ≤ digit.toNat ∧ digit.toNat ≤ 0x46 then some (digit.toNat - 0x37)
  else if 0x61 ≤ digit.toNat ∧ digit.toNat ≤ 0x66 then some (digit.toNat - 0x57)
  else none

/-- The byte denoted by two hexadecimal digits. -/
def hexPair (high low : UInt8) : Option UInt8 :=
  match hexValue high, hexValue low with
  | some h, some l => some (UInt8.ofNat (16 * h + l))
  | _, _ => none

def percentDecode : Bytes -> Bytes
  | first :: high :: low :: rest =>
      if first = percent then
        match hexPair high low with
        | some byte => byte :: percentDecode rest
        | none => first :: percentDecode (high :: low :: rest)
      else first :: percentDecode (high :: low :: rest)
  | [first, second] => [first, second]
  | [first] => [first]
  | [] => []

/-- The bytes start with an escape. -/
def startsEscape : Bytes -> Bool
  | first :: high :: low :: _ => first == percent && (hexPair high low).isSome
  | _ => false

/-- Some position holds a `%` followed by two hexadecimal digits. -/
def hasEscape (bytes : Bytes) : Bool :=
  bytes.tails.any startsEscape

theorem percentDecode_cons_of_not_escape {first : UInt8} {rest : Bytes}
    (plain : startsEscape (first :: rest) = false) :
    percentDecode (first :: rest) = first :: percentDecode rest := by
  match rest with
  | [] => rfl
  | [_] => rfl
  | high :: low :: rest =>
      by_cases mark : first = percent
      · have unreadable : hexPair high low = none := by
          simpa [startsEscape, mark] using plain
        simp only [percentDecode, if_pos mark, unreadable]
      · simp only [percentDecode, if_neg mark]

theorem percentDecode_escape {high low byte : UInt8} (pair : hexPair high low = some byte)
    (rest : Bytes) : percentDecode (percent :: high :: low :: rest) = byte :: percentDecode rest := by
  simp only [percentDecode, if_true, pair]

theorem percentDecode_length_le (bytes : Bytes) : (percentDecode bytes).length ≤ bytes.length := by
  fun_induction percentDecode bytes <;> simp_all
  omega

/-- An escape makes the decoded string strictly shorter. -/
theorem percentDecode_length_lt {bytes : Bytes} (escape : hasEscape bytes = true) :
    (percentDecode bytes).length < bytes.length := by
  induction bytes with
  | nil => cases escape
  | cons first rest ih =>
      by_cases here : startsEscape (first :: rest) = true
      · match rest with
        | [] => cases here
        | [_] => cases here
        | high :: low :: rest =>
            simp only [startsEscape, Bool.and_eq_true, beq_iff_eq] at here
            rcases Option.isSome_iff_exists.mp here.2 with ⟨byte, pair⟩
            rw [here.1, percentDecode_escape pair]
            have shorter := percentDecode_length_le rest
            simp only [List.length_cons]
            omega
      · have plain : startsEscape (first :: rest) = false := by simpa using here
        have later : hasEscape rest = true := by
          simpa only [hasEscape, List.tails_cons, List.any_cons, plain, Bool.false_or] using escape
        rw [percentDecode_cons_of_not_escape plain]
        simpa only [List.length_cons, Nat.add_lt_add_iff_right] using ih later

theorem percentDecode_of_no_escape {bytes : Bytes} (plain : hasEscape bytes = false) :
    percentDecode bytes = bytes := by
  induction bytes with
  | nil => rfl
  | cons first rest ih =>
      simp only [hasEscape, List.tails_cons, List.any_cons, Bool.or_eq_false_iff] at plain
      rw [percentDecode_cons_of_not_escape plain.1, ih plain.2]

/-- Decoding leaves a byte string alone exactly when it holds no escape. -/
theorem percentDecode_eq_self_iff (bytes : Bytes) :
    percentDecode bytes = bytes ↔ hasEscape bytes = false := by
  constructor
  · intro same
    by_contra escape
    have shorter := percentDecode_length_lt (by simpa using escape)
    rw [same] at shorter
    exact Nat.lt_irrefl _ shorter
  · exact percentDecode_of_no_escape

/-! ## The component encoder -/

/-- Letters, digits and `- _ . ! ~ * ' ( )`. -/
def isUnreserved (byte : UInt8) : Bool :=
  (0x41 ≤ byte.toNat && byte.toNat ≤ 0x5A) || (0x61 ≤ byte.toNat && byte.toNat ≤ 0x7A) ||
    (0x30 ≤ byte.toNat && byte.toNat ≤ 0x39) || "-_.!~*'()".toList.any (fun c => c.toNat == byte.toNat)

/-- An upper-case hexadecimal digit. -/
def hexDigit (value : Nat) : Char :=
  Char.ofNat (if value < 10 then 0x30 + value else 0x37 + value)

def encodeByte (byte : UInt8) : List Char :=
  if isUnreserved byte then [Char.ofNat byte.toNat]
  else ['%', hexDigit (byte.toNat / 16), hexDigit (byte.toNat % 16)]

/-- Escape every UTF-8 byte that is not unreserved. -/
def encodeURIComponent (text : String) : String :=
  String.ofList ((Bytes.utf8 text).flatMap encodeByte)

/-- The two shapes of an encoded byte, checked over all bytes. -/
private theorem encodeByte_shape (byte : UInt8) :
    (byte ≠ percent ∧ (encodeByte byte).flatMap String.utf8EncodeChar = [byte]) ∨
      Exists fun high => Exists fun low => hexPair high low = some byte ∧
        (encodeByte byte).flatMap String.utf8EncodeChar = [percent, high, low] := by
  have every : forall n, n < 256 ->
      (UInt8.ofNat n ≠ percent ∧
        (encodeByte (UInt8.ofNat n)).flatMap String.utf8EncodeChar = [UInt8.ofNat n]) ∨
      (hexPair (UInt8.ofNat (hexDigit (n / 16)).toNat) (UInt8.ofNat (hexDigit (n % 16)).toNat) =
          some (UInt8.ofNat n) ∧
        (encodeByte (UInt8.ofNat n)).flatMap String.utf8EncodeChar =
          [percent, UInt8.ofNat (hexDigit (n / 16)).toNat, UInt8.ofNat (hexDigit (n % 16)).toNat]) := by
    decide +kernel
  have here := every byte.toNat byte.toNat_lt
  rw [UInt8.ofNat_toNat] at here
  exact here.imp id (fun escaped => ⟨_, _, escaped⟩)

/-- What one byte contributes to the encoded text decodes to that byte. -/
theorem percentDecode_encodeByte (byte : UInt8) (rest : Bytes) :
    percentDecode ((encodeByte byte).flatMap String.utf8EncodeChar ++ rest) = byte :: percentDecode rest := by
  rcases encodeByte_shape byte with ⟨different, same⟩ | ⟨high, low, pair, same⟩
  · rw [same, List.singleton_append]
    apply percentDecode_cons_of_not_escape
    match rest with
    | [] => rfl
    | [_] => rfl
    | _ :: _ :: _ => simp [startsEscape, different]
  · rw [same]
    exact percentDecode_escape pair rest

/-- Decoding once inverts the component encoder. -/
theorem percentDecode_encodeURIComponent (text : String) :
    percentDecode (Bytes.utf8 (encodeURIComponent text)) = Bytes.utf8 text := by
  rw [encodeURIComponent, Bytes.utf8_ofList]
  generalize Bytes.utf8 text = bytes
  induction bytes with
  | nil => rfl
  | cons byte rest ih =>
      rw [List.flatMap_cons, List.flatMap_append, percentDecode_encodeByte, ih]

end PercentCoding
