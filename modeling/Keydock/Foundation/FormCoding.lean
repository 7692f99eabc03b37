import Keydock.Foundation.PercentCoding
import Keydock.Foundation.Utf8

/-!
# Coded forms

A form is a list of named values.  It is written as pairs with `=` between
name and value and `&` between pairs.  Letters, digits and four marks stand for
themselves, a blank becomes `+`, and every other byte of the UTF-8 form is
escaped.  A reader splits at the separators first, turns every `+` into a
blank and then takes the escapes out.

Reading inverts writing for every list of pairs, names and values being
arbitrary texts.
-/

namespace FormCoding

open PercentCoding

def ampersand : UInt8 := 0x26

def equals : UInt8 := 0x3D

def plus : UInt8 := 0x2B

def space : UInt8 := 0x20

/-- Letters, digits and `* - . _`. -/
def isPlain (byte : UInt8) : Bool :=
  (0x41 ≤ byte.toNat && byte.toNat ≤ 0x5A) || (0x61 ≤ byte.toNat && byte.toNat ≤ 0x7A) ||
    (0x30 ≤ byte.toNat && byte.toNat ≤ 0x39) || [0x2A, 0x2D, 0x2E, 0x5F].contains byte

/-- The byte of an upper-case hexadecimal digit. -/
def hexByte (value : Nat) : UInt8 := UInt8.ofNat (hexDigit value).toNat

def encodeByte (byte : UInt8) : Bytes :=
  if byte = space then [plus]
  else if isPlain byte then [byte]
  else [percent, hexByte (byte.toNat / 16), hexByte (byte.toNat % 16)]

def encode (text : String) : Bytes := (Bytes.utf8 text).flatMap encodeByte

def encodePair (pair : String × String) : Bytes := encode pair.1 ++ equals :: encode pair.2

/-- The text of a form. -/
def serialize (pairs : List (String × String)) : Bytes := [ampersand].intercalate (pairs.map encodePair)

def plusToSpace (byte : UInt8) : UInt8 := if byte = plus then space else byte

def decode (bytes : Bytes) : String := String.ofList (Text.fromUtf8Lossy (percentDecode (bytes.map plusToSpace)))

/-- A pair is split at its first `=`; without one the value is empty. -/
def decodePair (bytes : Bytes) : String × String :=
  (decode (bytes.takeWhile (fun byte => byte != equals)), decode (bytes.dropWhile (fun byte => byte != equals)).tail)

/-- The pairs of a form.  Empty ones are left out. -/
def parse (bytes : Bytes) : List (String × String) :=
  ((bytes.splitOn ampersand).filter (fun piece => !piece.isEmpty)).map decodePair

/-! ## Round trip -/

/-- What is written for one byte, checked over all bytes. -/
theorem encodeByte_shape (byte : UInt8) :
    (ampersand ∉ encodeByte byte ∧ equals ∉ encodeByte byte) ∧
      ((byte ≠ percent ∧ (encodeByte byte).map plusToSpace = [byte]) ∨
        Exists fun high => Exists fun low => hexPair high low = some byte ∧
          (encodeByte byte).map plusToSpace = [percent, high, low]) := by
  have every : forall n, n < 256 ->
      (ampersand ∉ encodeByte (UInt8.ofNat n) ∧ equals ∉ encodeByte (UInt8.ofNat n)) ∧
        ((UInt8.ofNat n ≠ percent ∧ (encodeByte (UInt8.ofNat n)).map plusToSpace = [UInt8.ofNat n]) ∨
          (hexPair (hexByte (n / 16)) (hexByte (n % 16)) = some (UInt8.ofNat n) ∧
            (encodeByte (UInt8.ofNat n)).map plusToSpace = [percent, hexByte (n / 16), hexByte (n % 16)])) := by
    decide +kernel
  have here := every byte.toNat byte.toNat_lt
  rw [UInt8.ofNat_toNat] at here
  exact ⟨here.1, here.2.imp id (fun escaped => ⟨_, _, escaped⟩)⟩

theorem not_mem_encode {byte : UInt8} (separator : byte = ampersand ∨ byte = equals) (text : String) :
    byte ∉ encode text := by
  intro member
  rcases List.mem_flatMap.mp member with ⟨coded, _, inside⟩
  have apart := (encodeByte_shape coded).1
  rcases separator with rfl | rfl
  · exact apart.1 inside
  · exact apart.2 inside

theorem percentDecode_encodeByte (byte : UInt8) (rest : Bytes) :
    percentDecode ((encodeByte byte).map plusToSpace ++ rest) = byte :: percentDecode rest := by
  rcases (encodeByte_shape byte).2 with ⟨different, same⟩ | ⟨high, low, pair, same⟩
  · rw [same, List.singleton_append]
    apply percentDecode_cons_of_not_escape
    match rest with
    | [] => rfl
    | [_] => rfl
    | _ :: _ :: _ => simp [startsEscape, different]
  · rw [same]
    exact percentDecode_escape pair rest

theorem percentDecode_flatMap (bytes : Bytes) : percentDecode ((bytes.flatMap encodeByte).map plusToSpace) = bytes := by
  induction bytes with
  | nil => rfl
  | cons byte rest ih => rw [List.flatMap_cons, List.map_append, percentDecode_encodeByte, ih]

theorem decode_encode (text : String) : decode (encode text) = text := by
  rw [decode, encode, percentDecode_flatMap, Text.fromUtf8Lossy_utf8, String.ofList_toList]

theorem decodePair_encodePair (pair : String × String) : decodePair (encodePair pair) = pair := by
  have before : forall byte, byte ∈ encode pair.1 -> (byte != equals) = true := by
    intro byte member
    rw [bne_iff_ne]
    rintro rfl
    exact not_mem_encode (.inr rfl) pair.1 member
  rw [decodePair, encodePair, List.takeWhile_append_of_pos before, List.dropWhile_append_of_pos before,
    List.takeWhile_cons_of_neg (by simp), List.dropWhile_cons_of_neg (by simp), List.append_nil, List.tail_cons,
    decode_encode, decode_encode]

theorem ampersand_not_mem_encodePair (pair : String × String) : ampersand ∉ encodePair pair := by
  intro member
  rcases List.mem_append.mp member with name | rest
  · exact not_mem_encode (.inl rfl) pair.1 name
  · rcases List.mem_cons.mp rest with impossible | value
    · exact absurd impossible (by decide)
    · exact not_mem_encode (.inl rfl) pair.2 value

/-- A form is read as it was written. -/
theorem parse_serialize (pairs : List (String × String)) : parse (serialize pairs) = pairs := by
  cases pairs with
  | nil => rfl
  | cons first rest =>
      have absent : forall piece, piece ∈ (first :: rest).map encodePair -> ampersand ∉ piece := by
        intro piece member
        rcases List.mem_map.mp member with ⟨pair, _, rfl⟩
        exact ampersand_not_mem_encodePair pair
      have full : forall piece, piece ∈ (first :: rest).map encodePair -> (!piece.isEmpty) = true := by
        intro piece member
        rcases List.mem_map.mp member with ⟨pair, _, rfl⟩
        simp [encodePair]
      rw [parse, serialize, List.splitOn_intercalate _ absent (List.cons_ne_nil _ _), List.filter_eq_self.mpr full,
        List.map_map]
      exact (List.map_congr_left (fun pair _ => decodePair_encodePair pair)).trans (List.map_id _)

end FormCoding
