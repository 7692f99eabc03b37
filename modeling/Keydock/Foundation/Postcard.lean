import Keydock.Foundation.Bytes
import Mathlib.Data.Int.Basic
import Mathlib.Tactic.Ring

/-!
# The postcard wire format

Unsigned integers are written seven bits at a time, least significant first,
with the top bit of a byte marking that more follow.  A reader accepts at most
as many bytes as the type can need and refuses a last byte that would not fit.
Signed integers are mapped to unsigned ones by zig-zag coding, byte sequences
carry their length in front, unit variants of an enumeration are written as
their index, and an optional value is preceded by a tag byte.

Readers return the value together with the bytes that follow it.  Each of them
inverts its writer in front of any remaining input.
-/

namespace Postcard

/-- A reader consumes a prefix of its input. -/
abbrev Reader (α : Type) := Bytes -> Option (α × Bytes)

/-! ## Variable-length integers -/

/-- Write a number in at most `left` bytes. -/
def varint : Nat -> Nat -> Bytes
  | 0, _ => []
  | left + 1, number =>
      if number < 128 then [UInt8.ofNat number]
      else UInt8.ofNat (number % 128 + 128) :: varint left (number / 128)

/-- Read a number of at most `left` bytes whose last possible byte is at most
`lastMax`. -/
def takeVarint (lastMax : Nat) : Nat -> Reader Nat
  | 0, _ => none
  | _ + 1, [] => none
  | left + 1, byte :: rest =>
      if byte.toNat < 128 then
        if left = 0 ∧ lastMax < byte.toNat then none else some (byte.toNat, rest)
      else
        match takeVarint lastMax left rest with
        | none => none
        | some (high, after) => some (byte.toNat % 128 + 128 * high, after)

theorem takeVarint_varint {lastMax : Nat} (small : lastMax < 128) (left number : Nat)
    (bound : number < 128 ^ left * (lastMax + 1)) (rest : Bytes) :
    takeVarint lastMax (left + 1) (varint (left + 1) number ++ rest) = some (number, rest) := by
  induction left generalizing number with
  | zero =>
      have fits : number < 128 := by omega
      have byte : (UInt8.ofNat number).toNat = number := by
        rw [UInt8.toNat_ofNat', Nat.mod_eq_of_lt (by omega)]
      simp only [varint, if_pos fits, List.singleton_append, takeVarint, byte]
      rw [if_neg (by omega)]
  | succ left ih =>
      by_cases fits : number < 128
      · have byte : (UInt8.ofNat number).toNat = number := by
          rw [UInt8.toNat_ofNat', Nat.mod_eq_of_lt (by omega)]
        rw [varint, if_pos fits, List.singleton_append, takeVarint, byte, if_pos fits, if_neg (by omega)]
      · have low : number % 128 < 128 := Nat.mod_lt number (by decide)
        have byte : (UInt8.ofNat (number % 128 + 128)).toNat = number % 128 + 128 := by
          rw [UInt8.toNat_ofNat', Nat.mod_eq_of_lt (by omega)]
        have high : number / 128 < 128 ^ left * (lastMax + 1) := by
          apply Nat.div_lt_of_lt_mul
          rw [← Nat.mul_assoc, ← Nat.pow_succ']
          exact bound
        rw [varint, if_neg fits, List.cons_append, takeVarint, byte, if_neg (by omega),
          ih (number / 128) high]
        have sum : (number % 128 + 128) % 128 + 128 * (number / 128) = number := by omega
        simp only [sum]

/-- `u64` and, on 64-bit targets, `usize`: ten bytes, the last at most one. -/
def varintU64 (number : Nat) : Bytes := varint 10 number

def takeVarintU64 : Reader Nat := takeVarint 1 10

/-- `u32`: five bytes, the last at most fifteen. -/
def varintU32 (number : Nat) : Bytes := varint 5 number

def takeVarintU32 : Reader Nat := takeVarint 15 5

theorem takeVarintU64_varintU64 {number : Nat} (bound : number < 2 ^ 64) (rest : Bytes) :
    takeVarintU64 (varintU64 number ++ rest) = some (number, rest) :=
  takeVarint_varint (by decide) 9 number bound rest

theorem takeVarintU32_varintU32 {number : Nat} (bound : number < 2 ^ 32) (rest : Bytes) :
    takeVarintU32 (varintU32 number ++ rest) = some (number, rest) :=
  takeVarint_varint (by decide) 4 number bound rest

/-! ## Signed integers -/

def zigzag (number : Int) : Nat :=
  if 0 ≤ number then (2 * number).toNat else (-2 * number - 1).toNat

def unzigzag (code : Nat) : Int :=
  if code % 2 = 0 then (code / 2 : Nat) else -((code / 2 : Nat) : Int) - 1

theorem unzigzag_zigzag (number : Int) : unzigzag (zigzag number) = number := by
  unfold zigzag unzigzag
  split <;> split <;> omega

theorem zigzag_lt {number : Int} (lower : -2 ^ 63 ≤ number) (upper : number < 2 ^ 63) :
    zigzag number < 2 ^ 64 := by
  unfold zigzag
  split <;> omega

def i64 (number : Int64) : Bytes :=
  varintU64 (zigzag number.toInt)

def takeI64 : Reader Int64 := fun input =>
  match takeVarintU64 input with
  | none => none
  | some (code, rest) => some (Int64.ofInt (unzigzag code), rest)

theorem takeI64_i64 (number : Int64) (rest : Bytes) :
    takeI64 (i64 number ++ rest) = some (number, rest) := by
  have bound := zigzag_lt number.le_toInt number.toInt_lt
  simp only [takeI64, i64, takeVarintU64_varintU64 bound, unzigzag_zigzag, Int64.ofInt_toInt]

/-! ## Byte sequences and optional values -/

/-- A byte sequence preceded by its length. -/
def bytes (content : Bytes) : Bytes :=
  varintU64 content.length ++ content

def takeBytes : Reader Bytes := fun input =>
  match takeVarintU64 input with
  | none => none
  | some (length, rest) =>
      if length ≤ rest.length then some (rest.take length, rest.drop length) else none

theorem takeBytes_bytes {content : Bytes} (bound : content.length < 2 ^ 64) (rest : Bytes) :
    takeBytes (bytes content ++ rest) = some (content, rest) := by
  have fits : content.length ≤ (content ++ rest).length := by
    rw [List.length_append]
    exact Nat.le_add_right _ _
  simp only [takeBytes, bytes, List.append_assoc, takeVarintU64_varintU64 bound, if_pos fits,
    List.take_left, List.drop_left]

def u8 (byte : UInt8) : Bytes := [byte]

/-- A sequence is written as its length and then item by item. -/
def seq {α : Type} (write : α -> Bytes) (items : List α) : Bytes :=
  varintU64 items.length ++ items.flatMap write

/-- A sequence of single bytes has the form of a byte sequence. -/
theorem seq_u8 (content : Bytes) : seq u8 content = bytes content := by
  unfold seq bytes u8
  rw [List.flatMap_singleton']

def option {α : Type} (write : α -> Bytes) : Option α -> Bytes
  | none => [0]
  | some value => 1 :: write value

def takeOption {α : Type} (read : Reader α) : Reader (Option α)
  | 0 :: rest => some (none, rest)
  | 1 :: rest =>
      match read rest with
      | none => none
      | some (value, after) => some (some value, after)
  | _ => none

theorem takeOption_option {α : Type} {write : α -> Bytes} {read : Reader α}
    (inverse : forall value rest, read (write value ++ rest) = some (value, rest))
    (value : Option α) (rest : Bytes) :
    takeOption read (option write value ++ rest) = some (value, rest) := by
  cases value with
  | none => rfl
  | some value => simp only [option, List.cons_append, takeOption, inverse]

end Postcard
