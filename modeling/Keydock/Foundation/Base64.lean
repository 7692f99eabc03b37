import Keydock.Foundation.Bytes
import Mathlib.Data.List.GetD

/-!
# Base64

Three bytes are written as four digits of six bits; a remainder of one or two
bytes gives two or three digits, followed by `=` signs when the engine pads.
The decoder is strict: it accepts a text only when the text is the encoding of
the bytes it denotes, so unused bits must be zero and the padding must be the
one the encoder writes.
-/

/-- Sixty-four distinct digits, none of which is the padding sign. -/
structure Base64 where
  digits : List Char
  length : digits.length = 64
  nodup : digits.Nodup
  unpadded : '=' ∉ digits
  padded : Bool

namespace Base64

/-- The digits both alphabets share: upper case, lower case, decimal. -/
private def common : List Char :=
  (List.range 26).map (fun i => Char.ofNat (0x41 + i)) ++
    (List.range 26).map (fun i => Char.ofNat (0x61 + i)) ++
    (List.range 10).map (fun i => Char.ofNat (0x30 + i))

/-- The standard alphabet with padding. -/
def standard : Base64 :=
  ⟨common ++ ['+', '/'], by decide +kernel, by decide +kernel, by decide +kernel, true⟩

/-- The alphabet for URLs and file names, without padding. -/
def urlSafeNoPad : Base64 :=
  ⟨common ++ ['-', '_'], by decide +kernel, by decide +kernel, by decide +kernel, false⟩

variable (engine : Base64)

def digit (value : Nat) : Char := engine.digits.getD value 'A'

def value (c : Char) : Option Nat :=
  if c ∈ engine.digits then some (engine.digits.idxOf c) else none

/-- The six-bit groups of a byte string, the last one filled with zeros. -/
def sextets : Bytes -> List Nat
  | a :: b :: c :: rest =>
      a.toNat / 4 :: (a.toNat % 4 * 16 + b.toNat / 16) :: (b.toNat % 16 * 4 + c.toNat / 64) ::
        c.toNat % 64 :: sextets rest
  | [a, b] => [a.toNat / 4, a.toNat % 4 * 16 + b.toNat / 16, b.toNat % 16 * 4]
  | [a] => [a.toNat / 4, a.toNat % 4 * 16]
  | [] => []

/-- The bytes of a sequence of six-bit groups; bits that fill no byte are dropped. -/
def ofSextets : List Nat -> Option Bytes
  | s :: t :: u :: v :: rest =>
      (ofSextets rest).map (fun bytes =>
        UInt8.ofNat (s * 4 + t / 16) :: UInt8.ofNat (t % 16 * 16 + u / 4) ::
          UInt8.ofNat (u % 4 * 64 + v) :: bytes)
  | [s, t, u] => some [UInt8.ofNat (s * 4 + t / 16), UInt8.ofNat (t % 16 * 16 + u / 4)]
  | [s, t] => some [UInt8.ofNat (s * 4 + t / 16)]
  | [_] => none
  | [] => some []

def padding (bytes : Bytes) : List Char :=
  if engine.padded then List.replicate ((3 - bytes.length % 3) % 3) '=' else []

def encode (bytes : Bytes) : List Char :=
  (sextets bytes).map engine.digit ++ engine.padding bytes

def decode (text : List Char) : Option Bytes := do
  let groups <- (text.takeWhile (fun c => c != '=')).mapM engine.value
  let bytes <- ofSextets groups
  if engine.encode bytes = text then some bytes else none

theorem encode_of_decode {text : List Char} {bytes : Bytes}
    (decoded : engine.decode text = some bytes) : engine.encode bytes = text := by
  simp only [decode, Option.bind_eq_bind, Option.bind_eq_some_iff] at decoded
  rcases decoded with ⟨_, _, candidate, _, checked⟩
  split at checked
  next same =>
    cases checked
    exact same
  next => cases checked

/-! ## Decoding inverts encoding -/

theorem sextets_lt (bytes : Bytes) : forall group, group ∈ sextets bytes -> group < 64 := by
  fun_induction sextets bytes with
  | case1 a b c rest ih =>
      have := a.toNat_lt
      have := b.toNat_lt
      have := c.toNat_lt
      intro group member
      simp only [List.mem_cons] at member
      rcases member with rfl | rfl | rfl | rfl | later
      · omega
      · omega
      · omega
      · omega
      · exact ih group later
  | case2 a b =>
      have := a.toNat_lt
      have := b.toNat_lt
      intro group member
      simp only [List.mem_cons, List.not_mem_nil, or_false] at member
      omega
  | case3 a =>
      have := a.toNat_lt
      intro group member
      simp only [List.mem_cons, List.not_mem_nil, or_false] at member
      omega
  | case4 =>
      intro group member
      cases member

private theorem byte_of_toNat (byte : UInt8) {number : Nat} (same : number = byte.toNat) :
    UInt8.ofNat number = byte := by
  rw [same, UInt8.ofNat_toNat]

theorem ofSextets_sextets (bytes : Bytes) : ofSextets (sextets bytes) = some bytes := by
  fun_induction sextets bytes with
  | case1 a b c rest ih =>
      have := a.toNat_lt
      have := b.toNat_lt
      have := c.toNat_lt
      rw [ofSextets, ih, Option.map_some, byte_of_toNat a (by omega),
        byte_of_toNat b (by omega), byte_of_toNat c (by omega)]
  | case2 a b =>
      have := a.toNat_lt
      have := b.toNat_lt
      rw [ofSextets, byte_of_toNat a (by omega), byte_of_toNat b (by omega)]
  | case3 a =>
      have := a.toNat_lt
      rw [ofSextets, byte_of_toNat a (by omega)]
  | case4 => rfl

theorem digit_mem {group : Nat} (small : group < 64) : engine.digit group ∈ engine.digits := by
  have inside : group < engine.digits.length := by rw [engine.length]; exact small
  rw [digit, List.getD_eq_getElem _ _ inside]
  exact List.getElem_mem inside

theorem value_digit {group : Nat} (small : group < 64) :
    engine.value (engine.digit group) = some group := by
  have inside : group < engine.digits.length := by rw [engine.length]; exact small
  have found : engine.digits.idxOf (engine.digit group) = group := by
    rw [digit, List.getD_eq_getElem _ _ inside]
    exact engine.nodup.idxOf_getElem group inside
  rw [value, if_pos (engine.digit_mem small), found]

/-- Every character of an encoding is a digit or padding. -/
theorem mem_encode {bytes : Bytes} {c : Char} (member : c ∈ engine.encode bytes) :
    c ∈ engine.digits ∨ c = '=' := by
  rcases List.mem_append.mp member with inside | outside
  · rcases List.mem_map.mp inside with ⟨group, listed, rfl⟩
    exact Or.inl (engine.digit_mem (sextets_lt bytes group listed))
  · unfold padding at outside
    split at outside
    · exact Or.inr (List.eq_of_mem_replicate outside)
    · cases outside

private theorem takeWhile_encode (bytes : Bytes) :
    (engine.encode bytes).takeWhile (fun c => c != '=') = (sextets bytes).map engine.digit := by
  have plain : forall c, c ∈ (sextets bytes).map engine.digit -> (c != '=') = true := by
    intro c member
    rcases List.mem_map.mp member with ⟨group, listed, rfl⟩
    have inside := engine.digit_mem (sextets_lt bytes group listed)
    exact bne_iff_ne.mpr (fun same => engine.unpadded (same ▸ inside))
  rw [encode, List.takeWhile_append_of_pos plain]
  have nothing : (engine.padding bytes).takeWhile (fun c => c != '=') = [] := by
    unfold padding
    split
    · cases (3 - bytes.length % 3) % 3 <;> rfl
    · rfl
  rw [nothing, List.append_nil]

private theorem mapM_value (groups : List Nat) (small : forall group, group ∈ groups -> group < 64) :
    (groups.map engine.digit).mapM engine.value = some groups := by
  induction groups with
  | nil => rfl
  | cons group rest ih =>
      rw [List.map_cons, List.mapM_cons, engine.value_digit (small group List.mem_cons_self),
        ih (fun later member => small later (List.mem_cons_of_mem group member))]
      rfl

theorem decode_encode (bytes : Bytes) : engine.decode (engine.encode bytes) = some bytes := by
  simp only [decode, takeWhile_encode, mapM_value engine _ (sextets_lt bytes), Option.bind_eq_bind,
    Option.bind_some, ofSextets_sextets, if_true]

example : urlSafeNoPad.decode ['Q', 'U', 'I'] = some [0x41, 0x42] ∧
    urlSafeNoPad.decode ['Q', 'U', 'J'] = none := by decide +kernel

end Base64
