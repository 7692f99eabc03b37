import Mathlib.Data.List.Infix
import Mathlib.Data.UInt
import Mathlib.Tactic.Common
import Mathlib.Tactic.Ring

/-!
# Byte strings

Byte strings are lists of `UInt8`, ordered lexicographically.  The module
collects what the layouts below need of them: the UTF-8 form of a text, its
inverse, and fixed-width big-endian numerals, whose lexicographic order is the
numerical one.
-/

abbrev Bytes := List UInt8

namespace Bytes

/-! ## UTF-8 -/

/-- The UTF-8 bytes of a text. -/
def utf8 (text : String) : Bytes :=
  text.toByteArray.data.toList

/-- Read bytes as UTF-8; `none` when they are not valid. -/
def fromUtf8 (bytes : Bytes) : Option String :=
  String.fromUTF8? ⟨bytes.toArray⟩

@[simp] theorem fromUtf8_utf8 (text : String) : fromUtf8 (utf8 text) = some text := by
  have valid : (⟨(utf8 text).toArray⟩ : ByteArray).IsValidUTF8 := text.isValidUTF8
  unfold fromUtf8 String.fromUTF8?
  rw [dif_pos valid]
  rfl

theorem utf8_injective {left right : String} (same : utf8 left = utf8 right) : left = right := by
  have decoded := congrArg fromUtf8 same
  rw [fromUtf8_utf8, fromUtf8_utf8] at decoded
  exact Option.some.inj decoded

@[simp] theorem utf8_append (left right : String) :
    utf8 (left ++ right) = utf8 left ++ utf8 right := by
  simp [utf8]

theorem utf8_ofList (chars : List Char) :
    utf8 (String.ofList chars) = chars.flatMap String.utf8EncodeChar := by
  simp [utf8, List.utf8Encode]

theorem utf8_toList (text : String) : utf8 text = text.toList.flatMap String.utf8EncodeChar := by
  rw [← utf8_ofList, String.ofList_toList]

/-- A character below 128 is its own byte. -/
theorem utf8EncodeChar_ascii {c : Char} (ascii : c.toNat < 128) :
    String.utf8EncodeChar c = [UInt8.ofNat c.toNat] :=
  if_pos (Nat.le_of_lt_succ ascii)

/-- Any other character has a byte from 128 on: its last. -/
theorem utf8EncodeChar_wide {c : Char} (wide : 128 ≤ c.toNat) :
    Exists fun byte => byte ∈ String.utf8EncodeChar c ∧ 128 ≤ byte.toNat := by
  have continued : 128 ≤ (UInt8.ofNat (c.toNat % 64 + 128)).toNat := by
    rw [UInt8.toNat_ofNat', Nat.mod_eq_of_lt (by omega)]
    omega
  refine ⟨UInt8.ofNat (c.toNat % 64 + 128), ?_, continued⟩
  have above : ¬ c.val.toNat ≤ 127 := Nat.not_le_of_gt wide
  simp only [String.utf8EncodeChar, if_neg above]
  split
  · exact List.mem_cons_of_mem _ List.mem_cons_self
  · split
    · exact List.mem_cons_of_mem _ (List.mem_cons_of_mem _ List.mem_cons_self)
    · exact List.mem_cons_of_mem _ (List.mem_cons_of_mem _ (List.mem_cons_of_mem _ List.mem_cons_self))

/-! ## Separators -/

/-- A separator that occurs in neither head determines where they end. -/
theorem append_separator_inj {separator : UInt8} {left right leftRest rightRest : Bytes}
    (leftFree : separator ∉ left) (rightFree : separator ∉ right)
    (same : left ++ separator :: leftRest = right ++ separator :: rightRest) :
    left = right ∧ leftRest = rightRest := by
  induction left generalizing right with
  | nil =>
      cases right with
      | nil => exact ⟨rfl, (List.cons.inj same).2⟩
      | cons head tail =>
          have ends := List.cons.inj same
          exact False.elim (rightFree (ends.1 ▸ List.mem_cons_self))
  | cons head tail ih =>
      cases right with
      | nil =>
          have ends := List.cons.inj same
          exact False.elim (leftFree (ends.1.symm ▸ List.mem_cons_self))
      | cons other rest =>
          have ends := List.cons.inj same
          have later := ih (fun inside => leftFree (List.mem_cons_of_mem head inside))
            (fun inside => rightFree (List.mem_cons_of_mem other inside)) ends.2
          exact ⟨by rw [ends.1, later.1], later.2⟩

/-- A common beginning does not matter to the order. -/
theorem compare_append_left (start left right : Bytes) :
    compare (start ++ left) (start ++ right) = compare left right := by
  induction start with
  | nil => rfl
  | cons byte rest ih =>
      rw [List.cons_append, List.cons_append, List.compare_cons_cons, Std.compare_self, ih]
      rfl

theorem compare_eq_lt_iff (left right : Bytes) : compare left right = .lt ↔ left < right := by
  induction left generalizing right with
  | nil =>
      cases right with
      | nil => simp
      | cons byte rest => simp
  | cons byte rest ih =>
      cases right with
      | nil => simp
      | cons other tail =>
          rw [List.compare_cons_cons, List.cons_lt_cons_iff, Ordering.then_eq_lt, ih, Std.compare_eq_lt,
            Std.compare_eq_iff_eq]

/-! ## Big-endian numerals -/

/-- The `width` low bytes of a number, most significant first. -/
def toBigEndian : Nat -> Nat -> Bytes
  | 0, _ => []
  | width + 1, number => UInt8.ofNat (number / 256 ^ width) :: toBigEndian width (number % 256 ^ width)

def ofBigEndian : Bytes -> Nat
  | [] => 0
  | byte :: rest => byte.toNat * 256 ^ rest.length + ofBigEndian rest

@[simp] theorem length_toBigEndian (width number : Nat) : (toBigEndian width number).length = width := by
  induction width generalizing number with
  | zero => rfl
  | succ width ih => simp only [toBigEndian, List.length_cons, ih]

private theorem head_lt {width number : Nat} (bound : number < 256 ^ (width + 1)) :
    number / 256 ^ width < 256 := by
  apply Nat.div_lt_of_lt_mul
  rw [← Nat.pow_succ]
  exact bound

theorem ofBigEndian_lt (bytes : Bytes) : ofBigEndian bytes < 256 ^ bytes.length := by
  induction bytes with
  | nil => simp [ofBigEndian]
  | cons byte rest ih =>
      have top := byte.toNat_lt
      have scaled : (byte.toNat + 1) * 256 ^ rest.length ≤ 256 * 256 ^ rest.length :=
        Nat.mul_le_mul_right _ (by omega)
      simp only [ofBigEndian, List.length_cons, Nat.pow_succ]
      have expand : (byte.toNat + 1) * 256 ^ rest.length =
          byte.toNat * 256 ^ rest.length + 256 ^ rest.length := by ring
      omega

theorem ofBigEndian_toBigEndian {width number : Nat} (bound : number < 256 ^ width) :
    ofBigEndian (toBigEndian width number) = number := by
  induction width generalizing number with
  | zero =>
      have zero : number = 0 := by omega
      simp [zero, toBigEndian, ofBigEndian]
  | succ width ih =>
      have positive : 0 < 256 ^ width := Nat.pow_pos (by decide)
      have low := ih (Nat.mod_lt number positive)
      have top : (UInt8.ofNat (number / 256 ^ width)).toNat = number / 256 ^ width := by
        rw [UInt8.toNat_ofNat', Nat.mod_eq_of_lt (head_lt bound)]
      simp only [toBigEndian, ofBigEndian, length_toBigEndian, low, top]
      exact Nat.div_add_mod' number (256 ^ width)

theorem toBigEndian_ofBigEndian (bytes : Bytes) :
    toBigEndian bytes.length (ofBigEndian bytes) = bytes := by
  induction bytes with
  | nil => rfl
  | cons byte rest ih =>
      have low := ofBigEndian_lt rest
      have positive : 0 < 256 ^ rest.length := Nat.pow_pos (by decide)
      have high : (byte.toNat * 256 ^ rest.length + ofBigEndian rest) / 256 ^ rest.length = byte.toNat := by
        rw [Nat.mul_comm, Nat.mul_add_div positive, Nat.div_eq_of_lt low, Nat.add_zero]
      have rem : (byte.toNat * 256 ^ rest.length + ofBigEndian rest) % 256 ^ rest.length =
          ofBigEndian rest := by
        rw [Nat.mul_comm, Nat.mul_add_mod, Nat.mod_eq_of_lt low]
      simp only [List.length_cons, toBigEndian, ofBigEndian, high, rem, ih, UInt8.ofNat_toNat]

/-- Numerals of one width followed by anything compare first as numbers. -/
theorem compare_toBigEndian_append {width left right : Nat} (leftBound : left < 256 ^ width)
    (rightBound : right < 256 ^ width) (leftRest rightRest : Bytes) :
    compare (toBigEndian width left ++ leftRest) (toBigEndian width right ++ rightRest) =
      (compare left right).then (compare leftRest rightRest) := by
  induction width generalizing left right with
  | zero =>
      have leftZero : left = 0 := by omega
      have rightZero : right = 0 := by omega
      simp [toBigEndian, leftZero, rightZero, Std.compare_self]
  | succ width ih =>
      have positive : 0 < 256 ^ width := Nat.pow_pos (by decide)
      have tails := ih (Nat.mod_lt left positive) (Nat.mod_lt right positive)
      have heads : compare (UInt8.ofNat (left / 256 ^ width)) (UInt8.ofNat (right / 256 ^ width)) =
          compare (left / 256 ^ width) (right / 256 ^ width) := by
        have leftByte : (UInt8.ofNat (left / 256 ^ width)).toNat = left / 256 ^ width := by
          rw [UInt8.toNat_ofNat', Nat.mod_eq_of_lt (head_lt leftBound)]
        have rightByte : (UInt8.ofNat (right / 256 ^ width)).toNat = right / 256 ^ width := by
          rw [UInt8.toNat_ofNat', Nat.mod_eq_of_lt (head_lt rightBound)]
        rw [← leftByte, ← rightByte]
        simp only [compare, compareOfLessAndEq, UInt8.lt_iff_toNat_lt, ← UInt8.toNat_inj, leftByte, rightByte]
      have split : compare left right = (compare (left / 256 ^ width) (right / 256 ^ width)).then
          (compare (left % 256 ^ width) (right % 256 ^ width)) := by
        have leftSum := Nat.div_add_mod left (256 ^ width)
        have rightSum := Nat.div_add_mod right (256 ^ width)
        have leftLow := Nat.mod_lt left positive
        have rightLow := Nat.mod_lt right positive
        rcases Nat.lt_trichotomy (left / 256 ^ width) (right / 256 ^ width) with less | same | more
        · have smaller : left < right := by
            have gap := Nat.mul_le_mul_left (256 ^ width) (Nat.succ_le_of_lt less)
            rw [Nat.mul_succ] at gap
            omega
          rw [Nat.compare_eq_lt.mpr less, Nat.compare_eq_lt.mpr smaller]
          rfl
        · rw [same, Std.compare_self]
          rw [same] at leftSum
          rcases Nat.lt_trichotomy (left % 256 ^ width) (right % 256 ^ width) with less | even | more
          · rw [Nat.compare_eq_lt.mpr less, Nat.compare_eq_lt.mpr (by omega)]
            rfl
          · rw [even, Std.compare_self, show left = right by omega, Std.compare_self]
            rfl
          · rw [Nat.compare_eq_gt.mpr more, Nat.compare_eq_gt.mpr (by omega)]
            rfl
        · have larger : right < left := by
            have gap := Nat.mul_le_mul_left (256 ^ width) (Nat.succ_le_of_lt more)
            rw [Nat.mul_succ] at gap
            omega
          rw [Nat.compare_eq_gt.mpr more, Nat.compare_eq_gt.mpr larger]
          rfl
      simp only [toBigEndian, List.cons_append]
      rw [List.compare_cons_cons, tails, heads, split, Ordering.then_assoc]

end Bytes
