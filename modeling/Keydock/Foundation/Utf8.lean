import Keydock.Foundation.Text

/-!
# UTF-8 texts

Two properties of the UTF-8 form of a text.  An ASCII byte occurs in it only as
an ASCII character, so that lines split at a newline byte are the UTF-8 forms
of the lines of the text.  And the lossy reading of it loses nothing.
-/

namespace Bytes

/-! ## Bytes of a sequence -/

/-- A byte made of a marker and some bits of a value. -/
theorem toNat_part (value modulus base : Nat) (positive : 0 < modulus) (fits : modulus + base ≤ 256) :
    (UInt8.ofNat (value % modulus + base)).toNat = value % modulus + base := by
  have small := Nat.mod_lt value positive
  rw [UInt8.toNat_ofNat', Nat.mod_eq_of_lt (by omega)]

theorem ofNat_eq {number : Nat} {byte : UInt8} (same : number = byte.toNat) : UInt8.ofNat number = byte := by
  rw [same, UInt8.ofNat_toNat]

/-- Every byte of a character from 128 on is at least 128. -/
theorem high_of_mem_utf8EncodeChar {c : Char} (wide : 128 ≤ c.toNat) {byte : UInt8}
    (member : byte ∈ String.utf8EncodeChar c) : 128 ≤ byte.toNat := by
  have above : ¬ c.val.toNat ≤ 127 := Nat.not_le_of_gt wide
  have lead : forall value modulus base : Nat, 128 ≤ base -> 0 < modulus -> modulus + base ≤ 256 ->
      128 ≤ (UInt8.ofNat (value % modulus + base)).toNat := by
    intro value modulus base high positive fits
    rw [toNat_part value modulus base positive fits]
    omega
  simp only [String.utf8EncodeChar, if_neg above] at member
  split at member
  · simp only [List.mem_cons, List.not_mem_nil, or_false] at member
    rcases member with rfl | rfl <;> exact lead _ _ _ (by decide) (by decide) (by decide)
  · split at member
    · simp only [List.mem_cons, List.not_mem_nil, or_false] at member
      rcases member with rfl | rfl | rfl <;> exact lead _ _ _ (by decide) (by decide) (by decide)
    · simp only [List.mem_cons, List.not_mem_nil, or_false] at member
      rcases member with rfl | rfl | rfl | rfl <;> exact lead _ _ _ (by decide) (by decide) (by decide)

/-- An ASCII byte of a text is an ASCII character of it. -/
theorem mem_utf8_of_ascii {a : Char} (ascii : a.toNat < 128) (chars : List Char) :
    UInt8.ofNat a.toNat ∈ utf8 (String.ofList chars) ↔ a ∈ chars := by
  have low : (UInt8.ofNat a.toNat).toNat = a.toNat := by
    rw [UInt8.toNat_ofNat', Nat.mod_eq_of_lt (by omega)]
  rw [utf8_ofList, List.mem_flatMap]
  constructor
  · rintro ⟨c, member, inside⟩
    by_cases narrow : c.toNat < 128
    · rw [utf8EncodeChar_ascii narrow, List.mem_singleton] at inside
      have same := congrArg UInt8.toNat inside
      rw [low, UInt8.toNat_ofNat', Nat.mod_eq_of_lt (by omega)] at same
      rw [Char.toNat_inj.mp same]
      exact member
    · have high := high_of_mem_utf8EncodeChar (Nat.le_of_not_lt narrow) inside
      omega
  · intro member
    refine ⟨a, member, ?_⟩
    rw [utf8EncodeChar_ascii ascii]
    exact List.mem_singleton_self _

/-- The text joined from lines splits into the UTF-8 forms of the lines. -/
theorem splitOn_utf8_intercalate {a : Char} (ascii : a.toNat < 128) {lines : List (List Char)}
    (some : lines ≠ []) (free : forall line, line ∈ lines -> a ∉ line) :
    (utf8 (String.ofList (List.intercalate [a] lines))).splitOn (UInt8.ofNat a.toNat) =
      lines.map (fun line => utf8 (String.ofList line)) := by
  have joined : utf8 (String.ofList (List.intercalate [a] lines)) =
      List.intercalate [UInt8.ofNat a.toNat] (lines.map (fun line => utf8 (String.ofList line))) := by
    clear some free
    induction lines with
    | nil => rfl
    | cons line rest ih =>
        cases rest with
        | nil => simp [List.intercalate]
        | cons next rest =>
            rw [List.map_cons, List.map_cons, List.intercalate_cons_cons, List.intercalate_cons_cons,
              String.ofList_append, String.ofList_append, utf8_append, utf8_append, ih, utf8_ofList [a],
              List.flatMap_singleton, utf8EncodeChar_ascii ascii]
            rfl
  rw [joined]
  refine List.splitOn_intercalate _ ?_ (by simpa using some)
  rintro _ member
  rcases List.mem_map.mp member with ⟨line, inside, rfl⟩
  rw [mem_utf8_of_ascii ascii]
  exact free line inside

/-- Lines that each end in the separator split into the lines, and nothing
after the last. -/
theorem splitOn_terminated {separator : UInt8} {lines : List Bytes}
    (free : forall line, line ∈ lines -> separator ∉ line) :
    (lines.map (fun line => line ++ [separator])).flatten.splitOn separator = lines ++ [[]] := by
  induction lines with
  | nil => rfl
  | cons line rest ih =>
      rw [List.map_cons, List.flatten_cons, List.append_assoc, List.singleton_append,
        List.splitOn_append_cons_self_of_not_mem (free line List.mem_cons_self),
        ih (fun other member => free other (List.mem_cons_of_mem line member)), List.cons_append]

end Bytes

namespace Text

theorem mem_replaceChar {c old : Char} {replacement : String} {text : List Char}
    (member : c ∈ replaceChar old replacement text) : (c ∈ text ∧ c ≠ old) ∨ c ∈ replacement.toList := by
  rcases List.mem_flatMap.mp member with ⟨original, inside, placed⟩
  split at placed
  next => exact .inr placed
  next different =>
    rw [List.mem_singleton.mp placed]
    exact .inl ⟨inside, different⟩

/-! ## Lossy reading of valid texts -/

theorem isContinuation_ofNat (value : Nat) : isContinuation (UInt8.ofNat (value % 64 + 128)) = true := by
  simp only [isContinuation, UInt8.toNat_ofNat', Bool.and_eq_true, decide_eq_true_eq]
  omega

/-- The second byte of a sequence of three bytes is allowed when the value is
neither below its range nor a surrogate. -/
theorem secondAllowed_three {value : Nat} (low : 2048 ≤ value) (high : value < 65536)
    (scalar : value < 55296 ∨ 57343 < value) :
    secondAllowed (UInt8.ofNat (value / 4096 % 16 + 224)) (UInt8.ofNat (value / 64 % 64 + 128)) = true := by
  have first : (UInt8.ofNat (value / 4096 % 16 + 224)).toNat = value / 4096 + 224 := by
    rw [Bytes.toNat_part _ _ _ (by decide) (by decide)]
    omega
  have second := Bytes.toNat_part (value / 64) 64 128 (by decide) (by decide)
  simp only [secondAllowed, isContinuation, first, second]
  split
  · simp only [Bool.and_eq_true, decide_eq_true_eq]
    omega
  · split
    · simp only [Bool.and_eq_true, decide_eq_true_eq]
      omega
    · rw [if_neg (by omega), if_neg (by omega)]
      simp only [Bool.and_eq_true, decide_eq_true_eq]
      omega

theorem secondAllowed_four {value : Nat} (low : 65536 ≤ value) (high : value < 1114112) :
    secondAllowed (UInt8.ofNat (value / 262144 % 8 + 240)) (UInt8.ofNat (value / 4096 % 64 + 128)) = true := by
  have first : (UInt8.ofNat (value / 262144 % 8 + 240)).toNat = value / 262144 + 240 := by
    rw [Bytes.toNat_part _ _ _ (by decide) (by decide)]
    omega
  have second := Bytes.toNat_part (value / 4096) 64 128 (by decide) (by decide)
  simp only [secondAllowed, isContinuation, first, second]
  rw [if_neg (by omega), if_neg (by omega)]
  split
  · simp only [Bool.and_eq_true, decide_eq_true_eq]
    omega
  · split
    · simp only [Bool.and_eq_true, decide_eq_true_eq]
      omega
    · simp only [Bool.and_eq_true, decide_eq_true_eq]
      omega

/-! The sequences of one to four bytes. -/

theorem lossyHead_one {value : Nat} (high : value < 128) (rest : Bytes) :
    lossyHead (UInt8.ofNat value) rest = (Char.ofNat value, rest) := by
  have first : (UInt8.ofNat value).toNat = value := by
    rw [UInt8.toNat_ofNat']
    omega
  unfold lossyHead
  rw [first, if_pos (by omega)]

theorem lossyHead_two {value : Nat} (low : 128 ≤ value) (high : value < 2048) (rest : Bytes) :
    lossyHead (UInt8.ofNat (value / 64 % 32 + 192)) (UInt8.ofNat (value % 64 + 128) :: rest) =
      (Char.ofNat value, rest) := by
  have first : (UInt8.ofNat (value / 64 % 32 + 192)).toNat = value / 64 + 192 := by
    rw [Bytes.toNat_part _ _ _ (by decide) (by decide)]
    omega
  have second := Bytes.toNat_part value 64 128 (by decide) (by decide)
  have code : (value / 64 + 192 - 0xC0) * 64 + (value % 64 + 128 - 0x80) = value := by omega
  unfold lossyHead
  rw [first, if_neg (by omega), if_pos (by omega)]
  simp only [isContinuation_ofNat, if_true, second, code]

theorem lossyHead_three {value : Nat} (low : 2048 ≤ value) (high : value < 65536)
    (scalar : value < 55296 ∨ 57343 < value) (rest : Bytes) :
    lossyHead (UInt8.ofNat (value / 4096 % 16 + 224))
        (UInt8.ofNat (value / 64 % 64 + 128) :: UInt8.ofNat (value % 64 + 128) :: rest) =
      (Char.ofNat value, rest) := by
  have first : (UInt8.ofNat (value / 4096 % 16 + 224)).toNat = value / 4096 + 224 := by
    rw [Bytes.toNat_part _ _ _ (by decide) (by decide)]
    omega
  have second := Bytes.toNat_part (value / 64) 64 128 (by decide) (by decide)
  have third := Bytes.toNat_part value 64 128 (by decide) (by decide)
  have code : (value / 4096 + 224 - 0xE0) * 4096 + (value / 64 % 64 + 128 - 0x80) * 64 +
      (value % 64 + 128 - 0x80) = value := by
    omega
  have allowed := secondAllowed_three low high scalar
  unfold lossyHead
  rw [first, if_neg (by omega), if_neg (by omega), if_pos (by omega)]
  simp only [allowed, isContinuation_ofNat, if_true, second, third, code]

theorem lossyHead_four {value : Nat} (low : 65536 ≤ value) (high : value < 1114112) (rest : Bytes) :
    lossyHead (UInt8.ofNat (value / 262144 % 8 + 240))
        (UInt8.ofNat (value / 4096 % 64 + 128) :: UInt8.ofNat (value / 64 % 64 + 128) ::
          UInt8.ofNat (value % 64 + 128) :: rest) =
      (Char.ofNat value, rest) := by
  have first : (UInt8.ofNat (value / 262144 % 8 + 240)).toNat = value / 262144 + 240 := by
    rw [Bytes.toNat_part _ _ _ (by decide) (by decide)]
    omega
  have second := Bytes.toNat_part (value / 4096) 64 128 (by decide) (by decide)
  have third := Bytes.toNat_part (value / 64) 64 128 (by decide) (by decide)
  have fourth := Bytes.toNat_part value 64 128 (by decide) (by decide)
  have code : (value / 262144 + 240 - 0xF0) * 262144 + (value / 4096 % 64 + 128 - 0x80) * 4096 +
      (value / 64 % 64 + 128 - 0x80) * 64 + (value % 64 + 128 - 0x80) = value := by
    omega
  have allowed := secondAllowed_four low high
  unfold lossyHead
  rw [first, if_neg (by omega), if_neg (by omega), if_neg (by omega), if_pos (by omega)]
  simp only [allowed, isContinuation_ofNat, if_true, second, third, fourth, code]

/-- One step of the lossy reading takes one character off a valid text. -/
theorem lossyHead_utf8EncodeChar (c : Char) (rest : Bytes) :
    Exists fun first => Exists fun tail =>
      String.utf8EncodeChar c ++ rest = first :: tail ∧ lossyHead first tail = (c, rest) := by
  have valid : c.toNat < 0xd800 ∨ (0xdfff < c.toNat ∧ c.toNat < 0x110000) := c.valid
  have value : c.val.toNat = c.toNat := rfl
  simp only [String.utf8EncodeChar, value]
  split
  next one =>
    refine ⟨_, _, rfl, (lossyHead_one (by omega) rest).trans ?_⟩
    rw [Char.ofNat_toNat]
  next above =>
    split
    next two =>
      refine ⟨_, _, rfl, (lossyHead_two (by omega) (by omega) rest).trans ?_⟩
      rw [Char.ofNat_toNat]
    next further =>
      split
      next three =>
        refine ⟨_, _, rfl, (lossyHead_three (by omega) (by omega) (by omega) rest).trans ?_⟩
        rw [Char.ofNat_toNat]
      next most =>
        refine ⟨_, _, rfl, (lossyHead_four (by omega) (by omega) rest).trans ?_⟩
        rw [Char.ofNat_toNat]

/-! ## Lossy reading of any bytes -/

theorem toNat_ofNat_scalar {value : Nat} (scalar : value < 55296 ∨ 57343 < value ∧ value < 1114112) :
    (Char.ofNat value).val.toNat = value := by
  have valid : value.isValidChar := scalar
  rw [Char.ofNat, dif_pos valid]
  rfl

theorem bounds_of_isContinuation {byte : UInt8} (continued : isContinuation byte = true) :
    128 ≤ byte.toNat ∧ byte.toNat ≤ 191 := by
  simpa only [isContinuation, Bool.and_eq_true, decide_eq_true_eq] using continued

theorem bounds_of_secondAllowed {first second : UInt8} (allowed : secondAllowed first second = true) :
    (128 ≤ second.toNat ∧ second.toNat ≤ 191) ∧ (first.toNat = 224 -> 160 ≤ second.toNat) ∧
      (first.toNat = 237 -> second.toNat ≤ 159) ∧ (first.toNat = 240 -> 144 ≤ second.toNat) ∧
      (first.toNat = 244 -> second.toNat ≤ 143) := by
  simp only [secondAllowed, isContinuation] at allowed
  split at allowed
  · simp only [Bool.and_eq_true, decide_eq_true_eq] at allowed
    omega
  · split at allowed
    · simp only [Bool.and_eq_true, decide_eq_true_eq] at allowed
      omega
    · split at allowed
      · simp only [Bool.and_eq_true, decide_eq_true_eq] at allowed
        omega
      · split at allowed <;> simp only [Bool.and_eq_true, decide_eq_true_eq] at allowed <;> omega

/-! A sequence that is read as a character is the form of that character. -/

theorem utf8EncodeChar_one {first : UInt8} (ascii : first.toNat < 128) :
    String.utf8EncodeChar (Char.ofNat first.toNat) = [first] := by
  have code := toNat_ofNat_scalar (.inl (Nat.lt_trans ascii (by decide)))
  simp only [String.utf8EncodeChar, code]
  rw [if_pos (by omega), UInt8.ofNat_toNat]

theorem utf8EncodeChar_two {first second : UInt8} (lead : 194 ≤ first.toNat ∧ first.toNat ≤ 223)
    (continued : isContinuation second = true) :
    String.utf8EncodeChar (Char.ofNat ((first.toNat - 0xC0) * 64 + (second.toNat - 0x80))) = [first, second] := by
  have bounds := bounds_of_isContinuation continued
  generalize same : (first.toNat - 0xC0) * 64 + (second.toNat - 0x80) = value
  have code := @toNat_ofNat_scalar value (by omega)
  have one : UInt8.ofNat (value / 64 % 32 + 0xc0) = first := Bytes.ofNat_eq (by omega)
  have two : UInt8.ofNat (value % 64 + 0x80) = second := Bytes.ofNat_eq (by omega)
  simp only [String.utf8EncodeChar, code]
  rw [if_neg (by omega), if_pos (by omega), one, two]

theorem utf8EncodeChar_three {first second third : UInt8} (lead : 224 ≤ first.toNat ∧ first.toNat ≤ 239)
    (allowed : secondAllowed first second = true) (continued : isContinuation third = true) :
    String.utf8EncodeChar (Char.ofNat ((first.toNat - 0xE0) * 4096 + (second.toNat - 0x80) * 64 +
      (third.toNat - 0x80))) = [first, second, third] := by
  have bounds := bounds_of_secondAllowed allowed
  have last := bounds_of_isContinuation continued
  generalize same : (first.toNat - 0xE0) * 4096 + (second.toNat - 0x80) * 64 + (third.toNat - 0x80) = value
  have code := @toNat_ofNat_scalar value (by omega)
  have one : UInt8.ofNat (value / 4096 % 16 + 0xe0) = first := Bytes.ofNat_eq (by omega)
  have two : UInt8.ofNat (value / 64 % 64 + 0x80) = second := Bytes.ofNat_eq (by omega)
  have three : UInt8.ofNat (value % 64 + 0x80) = third := Bytes.ofNat_eq (by omega)
  simp only [String.utf8EncodeChar, code]
  rw [if_neg (by omega), if_neg (by omega), if_pos (by omega), one, two, three]

theorem utf8EncodeChar_four {first second third fourth : UInt8} (lead : 240 ≤ first.toNat ∧ first.toNat ≤ 244)
    (allowed : secondAllowed first second = true) (thirdContinues : isContinuation third = true)
    (fourthContinues : isContinuation fourth = true) :
    String.utf8EncodeChar (Char.ofNat ((first.toNat - 0xF0) * 262144 + (second.toNat - 0x80) * 4096 +
      (third.toNat - 0x80) * 64 + (fourth.toNat - 0x80))) = [first, second, third, fourth] := by
  have bounds := bounds_of_secondAllowed allowed
  have inner := bounds_of_isContinuation thirdContinues
  have last := bounds_of_isContinuation fourthContinues
  generalize same : (first.toNat - 0xF0) * 262144 + (second.toNat - 0x80) * 4096 + (third.toNat - 0x80) * 64 +
    (fourth.toNat - 0x80) = value
  have code := @toNat_ofNat_scalar value (by omega)
  have one : UInt8.ofNat (value / 262144 % 8 + 0xf0) = first := Bytes.ofNat_eq (by omega)
  have two : UInt8.ofNat (value / 4096 % 64 + 0x80) = second := Bytes.ofNat_eq (by omega)
  have three : UInt8.ofNat (value / 64 % 64 + 0x80) = third := Bytes.ofNat_eq (by omega)
  have four : UInt8.ofNat (value % 64 + 0x80) = fourth := Bytes.ofNat_eq (by omega)
  simp only [String.utf8EncodeChar, code]
  rw [if_neg (by omega), if_neg (by omega), if_neg (by omega), one, two, three, four]

/-- A step of the lossy reading takes the form of a character, or takes other
bytes for a replacement character. -/
theorem lossyHead_cases (first : UInt8) (rest : Bytes) :
    first :: rest = String.utf8EncodeChar (lossyHead first rest).1 ++ (lossyHead first rest).2 ∨
      ((lossyHead first rest).1 = replacement ∧ Exists fun lost => rest = lost ++ (lossyHead first rest).2) := by
  unfold lossyHead
  split
  next ascii =>
    left
    rw [utf8EncodeChar_one ascii]
    rfl
  next =>
    split
    next lead =>
      split
      next second after =>
        split
        next continued =>
          left
          rw [utf8EncodeChar_two lead continued]
          rfl
        next => exact .inr ⟨rfl, [], rfl⟩
      next => exact .inr ⟨rfl, [], rfl⟩
    next =>
      split
      next lead =>
        split
        next second after =>
          split
          next allowed =>
            split
            next third tail =>
              split
              next continued =>
                left
                rw [utf8EncodeChar_three lead allowed continued]
                rfl
              next => exact .inr ⟨rfl, [second], rfl⟩
            next => exact .inr ⟨rfl, [second], rfl⟩
          next => exact .inr ⟨rfl, [], rfl⟩
        next => exact .inr ⟨rfl, [], rfl⟩
      next =>
        split
        next lead =>
          split
          next second after =>
            split
            next allowed =>
              split
              next third tail =>
                split
                next thirdContinues =>
                  split
                  next fourth remaining =>
                    split
                    next fourthContinues =>
                      left
                      rw [utf8EncodeChar_four lead allowed thirdContinues fourthContinues]
                      rfl
                    next => exact .inr ⟨rfl, [second, third], rfl⟩
                  next => exact .inr ⟨rfl, [second, third], rfl⟩
                next => exact .inr ⟨rfl, [second], rfl⟩
              next => exact .inr ⟨rfl, [second], rfl⟩
            next => exact .inr ⟨rfl, [], rfl⟩
          next => exact .inr ⟨rfl, [], rfl⟩
        next => exact .inr ⟨rfl, [], rfl⟩

theorem length_lossyHead_le (first : UInt8) (rest : Bytes) : (lossyHead first rest).2.length ≤ rest.length := by
  rcases lossyHead_cases first rest with whole | ⟨_, lost, split⟩
  · have lengths := congrArg List.length whole
    have positive := (lossyHead first rest).1.utf8Size_pos
    rw [List.length_cons, List.length_append, String.length_utf8EncodeChar] at lengths
    omega
  · have lengths := congrArg List.length split
    rw [List.length_append] at lengths
    omega

/-- Fuel beyond the length changes nothing. -/
theorem lossyFrom_eq {fuel : Nat} {bytes : Bytes} (enough : bytes.length ≤ fuel) :
    lossyFrom fuel bytes = fromUtf8Lossy bytes := by
  unfold fromUtf8Lossy
  have general : forall {left right : Nat} {bytes : Bytes}, bytes.length ≤ left -> bytes.length ≤ right ->
      lossyFrom left bytes = lossyFrom right bytes := by
    intro left
    induction left with
    | zero =>
        intro right bytes leftEnough _
        rw [List.length_eq_zero_iff.mp (Nat.le_zero.mp leftEnough)]
        cases right <;> rfl
    | succ left ih =>
        intro right bytes leftEnough rightEnough
        cases bytes with
        | nil => cases right <;> rfl
        | cons first rest =>
            cases right with
            | zero => cases rightEnough
            | succ right =>
                have shorter := length_lossyHead_le first rest
                rw [List.length_cons] at leftEnough rightEnough
                rw [lossyFrom, lossyFrom, @ih right (lossyHead first rest).2 (by omega) (by omega)]
  exact general enough (Nat.le_refl _)

theorem fromUtf8Lossy_cons (first : UInt8) (rest : Bytes) :
    fromUtf8Lossy (first :: rest) = (lossyHead first rest).1 :: fromUtf8Lossy (lossyHead first rest).2 := by
  rw [fromUtf8Lossy, List.length_cons, lossyFrom, lossyFrom_eq (length_lossyHead_le first rest)]

theorem fromUtf8Lossy_utf8EncodeChar (c : Char) (rest : Bytes) :
    fromUtf8Lossy (String.utf8EncodeChar c ++ rest) = c :: fromUtf8Lossy rest := by
  rcases lossyHead_utf8EncodeChar c rest with ⟨first, tail, split, head⟩
  rw [split, fromUtf8Lossy_cons, head]

/-- The lossy reading of a valid text is the text. -/
theorem fromUtf8Lossy_utf8 (text : String) : fromUtf8Lossy (Bytes.utf8 text) = text.toList := by
  rw [Bytes.utf8_toList]
  induction text.toList with
  | nil => rfl
  | cons c rest ih => rw [List.flatMap_cons, fromUtf8Lossy_utf8EncodeChar, ih]

/-- No sequence begins with a byte as high as this. -/
theorem lossyHead_high {byte : UInt8} (high : 245 ≤ byte.toNat) (rest : Bytes) :
    lossyHead byte rest = (replacement, rest) := by
  unfold lossyHead
  rw [if_neg (by omega), if_neg (by omega), if_neg (by omega), if_neg (by omega)]

/-- Bytes that are not valid UTF-8 are read like other bytes, no longer than
they are. -/
theorem exists_same_fromUtf8Lossy (bytes : Bytes) (invalid : forall text, bytes ≠ Bytes.utf8 text) :
    Exists fun other => other ≠ bytes ∧ other.length ≤ bytes.length ∧ fromUtf8Lossy other = fromUtf8Lossy bytes := by
  -- Keep the characters in front of the first invalid sequence, and put another invalid byte in its place.
  induction measured : bytes.length using Nat.strongRecOn generalizing bytes with
  | ind size ih =>
      cases bytes with
      | nil => exact absurd rfl (invalid "")
      | cons first rest =>
          rcases lossyHead_cases first rest with whole | ⟨replaced, lost, split⟩
          · generalize (lossyHead first rest).1 = c, (lossyHead first rest).2 = after at whole
            have shorter : after.length < size := by
              have lengths := congrArg List.length whole
              have positive := c.utf8Size_pos
              rw [measured, List.length_append, String.length_utf8EncodeChar] at lengths
              omega
            have still : forall text, after ≠ Bytes.utf8 text := by
              rintro text rfl
              refine invalid (String.ofList (c :: text.toList)) ?_
              rw [whole, Bytes.utf8_ofList, List.flatMap_cons, ← Bytes.utf8_toList]
            rcases ih after.length shorter after still rfl with ⟨other, different, bounded, same⟩
            refine ⟨String.utf8EncodeChar c ++ other, ?_, ?_, ?_⟩
            · rw [whole]
              exact fun equal => different (List.append_cancel_left equal)
            · rw [← measured, whole, List.length_append, List.length_append]
              omega
            · rw [whole, fromUtf8Lossy_utf8EncodeChar, fromUtf8Lossy_utf8EncodeChar, same]
          · have other : Exists fun byte : UInt8 => byte ≠ first ∧ 245 ≤ byte.toNat := by
              by_cases last : first = 0xFF
              · exact ⟨0xFE, by rw [last]; decide, by decide⟩
              · exact ⟨0xFF, fun same => last same.symm, by decide⟩
            rcases other with ⟨byte, different, high⟩
            refine ⟨byte :: (lossyHead first rest).2, ?_, ?_, ?_⟩
            · exact fun same => different (List.cons.inj same).1
            · rw [← measured, List.length_cons, List.length_cons]
              exact Nat.succ_le_succ (length_lossyHead_le first rest)
            · rw [fromUtf8Lossy_cons, fromUtf8Lossy_cons, lossyHead_high high, replaced]

end Text
