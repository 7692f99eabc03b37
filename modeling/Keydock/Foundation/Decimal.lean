import Keydock.Foundation.Binary64

/-!
# Decimal text of binary64 numbers

The text that is written for a finite number reads back as the number.  The
search for short text keeps only decimals that read back, the exact expansion
does so because rounding an exact value changes nothing, and plain notation
denotes the decimal it was made from.
-/

namespace Binary64

/-! ## Rounding exact values -/

theorem ofPattern_magnitude {negative : Bool} {pattern : Nat} (small : pattern < 2 ^ 63) :
    (ofPattern negative pattern).magnitude.val = pattern :=
  Nat.mod_eq_of_lt small

theorem scaled_eq_zero {x : Binary64} (zero : x.scaled = 0) : x.magnitude.val = 0 := by
  have split := Nat.div_add_mod x.magnitude.val (2 ^ 52)
  unfold scaled at zero
  simp only at zero
  split at zero
  next low => rw [low, zero] at split; exact split.symm
  next =>
    have power : 0 < 2 ^ (x.magnitude.val / 2 ^ 52 - 1) := Nat.pow_pos (by decide)
    rcases Nat.mul_eq_zero.mp zero with left | right
    · omega
    · omega

/-- The parts that rounding computes for the scaled magnitude of a finite
number: nothing is cut off, and the pattern is put together again. -/
theorem scaled_parts {x : Binary64} (nonzero : x.scaled ≠ 0) :
    x.scaled % 2 ^ (x.scaled.log2 - 52) = 0 ∧
      (x.scaled.log2 - 52) * 2 ^ 52 + x.scaled / 2 ^ (x.scaled.log2 - 52) = x.magnitude.val := by
  have split := Nat.div_add_mod x.magnitude.val (2 ^ 52)
  have below : x.magnitude.val % 2 ^ 52 < 2 ^ 52 := Nat.mod_lt _ (by decide)
  by_cases low : x.magnitude.val / 2 ^ 52 = 0
  · have value : x.scaled = x.magnitude.val % 2 ^ 52 := if_pos low
    have short : x.scaled.log2 < 52 := (Nat.log2_lt nonzero).mpr (value ▸ below)
    have noShift : x.scaled.log2 - 52 = 0 := by omega
    rw [noShift, Nat.pow_zero, Nat.mod_one, Nat.div_one, value]
    rw [low] at split
    exact ⟨rfl, by omega⟩
  · have value : x.scaled = (x.magnitude.val % 2 ^ 52 + 2 ^ 52) * 2 ^ (x.magnitude.val / 2 ^ 52 - 1) := if_neg low
    generalize x.magnitude.val / 2 ^ 52 = exponent at low split value
    generalize x.magnitude.val % 2 ^ 52 = fraction at below split value
    have power : 0 < 2 ^ (exponent - 1) := Nat.pow_pos (by decide)
    have leading : x.scaled.log2 = 52 + (exponent - 1) := by
      rw [Nat.log2_eq_iff nonzero, value]
      constructor
      · rw [Nat.pow_add]
        exact Nat.mul_le_mul_right _ (Nat.le_add_left _ _)
      · rw [Nat.add_right_comm, Nat.pow_add]
        exact Nat.mul_lt_mul_of_pos_right (by omega) power
    have shift : x.scaled.log2 - 52 = exponent - 1 := by omega
    rw [shift, value, Nat.mul_mod_left, Nat.mul_div_cancel _ power]
    exact ⟨rfl, by omega⟩

/-- Rounding the exact value of a finite number gives its pattern. -/
theorem roundMagnitude_exact {x : Binary64} (finite : x.isFinite = true) (nonzero : x.scaled ≠ 0)
    {numerator denominator : Nat} (positive : 0 < denominator)
    (exact : numerator * 2 ^ 1074 = x.scaled * denominator) :
    roundMagnitude numerator denominator = x.magnitude.val := by
  have small : x.magnitude.val < infinity := by simpa [isFinite] using finite
  rcases scaled_parts nonzero with ⟨whole, parts⟩
  unfold roundMagnitude
  simp only [exact, Nat.mul_div_cancel _ positive]
  generalize x.scaled.log2 - 52 = shift at whole parts
  have power : 0 < 2 ^ shift := Nat.pow_pos (by decide)
  have divisor : 0 < denominator * 2 ^ shift := Nat.mul_pos positive power
  have quotient : x.scaled * denominator / (denominator * 2 ^ shift) = x.scaled / 2 ^ shift := by
    rw [Nat.mul_comm denominator, Nat.mul_div_mul_right _ _ positive]
  have remainder : x.scaled * denominator % (denominator * 2 ^ shift) = 0 := by
    rw [Nat.mul_comm denominator, Nat.mul_mod_mul_right, whole, Nat.zero_mul]
  have stays : (decide (denominator * 2 ^ shift < 2 * 0) ||
      (2 * 0 == denominator * 2 ^ shift && x.scaled / 2 ^ shift % 2 == 1)) = false := by
    have different : (2 * 0 == denominator * 2 ^ shift) = false := beq_eq_false_iff_ne.mpr (by omega)
    rw [different, Bool.false_and, Bool.or_false]
    exact decide_eq_false (Nat.not_lt_zero _)
  rw [quotient, remainder, stays, if_neg Bool.false_ne_true, parts]
  exact Nat.min_eq_left (Nat.le_of_lt small)

/-! ## Decimals -/

/-- The sign of a decimal has no influence on its magnitude. -/
theorem ofDecimal_sign (negative : Bool) (digits : Nat) (exponent : Int) :
    ofDecimal negative digits exponent = ⟨negative, (ofDecimal false digits exponent).magnitude⟩ := by
  unfold ofDecimal ofFraction ofPattern
  split
  · rfl
  · split
    · rfl
    · split
      · rfl
      · split <;> rfl

/-- Appending zeros instead of counting them. -/
theorem ofDecimal_shift {digits : Nat} {exponent : Int} (whole : 0 ≤ exponent)
    (finite : (ofDecimal false digits exponent).isFinite = true) :
    ofDecimal false (digits * 10 ^ exponent.toNat) 0 = ofDecimal false digits exponent := by
  by_cases zero : digits = 0
  · rw [zero, Nat.zero_mul, ofDecimal, if_pos rfl, ofDecimal, if_pos rfl]
  · have positive : 0 < 10 ^ exponent.toNat := Nat.pow_pos (by decide)
    have nonzero : digits * 10 ^ exponent.toNat ≠ 0 := Nat.mul_ne_zero zero (Nat.ne_of_gt positive)
    by_cases huge : 310 < exponent
    · rw [ofDecimal, if_neg zero, if_pos huge] at finite
      exact absurd finite (by decide)
    · have logDigits := Int.natCast_nonneg (Nat.log 10 digits)
      have logShifted := Int.natCast_nonneg (Nat.log 10 (digits * 10 ^ exponent.toNat))
      rw [ofDecimal, if_neg nonzero, if_neg (by decide), if_neg (by omega), if_pos (Int.le_refl 0), ofDecimal,
        if_neg zero, if_neg huge, if_neg (by omega), if_pos whole]
      simp

/-- The exact expansion of a finite number. -/
def exactDecimal (x : Binary64) : Nat × Int := (x.scaled * 5 ^ 1074, -1074)

/-- The exact expansion reads back as the number. -/
theorem exactDecimal_reads {x : Binary64} (finite : x.isFinite = true) (nonzero : x.scaled ≠ 0) :
    (ofDecimal false x.exactDecimal.1 x.exactDecimal.2).magnitude.val = x.magnitude.val := by
  have five : forall power, 0 < 5 ^ power := fun power => Nat.pow_pos (by decide)
  have digits : x.exactDecimal.1 ≠ 0 := Nat.mul_ne_zero nonzero (Nat.ne_of_gt (five 1074))
  have above : forall places, 10 ^ places ≤ 5 ^ 1074 -> places ≤ Nat.log 10 x.exactDecimal.1 := by
    intro places power
    have bound : 10 ^ places ≤ x.exactDecimal.1 :=
      Nat.le_trans power (Nat.le_mul_of_pos_left _ (Nat.pos_of_ne_zero nonzero))
    exact Nat.le_log_of_pow_le Nat.one_lt_ofNat bound
  have long : 750 ≤ Nat.log 10 x.exactDecimal.1 := above 750 (by decide +kernel)
  have scale : x.exactDecimal.1 * 2 ^ 1074 = x.scaled * 10 ^ x.exactDecimal.2.natAbs := by
    have exponent : x.exactDecimal.2.natAbs = 1074 := rfl
    have split : forall places, 5 ^ places * 2 ^ places = 10 ^ places := fun places => (Nat.mul_pow 5 2 places).symm
    rw [exponent, exactDecimal, Nat.mul_assoc, split]
  have places : x.exactDecimal.2 = -1074 := rfl
  generalize x.exactDecimal = decimal at digits long scale places
  have rounded := roundMagnitude_exact finite nonzero (Nat.pow_pos (by decide)) scale
  rw [ofDecimal, if_neg digits, if_neg (by omega), if_neg (by omega), if_neg (by omega), ofFraction, rounded,
    ofPattern_magnitude x.magnitude.isLt]

/-! ## Plain notation -/

/-- Every character is a decimal digit. -/
def Digits (text : List Char) : Prop := forall c, c ∈ text -> c.isDigit = true

theorem digits_toDigits (number : Nat) : Digits (Nat.toDigits 10 number) := Text.isDigit_toDigits number

theorem digits_zeros (count : Nat) : Digits (List.replicate count '0') := by
  intro c member
  rw [List.eq_of_mem_replicate member]
  rfl

theorem Digits.append {left right : List Char} (first : Digits left) (second : Digits right) :
    Digits (left ++ right) := by
  intro c member
  rcases List.mem_append.mp member with inside | inside
  · exact first c inside
  · exact second c inside

theorem isDigit_eq (c : Char) : isDigit c = c.isDigit := by
  unfold isDigit Text.digitValue
  by_cases decimal : '0' ≤ c ∧ c ≤ '9'
  · rw [if_pos decimal]
    simp only [Char.isDigit, Option.isSome_some]
    exact (Bool.and_eq_true_iff.mpr ⟨decide_eq_true decimal.1, decide_eq_true decimal.2⟩).symm
  · rw [if_neg decimal]
    symm
    apply Bool.eq_false_iff.mpr
    intro digit
    simp only [Char.isDigit, Bool.and_eq_true, decide_eq_true_eq] at digit
    exact decimal digit

theorem takeWhile_digits {text rest : List Char} (digits : Digits text)
    (stops : forall c tail, rest = c :: tail -> c.isDigit = false) : (text ++ rest).takeWhile isDigit = text := by
  induction text with
  | nil =>
      cases rest with
      | nil => rfl
      | cons c tail => rw [List.nil_append, List.takeWhile_cons, isDigit_eq, stops c tail rfl]; rfl
  | cons c others ih =>
      rw [List.cons_append, List.takeWhile_cons, isDigit_eq, digits c List.mem_cons_self, if_pos rfl,
        ih (fun later member => digits later (List.mem_cons_of_mem c member))]

theorem dropWhile_digits {text rest : List Char} (digits : Digits text)
    (stops : forall c tail, rest = c :: tail -> c.isDigit = false) : (text ++ rest).dropWhile isDigit = rest := by
  induction text with
  | nil =>
      cases rest with
      | nil => rfl
      | cons c tail => rw [List.nil_append, List.dropWhile_cons, isDigit_eq, stops c tail rfl]; rfl
  | cons c others ih =>
      rw [List.cons_append, List.dropWhile_cons, isDigit_eq, digits c List.mem_cons_self, if_pos rfl,
        ih (fun later member => digits later (List.mem_cons_of_mem c member))]

/-- A text that starts with a digit is none of the named values. -/
theorem not_named {text : List Char} (nonempty : text ≠ []) (digits : Digits text) (rest : List Char) :
    let lower := Text.toAsciiLowercase (text ++ rest)
    ¬ (lower = "inf".toList ∨ lower = "infinity".toList) ∧ lower ≠ "nan".toList := by
  intro lower
  cases text with
  | nil => exact absurd rfl nonempty
  | cons c others =>
      have digit := digits c List.mem_cons_self
      have head : lower.head? = some c := by
        have plain : ¬ ('A' ≤ c ∧ c ≤ 'Z') := by
          simp only [Char.isDigit, Bool.and_eq_true, decide_eq_true_eq] at digit
          rintro ⟨above, _⟩
          exact absurd (UInt32.le_trans above digit.2) (by decide)
        simp only [lower, Text.toAsciiLowercase, List.cons_append, List.map_cons, List.head?_cons, if_neg plain]
      have mismatch : forall name : List Char, name.head? = some 'i' ∨ name.head? = some 'n' -> lower ≠ name := by
        intro name named same
        rw [← same, head] at named
        rcases named with letter | letter
        · cases letter
          cases digit
        · cases letter
          cases digit
      refine ⟨?_, mismatch _ (.inr rfl)⟩
      rintro (same | same)
      · exact mismatch _ (.inl rfl) same
      · exact mismatch _ (.inl rfl) same

theorem parseUnsigned_whole {text : List Char} (nonempty : text ≠ []) (digits : Digits text) (negative : Bool) :
    parseUnsigned negative text = some (ofDecimal negative (Nat.ofDigitChars 10 text 0) 0) := by
  have stops : forall c tail, ([] : List Char) = c :: tail -> c.isDigit = false := by
    intro c tail impossible
    cases impossible
  have named := not_named nonempty digits []
  have taken := takeWhile_digits digits stops
  have dropped := dropWhile_digits digits stops
  simp only [List.append_nil] at named taken dropped
  simp only [parseUnsigned, if_neg named.1, if_neg named.2, taken, dropped, List.append_nil,
    Text.parseDigits_of_digits nonempty digits, parseExponent, List.length_nil]
  rfl

theorem parseUnsigned_point {text fraction : List Char} (nonempty : text ≠ []) (digits : Digits text)
    (fractional : Digits fraction) (negative : Bool) :
    parseUnsigned negative (text ++ '.' :: fraction) =
      some (ofDecimal negative (Nat.ofDigitChars 10 (text ++ fraction) 0) (-(fraction.length : Int))) := by
  have point : forall c tail, '.' :: fraction = c :: tail -> c.isDigit = false := by
    intro c tail same
    cases same
    rfl
  have stops : forall c tail, ([] : List Char) = c :: tail -> c.isDigit = false := by
    intro c tail impossible
    cases impossible
  have named := not_named nonempty digits ('.' :: fraction)
  have taken := takeWhile_digits fractional stops
  have dropped := dropWhile_digits fractional stops
  simp only [List.append_nil] at taken dropped
  have filled : text ++ fraction ≠ [] := fun empty => nonempty (List.append_eq_nil_iff.mp empty).1
  simp only [parseUnsigned, if_neg named.1, if_neg named.2, takeWhile_digits digits point,
    dropWhile_digits digits point, taken, dropped, Text.parseDigits_of_digits filled (digits.append fractional),
    parseExponent, Int.zero_sub]

/-- Plain notation denotes the decimal it was made from. -/
theorem parseUnsigned_plainDecimal (negative : Bool) (digits : Nat) (exponent : Int) :
    parseUnsigned negative (plainDecimal digits exponent) =
      some (if 0 ≤ exponent then ofDecimal negative (digits * 10 ^ exponent.toNat) 0
        else ofDecimal negative digits exponent) := by
  have nonempty : Nat.toDigits 10 digits ≠ [] := Nat.toDigits_ne_nil
  have decimal := digits_toDigits digits
  have value : Nat.ofDigitChars 10 (Nat.toDigits 10 digits) 0 = digits := Nat.ofDigitChars_ten_toDigits
  unfold plainDecimal
  generalize Nat.toDigits 10 digits = text at nonempty decimal value
  by_cases whole : 0 ≤ exponent
  · simp only [if_pos whole]
    rw [parseUnsigned_whole (fun empty => nonempty (List.append_eq_nil_iff.mp empty).1)
      (decimal.append (digits_zeros exponent.toNat)), Nat.ofDigitChars_append, value,
      Nat.ofDigitChars_replicate_zero, Nat.mul_comm]
  · simp only [if_neg whole]
    have places : -(exponent.natAbs : Int) = exponent := by omega
    by_cases inside : exponent.natAbs < text.length
    · simp only [if_pos inside]
      have before : text.take (text.length - exponent.natAbs) ≠ [] := by
        intro empty
        have length := congrArg List.length empty
        rw [List.length_take, List.length_nil] at length
        omega
      have after : (text.drop (text.length - exponent.natAbs)).length = exponent.natAbs := by
        rw [List.length_drop]
        omega
      rw [parseUnsigned_point before (fun c member => decimal c (List.mem_of_mem_take member))
        (fun c member => decimal c (List.mem_of_mem_drop member)), List.take_append_drop, value, after, places]
    · simp only [if_neg inside]
      have after : (List.replicate (exponent.natAbs - text.length) '0' ++ text).length = exponent.natAbs := by
        rw [List.length_append, List.length_replicate]
        omega
      have zero : Digits ['0'] := digits_zeros 1
      have read := parseUnsigned_point (List.cons_ne_nil '0' []) zero
        ((digits_zeros (exponent.natAbs - text.length)).append decimal) negative
      rw [after, places, Nat.ofDigitChars_append, Nat.ofDigitChars_append, Nat.ofDigitChars_replicate_zero] at read
      have nothing : Nat.ofDigitChars 10 ['0'] 0 = 0 := rfl
      rw [nothing, Nat.mul_zero, value] at read
      exact read

/-! ## Round trip -/

/-- A decimal that the search keeps reads back. -/
theorem shortestWith_reads {target units count : Nat} {decimal : Nat × Int}
    (found : shortestWith target units count = some decimal) :
    (ofDecimal false decimal.1 decimal.2).magnitude.val = target := by
  unfold shortestWith at found
  extract_lets exponent numerator denominator low readsBack upperFirst nearer farther at found
  clear_value nearer farther
  split at found
  next back =>
    rw [← Option.some.inj found]
    exact beq_iff_eq.mp back
  next =>
    split at found
    next back =>
      rw [← Option.some.inj found]
      exact beq_iff_eq.mp back
    next => cases found

/-- The decimal that is written for a finite number. -/
def written (x : Binary64) : Nat × Int :=
  ((List.range 17).findSome? (fun i => shortestWith x.magnitude.val x.scaled (i + 1))).getD
    x.exactDecimal

theorem written_reads {x : Binary64} (finite : x.isFinite = true) (nonzero : x.scaled ≠ 0) :
    (ofDecimal false x.written.1 x.written.2).magnitude.val = x.magnitude.val := by
  have kept : forall decimal,
      (List.range 17).findSome? (fun i => shortestWith x.magnitude.val x.scaled (i + 1)) = some decimal ->
        (ofDecimal false decimal.1 decimal.2).magnitude.val = x.magnitude.val := by
    intro decimal found
    rcases List.exists_of_findSome?_eq_some found with ⟨i, _, here⟩
    exact shortestWith_reads here
  unfold written
  generalize (List.range 17).findSome? (fun i => shortestWith x.magnitude.val x.scaled (i + 1)) = found at kept
  cases found with
  | none =>
      rw [Option.getD_none]
      exact exactDecimal_reads finite nonzero
  | some decimal =>
      rw [Option.getD_some]
      exact kept decimal rfl

/-- What is written of a finite number without its sign. -/
theorem parseUnsigned_written {x : Binary64} (finite : x.isFinite = true) (nonzero : x.scaled ≠ 0) (negative : Bool) :
    parseUnsigned negative (plainDecimal x.written.1 x.written.2) = some ⟨negative, x.magnitude⟩ := by
  have reads := written_reads finite nonzero
  generalize x.written = decimal at reads ⊢
  have same : (ofDecimal false decimal.1 decimal.2).magnitude = x.magnitude := Fin.ext reads
  have finiteDecimal : (ofDecimal false decimal.1 decimal.2).isFinite = true := by
    rw [isFinite, same]
    exact finite
  rw [parseUnsigned_plainDecimal]
  by_cases whole : 0 ≤ decimal.2
  · rw [if_pos whole, ofDecimal_sign, ofDecimal_shift whole finiteDecimal, same]
  · rw [if_neg whole, ofDecimal_sign, same]

theorem plainDecimal_head (digits : Nat) (exponent : Int) :
    Exists fun c => Exists fun rest => plainDecimal digits exponent = c :: rest ∧ c.isDigit = true := by
  have nonempty : Nat.toDigits 10 digits ≠ [] := Nat.toDigits_ne_nil
  have decimal := digits_toDigits digits
  unfold plainDecimal
  generalize Nat.toDigits 10 digits = text at nonempty decimal
  cases text with
  | nil => exact absurd rfl nonempty
  | cons c rest =>
      have digit := decimal c List.mem_cons_self
      simp only
      split
      · exact ⟨c, _, rfl, digit⟩
      · split
        next inside =>
          have some : exists n, (c :: rest).length - exponent.natAbs = n + 1 := ⟨_, (Nat.succ_pred_eq_of_pos (by omega)).symm⟩
          rcases some with ⟨n, count⟩
          rw [count]
          exact ⟨c, _, rfl, digit⟩
        next => exact ⟨'0', _, rfl, rfl⟩

theorem mem_plainDecimal {digits : Nat} {exponent : Int} {c : Char} (member : c ∈ plainDecimal digits exponent) :
    c = '.' ∨ c.isDigit = true := by
  have decimal := digits_toDigits digits
  unfold plainDecimal at member
  generalize Nat.toDigits 10 digits = text at decimal member
  simp only at member
  split at member
  · exact .inr (decimal.append (digits_zeros _) c member)
  · split at member
    · rcases List.mem_append.mp member with before | after
      · exact .inr (decimal c (List.mem_of_mem_take before))
      · exact (List.mem_cons.mp after).imp_right (fun inside => decimal c (List.mem_of_mem_drop inside))
    · rcases List.mem_cons.mp member with rfl | after
      · exact .inr rfl
      · exact (List.mem_cons.mp after).imp_right ((digits_zeros _).append decimal c)

/-- The text of a finite number: a sign and what reads back as the magnitude. -/
theorem display_finite {x : Binary64} (finite : x.isFinite = true) :
    Exists fun text => display x = (if x.negative then '-' :: text else text) ∧
      (Exists fun c => Exists fun rest => text = c :: rest ∧ c.isDigit = true) ∧
      (forall c, c ∈ text -> c = '.' ∨ c.isDigit = true) ∧
      forall negative, parseUnsigned negative text = some ⟨negative, x.magnitude⟩ := by
  have small : x.magnitude.val < infinity := by simpa [isFinite] using finite
  have number : x.isNan = false := decide_eq_false (Nat.not_lt_of_gt small)
  have bounded : x.isInfinite = false := beq_eq_false_iff_ne.mpr (Nat.ne_of_lt small)
  by_cases zero : x.scaled = 0
  · refine ⟨"0".toList, ?_, ⟨'0', [], rfl, rfl⟩, fun c member => .inr (digits_zeros 1 c member), ?_⟩
    · simp only [display, number, bounded, zero, Bool.false_eq_true, if_false, if_true]
    · intro negative
      have magnitude : x.magnitude = 0 := Fin.ext (scaled_eq_zero zero)
      rw [magnitude]
      rfl
  · refine ⟨plainDecimal x.written.1 x.written.2, ?_, plainDecimal_head _ _, fun c => mem_plainDecimal,
      parseUnsigned_written finite zero⟩
    simp only [display, number, bounded, zero, Bool.false_eq_true, if_false]
    rfl

/-- The text of a finite number reads back as the number. -/
theorem parse_display {x : Binary64} (finite : x.isFinite = true) : parse (display x) = some x := by
  rcases display_finite finite with ⟨text, shown, ⟨c, rest, rfl, digit⟩, _, reads⟩
  rw [shown]
  cases sign : x.negative with
  | true =>
      rw [if_pos rfl]
      refine (reads true).trans ?_
      rw [← sign]
  | false =>
      rw [if_neg Bool.false_ne_true]
      have plain : parse (c :: rest) = parseUnsigned false (c :: rest) := by
        unfold parse
        split
        next same =>
          cases same
          cases digit
        next same =>
          cases same
          cases digit
        next => rfl
      rw [plain, reads false, ← sign]

/-- White space around the text does not matter, since the text has none. -/
theorem trim_display {x : Binary64} (finite : x.isFinite = true) : Text.trim (display x) = display x := by
  rcases display_finite finite with ⟨text, shown, _, plain, _⟩
  apply Text.trim_of_not_whitespace
  intro c member
  have sign : c = '-' ∨ c ∈ text := by
    rw [shown] at member
    split at member
    · exact List.mem_cons.mp member
    · exact .inr member
  rcases sign with rfl | inside
  · decide
  · rcases plain c inside with rfl | digit
    · decide
    · exact Text.isDigit_not_whitespace digit

end Binary64
