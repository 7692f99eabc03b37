import Keydock.Foundation.Bytes

/-!
# Text operations

The operations on text that the modelled program takes from its standard
library, over lists of Unicode scalar values: trimming, splitting, ASCII case
folding, decimal integers, and the lossy reading of bytes as UTF-8.
-/

namespace Text

/-- The Unicode `White_Space` property. -/
def isWhitespace (c : Char) : Bool :=
  (9 ≤ c.toNat && c.toNat ≤ 13) || c.toNat == 0x20 || c.toNat == 0x85 || c.toNat == 0xA0 ||
    c.toNat == 0x1680 || (0x2000 ≤ c.toNat && c.toNat ≤ 0x200A) || c.toNat == 0x2028 ||
    c.toNat == 0x2029 || c.toNat == 0x202F || c.toNat == 0x205F || c.toNat == 0x3000

/-- Remove white space at both ends. -/
def trim (text : List Char) : List Char :=
  ((text.dropWhile isWhitespace).reverse.dropWhile isWhitespace).reverse

/-- Split at the first occurrence of a separator. -/
def splitOnce (separator : Char) : List Char -> Option (List Char × List Char)
  | [] => none
  | head :: tail =>
      if head = separator then some ([], tail)
      else (splitOnce separator tail).map (fun parts => (head :: parts.1, parts.2))

/-- Split at every occurrence of a separator. -/
def split (separator : Char) : List Char -> List (List Char)
  | [] => [[]]
  | head :: tail =>
      if head = separator then [] :: split separator tail
      else
        match split separator tail with
        | [] => [[head]]
        | first :: rest => (head :: first) :: rest

/-- What follows a prefix, when the text starts with it. -/
def stripPrefix (start : String) (text : List Char) : Option (List Char) :=
  if start.toList.isPrefixOf text then some (text.drop start.toList.length) else none

def toAsciiLowercase (text : List Char) : List Char :=
  text.map (fun c => if 'A' ≤ c ∧ c ≤ 'Z' then Char.ofNat (c.toNat + 32) else c)

/-- Whether a pattern occurs in a text. -/
def contains (pattern : String) (text : List Char) : Bool :=
  text.tails.any (fun suffix => pattern.toList.isPrefixOf suffix)

/-- Replace every occurrence of one character. -/
def replaceChar (old : Char) (replacement : String) (text : List Char) : List Char :=
  text.flatMap (fun c => if c = old then replacement.toList else [c])

theorem splitOnce_append {separator : Char} {head : List Char} (absent : separator ∉ head)
    (tail : List Char) : splitOnce separator (head ++ separator :: tail) = some (head, tail) := by
  induction head with
  | nil => simp [splitOnce]
  | cons c rest ih =>
      have different : c ≠ separator := fun same => absent (same ▸ List.mem_cons_self)
      rw [List.cons_append, splitOnce, if_neg different,
        ih (fun inside => absent (List.mem_cons_of_mem c inside))]
      rfl

theorem append_of_splitOnce {separator : Char} {text head tail : List Char}
    (split : splitOnce separator text = some (head, tail)) : text = head ++ separator :: tail := by
  induction text generalizing head with
  | nil => cases split
  | cons c rest ih =>
      rw [splitOnce] at split
      by_cases same : c = separator
      · rw [if_pos same] at split
        cases split
        rw [same]
        rfl
      · rw [if_neg same] at split
        rcases Option.map_eq_some_iff.mp split with ⟨⟨first, second⟩, later, equal⟩
        cases equal
        rw [ih later]
        rfl

/-! ## Decimal integers -/

def digitValue (c : Char) : Option Nat :=
  if '0' ≤ c ∧ c ≤ '9' then some (c.toNat - 48) else none

/-- The value of a string of decimal digits read after `high`. -/
def digitsFrom : Nat -> List Char -> Option Nat
  | high, [] => some high
  | high, c :: rest =>
      match digitValue c with
      | none => none
      | some digit => digitsFrom (10 * high + digit) rest

/-- A non-empty string of decimal digits. -/
def parseDigits : List Char -> Option Nat
  | [] => none
  | text => digitsFrom 0 text

/-- An `i64` literal: an optional sign and at least one digit, in range. -/
def parseI64 (text : List Char) : Option Int64 :=
  let signed (negative : Bool) (digits : List Char) : Option Int64 :=
    match parseDigits digits with
    | none => none
    | some magnitude =>
        let value : Int := if negative then -(magnitude : Int) else magnitude
        if -2 ^ 63 ≤ value ∧ value < 2 ^ 63 then some (Int64.ofInt value) else none
  match text with
  | '-' :: digits => signed true digits
  | '+' :: digits => signed false digits
  | digits => signed false digits

/-- The canonical decimal text of an `i64`. -/
def displayI64 (value : Int64) : List Char :=
  if value.toInt < 0 then '-' :: Nat.toDigits 10 value.toInt.natAbs
  else Nat.toDigits 10 value.toInt.natAbs

/-! Reading inverts writing, and white space around the text does not matter
because decimal text has none. -/

private theorem digitsFrom_of_digits {digits : List Char} (decimal : forall c, c ∈ digits -> c.isDigit = true)
    (high : Nat) : digitsFrom high digits = some (Nat.ofDigitChars 10 digits high) := by
  induction digits generalizing high with
  | nil => rfl
  | cons c rest ih =>
      have digit : digitValue c = some (c.toNat - 48) := by
        have here := decimal c List.mem_cons_self
        simp only [Char.isDigit, Bool.and_eq_true, decide_eq_true_eq] at here
        exact if_pos here
      rw [digitsFrom, digit, Nat.ofDigitChars_cons]
      exact ih (fun later member => decimal later (List.mem_cons_of_mem c member)) _

theorem isDigit_toDigits (number : Nat) : forall c, c ∈ Nat.toDigits 10 number -> c.isDigit = true :=
  fun _ member => Nat.isDigit_of_mem_toDigits (by decide) (by decide) member

theorem parseDigits_of_digits {digits : List Char} (nonempty : digits ≠ [])
    (decimal : forall c, c ∈ digits -> c.isDigit = true) :
    parseDigits digits = some (Nat.ofDigitChars 10 digits 0) := by
  cases digits with
  | nil => exact absurd rfl nonempty
  | cons c rest => exact digitsFrom_of_digits decimal 0

theorem parseDigits_toDigits (number : Nat) : parseDigits (Nat.toDigits 10 number) = some number := by
  rw [parseDigits_of_digits Nat.toDigits_ne_nil (isDigit_toDigits number), Nat.ofDigitChars_ten_toDigits]

private theorem unsigned_of_digits {digits : List Char} (decimal : forall c, c ∈ digits -> c.isDigit = true) :
    forall rest, digits ≠ '-' :: rest ∧ digits ≠ '+' :: rest := by
  intro rest
  constructor
  · rintro rfl
    exact absurd (decimal '-' List.mem_cons_self) (by decide)
  · rintro rfl
    exact absurd (decimal '+' List.mem_cons_self) (by decide)

theorem parseI64_displayI64 (value : Int64) : parseI64 (displayI64 value) = some value := by
  have lower := value.le_toInt
  have upper := value.toInt_lt
  unfold displayI64
  by_cases negative : value.toInt < 0
  · have magnitude : -(value.toInt.natAbs : Int) = value.toInt := by omega
    simp only [if_pos negative, parseI64, parseDigits_toDigits, if_true, magnitude]
    rw [if_pos ⟨by omega, by omega⟩, Int64.ofInt_toInt]
  · have magnitude : (value.toInt.natAbs : Int) = value.toInt := by omega
    have plain := unsigned_of_digits (isDigit_toDigits value.toInt.natAbs)
    have body : parseI64 (Nat.toDigits 10 value.toInt.natAbs) = some value := by
      unfold parseI64
      split
      next rest same => exact False.elim ((plain rest).1 same)
      next rest same => exact False.elim ((plain rest).2 same)
      next =>
        simp only [parseDigits_toDigits, Bool.false_eq_true, if_false, magnitude]
        rw [if_pos ⟨by omega, by omega⟩, Int64.ofInt_toInt]
    rw [if_neg negative, body]

theorem mem_displayI64 {value : Int64} {c : Char} (member : c ∈ displayI64 value) :
    c = '-' ∨ c.isDigit = true := by
  unfold displayI64 at member
  split at member
  · exact (List.mem_cons.mp member).imp id (isDigit_toDigits _ c)
  · exact Or.inr (isDigit_toDigits _ c member)

theorem isDigit_not_whitespace {c : Char} (digit : c.isDigit = true) : isWhitespace c = false := by
  simp only [Char.isDigit, Bool.and_eq_true, decide_eq_true_eq, ge_iff_le, UInt32.le_iff_toNat_le] at digit
  have low : 48 ≤ c.toNat := digit.1
  have high : c.toNat ≤ 57 := digit.2
  simp only [isWhitespace, Bool.or_eq_false_iff, Bool.and_eq_false_imp, decide_eq_true_eq,
    decide_eq_false_iff_not, beq_eq_false_iff_ne]
  omega

theorem displayI64_not_whitespace (value : Int64) :
    forall c, c ∈ displayI64 value -> isWhitespace c = false := by
  intro c member
  rcases mem_displayI64 member with rfl | decimal
  · decide
  · exact isDigit_not_whitespace decimal

theorem trim_of_not_whitespace {text : List Char} (plain : forall c, c ∈ text -> isWhitespace c = false) :
    trim text = text := by
  have keep : forall chars : List Char, (forall c, c ∈ chars -> isWhitespace c = false) ->
      chars.dropWhile isWhitespace = chars := by
    intro chars none
    cases chars with
    | nil => rfl
    | cons c rest => rw [List.dropWhile_cons, none c List.mem_cons_self]; rfl
  rw [trim, keep text plain, keep text.reverse (fun c member => plain c (List.mem_reverse.mp member)),
    List.reverse_reverse]

theorem length_displayI64 (value : Int64) : (displayI64 value).length ≤ 20 := by
  have lower := value.le_toInt
  have upper := value.toInt_lt
  have digits : (Nat.toDigits 10 value.toInt.natAbs).length ≤ 19 :=
    (Nat.length_toDigits_le_iff (by decide) (by decide)).mpr (by omega)
  unfold displayI64
  split
  · rw [List.length_cons]
    omega
  · omega

/-- Decimal text is ASCII. -/
theorem utf8_displayI64_length (value : Int64) :
    (Bytes.utf8 (String.ofList (displayI64 value))).length ≤ 20 := by
  have ascii : forall c, c ∈ displayI64 value -> (String.utf8EncodeChar c).length = 1 := by
    have digit : forall c : Char, c.isDigit = true -> (String.utf8EncodeChar c).length = 1 := by
      intro c decimal
      simp only [Char.isDigit, Bool.and_eq_true, decide_eq_true_eq, ge_iff_le, UInt32.le_iff_toNat_le] at decimal
      have high : c.val.toNat ≤ 57 := decimal.2
      rw [String.length_utf8EncodeChar, Char.utf8Size_eq_one_iff, UInt32.le_iff_toNat_le]
      exact Nat.le_trans high (by decide)
    intro c member
    rcases mem_displayI64 member with rfl | decimal
    · decide
    · exact digit c decimal
  rw [Bytes.utf8_ofList, List.length_flatMap, List.map_congr_left ascii, List.map_const', List.sum_replicate_nat,
    Nat.mul_one]
  exact length_displayI64 value

/-! ## Lossy UTF-8 -/

def replacement : Char := Char.ofNat 0xFFFD

def isContinuation (byte : UInt8) : Bool :=
  0x80 ≤ byte.toNat && byte.toNat ≤ 0xBF

/-- Whether a second byte may follow the first byte of a longer sequence. -/
def secondAllowed (first second : UInt8) : Bool :=
  if first.toNat = 0xE0 then 0xA0 ≤ second.toNat && second.toNat ≤ 0xBF
  else if first.toNat = 0xED then 0x80 ≤ second.toNat && second.toNat ≤ 0x9F
  else if first.toNat = 0xF0 then 0x90 ≤ second.toNat && second.toNat ≤ 0xBF
  else if first.toNat = 0xF4 then 0x80 ≤ second.toNat && second.toNat ≤ 0x8F
  else isContinuation second

/-- One scalar value and what follows it.  A maximal invalid sequence is read
as a single replacement character. -/
def lossyHead (first : UInt8) (rest : Bytes) : Char × Bytes :=
  if first.toNat < 0x80 then (Char.ofNat first.toNat, rest)
  else if 0xC2 ≤ first.toNat ∧ first.toNat ≤ 0xDF then
    match rest with
    | second :: after =>
        if isContinuation second then
          (Char.ofNat ((first.toNat - 0xC0) * 64 + (second.toNat - 0x80)), after)
        else (replacement, rest)
    | [] => (replacement, rest)
  else if 0xE0 ≤ first.toNat ∧ first.toNat ≤ 0xEF then
    match rest with
    | second :: after =>
        if secondAllowed first second then
          match after with
          | third :: tail =>
              if isContinuation third then
                (Char.ofNat ((first.toNat - 0xE0) * 4096 + (second.toNat - 0x80) * 64 +
                  (third.toNat - 0x80)), tail)
              else (replacement, after)
          | [] => (replacement, after)
        else (replacement, rest)
    | [] => (replacement, rest)
  else if 0xF0 ≤ first.toNat ∧ first.toNat ≤ 0xF4 then
    match rest with
    | second :: after =>
        if secondAllowed first second then
          match after with
          | third :: tail =>
              if isContinuation third then
                match tail with
                | fourth :: remaining =>
                    if isContinuation fourth then
                      (Char.ofNat ((first.toNat - 0xF0) * 262144 + (second.toNat - 0x80) * 4096 +
                        (third.toNat - 0x80) * 64 + (fourth.toNat - 0x80)), remaining)
                    else (replacement, tail)
                | [] => (replacement, tail)
              else (replacement, after)
          | [] => (replacement, after)
        else (replacement, rest)
    | [] => (replacement, rest)
  else (replacement, rest)

/-- Read at most `fuel` scalar values. -/
def lossyFrom : Nat -> Bytes -> List Char
  | 0, _ => []
  | _ + 1, [] => []
  | fuel + 1, first :: rest =>
      (lossyHead first rest).1 :: lossyFrom fuel (lossyHead first rest).2

/-- Read bytes as UTF-8, replacing what is invalid. -/
def fromUtf8Lossy (bytes : Bytes) : List Char :=
  lossyFrom bytes.length bytes

example : fromUtf8Lossy [0x61, 0xC3, 0xA9, 0xE2, 0x82, 0x62, 0xFF] =
    ['a', 'é', replacement, 'b', replacement] := by decide

end Text
