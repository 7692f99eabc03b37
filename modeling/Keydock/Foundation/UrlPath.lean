import Keydock.Foundation.Joining

/-!
# Paths of web addresses

A client that resolves an address takes dot segments out of its path: a single
dot names the segment before it and a double dot the one before that.  Their
dots may be escaped.  A path without dot segments is left as it is.
-/

namespace Url

def isSingleDot (segment : List Char) : Bool :=
  Text.toAsciiLowercase segment ∈ [".".toList, "%2e".toList]

def isDoubleDot (segment : List Char) : Bool :=
  Text.toAsciiLowercase segment ∈ ["..".toList, ".%2e".toList, "%2e.".toList, "%2e%2e".toList]

/-- The segments of a path, one after another.  The segments kept so far are in
reverse; a dot segment at the end leaves an empty one. -/
def resolveFrom (kept : List (List Char)) : List (List Char) -> List (List Char)
  | [] => kept.reverse
  | segment :: rest =>
      if isDoubleDot segment then
        if rest = [] then (kept.tail.reverse ++ [[]]) else resolveFrom kept.tail rest
      else if isSingleDot segment then
        if rest = [] then (kept.reverse ++ [[]]) else resolveFrom kept rest
      else resolveFrom (segment :: kept) rest

/-- The path of an address as it is sent: what follows the first slash, segment
by segment. -/
def resolve (path : List Char) : List Char :=
  match Text.split '/' path with
  | [] => []
  | root :: segments => Text.join '/' (root :: resolveFrom [] segments)

/-- A segment that stays in the path. -/
def isPlain (segment : List Char) : Bool := !isSingleDot segment && !isDoubleDot segment

theorem resolveFrom_of_plain {segment : List Char} (plain : isPlain segment = true) (kept rest : List (List Char)) :
    resolveFrom kept (segment :: rest) = resolveFrom (segment :: kept) rest := by
  rw [isPlain, Bool.and_eq_true, Bool.not_eq_true', Bool.not_eq_true'] at plain
  rw [resolveFrom, if_neg (by rw [plain.2]; decide), if_neg (by rw [plain.1]; decide)]

theorem resolveFrom_of_all_plain {kept segments : List (List Char)}
    (plain : forall segment, segment ∈ segments -> isPlain segment = true) :
    resolveFrom kept segments = kept.reverse ++ segments := by
  induction segments generalizing kept with
  | nil => rw [resolveFrom, List.append_nil]
  | cons segment rest ih =>
      rw [resolveFrom_of_plain (plain segment List.mem_cons_self), ih (fun other later =>
        plain other (List.mem_cons_of_mem segment later)), List.reverse_cons, List.append_assoc, List.singleton_append]

section Resolved

variable {keep : List Char -> Prop} {kept segments : List (List Char)} {segment : List Char}

theorem keep_of_mem_ended (empty : keep []) (earlier : forall other, other ∈ kept -> keep other)
    (member : segment ∈ kept.reverse ++ [[]]) : keep segment := by
  rcases List.mem_append.mp member with inside | last
  · exact earlier segment (List.mem_reverse.mp inside)
  · rw [List.mem_singleton.mp last]
    exact empty

/-- Resolving adds nothing but an empty segment, and leaves no dot segment. -/
theorem keep_of_mem_resolveFrom (empty : keep []) (earlier : forall other, other ∈ kept -> keep other)
    (later : forall other, other ∈ segments -> isPlain other = true -> keep other)
    (member : segment ∈ resolveFrom kept segments) : keep segment := by
  induction segments generalizing kept with
  | nil => exact earlier segment (List.mem_reverse.mp member)
  | cons head rest ih =>
      have shorter : forall other, other ∈ kept.tail -> keep other :=
        fun other inside => earlier other (List.mem_of_mem_tail inside)
      have after : forall other, other ∈ rest -> isPlain other = true -> keep other :=
        fun other inside => later other (List.mem_cons_of_mem head inside)
      rw [resolveFrom] at member
      split at member
      next =>
        split at member
        next => exact keep_of_mem_ended empty shorter member
        next => exact ih shorter after member
      next notDouble =>
        split at member
        next =>
          split at member
          next => exact keep_of_mem_ended empty earlier member
          next => exact ih earlier after member
        next notSingle =>
          refine ih (fun other inside => ?_) after member
          rcases List.mem_cons.mp inside with rfl | before
          · exact later other List.mem_cons_self (by simp [isPlain, notDouble, notSingle])
          · exact earlier other before

end Resolved

theorem split_resolve {path root : List Char} {segments : List (List Char)}
    (parts : Text.split '/' path = root :: segments) : Text.split '/' (resolve path) = root :: resolveFrom [] segments := by
  unfold resolve
  rw [parts]
  refine Text.split_join (fun piece member => ?_) (List.cons_ne_nil _ _)
  have whole : forall piece, piece ∈ root :: segments -> '/' ∉ piece := by
    rw [← parts]
    exact fun piece member => Text.absent_of_mem_split member
  rcases List.mem_cons.mp member with rfl | later
  · exact whole piece List.mem_cons_self
  · exact keep_of_mem_resolveFrom List.not_mem_nil (fun _ impossible => by cases impossible)
      (fun other listed _ => whole other (List.mem_cons_of_mem root listed)) later

end Url

namespace PercentCoding

/-- The text starts with a dot, escaped or not. -/
def startsDot (text : List Char) : Bool :=
  ".".toList.isPrefixOf (Text.toAsciiLowercase text) || "%2e".toList.isPrefixOf (Text.toAsciiLowercase text)

/-- What the first character or the first three say about it. -/
def refutesDot : List Char -> Bool
  | [c] => Text.toAsciiLowercase [c] ∉ [".".toList, "%".toList]
  | [c, d, e] => !startsDot [c, d, e]
  | _ => false

theorem startsDot_append_of_refutes {first : List Char} (refutes : refutesDot first = true) (rest : List Char) :
    startsDot (first ++ rest) = false := by
  unfold refutesDot at refutes
  split at refutes
  next c =>
    simp only [Text.toAsciiLowercase, List.map_cons, List.map_nil] at refutes
    simp only [startsDot, Text.toAsciiLowercase, List.singleton_append, List.map_cons]
    generalize (if 'A' ≤ c ∧ c ≤ 'Z' then Char.ofNat (c.toNat + 32) else c) = lower at refutes ⊢
    have parts : ¬ lower = '.' ∧ ¬ lower = '%' := by simpa using refutes
    simp [List.isPrefixOf, Ne.symm parts.1, Ne.symm parts.2]
  next c d e =>
    rw [Bool.not_eq_true'] at refutes
    simp only [startsDot, Text.toAsciiLowercase, List.map_cons, List.map_nil, List.cons_append, List.nil_append] at refutes ⊢
    simpa [List.isPrefixOf] using refutes
  next => cases refutes

/-- The encoder escapes no dot, so an encoded text starts with a dot only when
the text does. -/
theorem dot_of_startsDot {bytes : Bytes} (starts : startsDot (bytes.flatMap encodeByte) = true) :
    Exists fun rest => bytes = 0x2e :: rest := by
  have every : forall n, n < 256 -> n ≠ 0x2e -> refutesDot (encodeByte (UInt8.ofNat n)) = true := by decide +kernel
  cases bytes with
  | nil => cases starts
  | cons byte rest =>
      by_cases dot : byte = 0x2e
      · exact ⟨rest, by rw [dot]⟩
      · have other : byte.toNat ≠ 0x2e := fun same => dot (UInt8.toNat_inj.mp same)
        have refutes := every byte.toNat byte.toNat_lt other
        rw [UInt8.ofNat_toNat] at refutes
        rw [List.flatMap_cons, startsDot_append_of_refutes refutes] at starts
        cases starts

theorem lowercase_dot (rest : Bytes) :
    Text.toAsciiLowercase ((0x2e :: rest).flatMap encodeByte) = '.' :: Text.toAsciiLowercase (rest.flatMap encodeByte) := by
  have dot : encodeByte 0x2e = ['.'] := by decide
  rw [List.flatMap_cons, dot]
  rfl

theorem lowercase_eq_nil {bytes : Bytes} (empty : Text.toAsciiLowercase (bytes.flatMap encodeByte) = []) :
    bytes = [] := by
  cases bytes with
  | nil => rfl
  | cons byte rest =>
      rw [Text.toAsciiLowercase, List.map_eq_nil_iff, List.flatMap_cons, List.append_eq_nil_iff] at empty
      unfold encodeByte at empty
      split at empty <;> cases empty.1

/-- An encoded text is a dot segment only when the text is one itself. -/
theorem isSingleDot_encodeURIComponent (text : String) :
    Url.isSingleDot (encodeURIComponent text).toList = true ↔ text = "." := by
  constructor
  · intro single
    rw [encodeURIComponent, String.toList_ofList] at single
    generalize coded : Bytes.utf8 text = bytes at single
    have lower : Text.toAsciiLowercase (bytes.flatMap encodeByte) = ".".toList ∨
        Text.toAsciiLowercase (bytes.flatMap encodeByte) = "%2e".toList := by simpa [Url.isSingleDot] using single
    have starts : startsDot (bytes.flatMap encodeByte) = true := by
      rcases lower with same | same <;> simp [startsDot, same, List.isPrefixOf]
    rcases dot_of_startsDot starts with ⟨rest, rfl⟩
    rw [lowercase_dot] at lower
    have ends : Text.toAsciiLowercase (rest.flatMap encodeByte) = [] := by simpa using lower
    rw [lowercase_eq_nil ends] at coded
    exact Bytes.utf8_injective (coded.trans (by decide))
  · rintro rfl
    decide

theorem isDoubleDot_encodeURIComponent (text : String) :
    Url.isDoubleDot (encodeURIComponent text).toList = true ↔ text = ".." := by
  constructor
  · intro double
    rw [encodeURIComponent, String.toList_ofList] at double
    generalize coded : Bytes.utf8 text = bytes at double
    have lower : Text.toAsciiLowercase (bytes.flatMap encodeByte) = "..".toList ∨
        Text.toAsciiLowercase (bytes.flatMap encodeByte) = ".%2e".toList ∨
        Text.toAsciiLowercase (bytes.flatMap encodeByte) = "%2e.".toList ∨
        Text.toAsciiLowercase (bytes.flatMap encodeByte) = "%2e%2e".toList := by simpa [Url.isDoubleDot] using double
    have starts : startsDot (bytes.flatMap encodeByte) = true := by
      rcases lower with same | same | same | same <;> simp [startsDot, same, List.isPrefixOf]
    rcases dot_of_startsDot starts with ⟨later, rfl⟩
    rw [lowercase_dot] at lower
    have second : Text.toAsciiLowercase (later.flatMap encodeByte) = ".".toList ∨
        Text.toAsciiLowercase (later.flatMap encodeByte) = "%2e".toList := by simpa using lower
    have startsAgain : startsDot (later.flatMap encodeByte) = true := by
      rcases second with same | same <;> simp [startsDot, same, List.isPrefixOf]
    rcases dot_of_startsDot startsAgain with ⟨rest, rfl⟩
    rw [lowercase_dot] at second
    have ends : Text.toAsciiLowercase (rest.flatMap encodeByte) = [] := by simpa using second
    rw [lowercase_eq_nil ends] at coded
    exact Bytes.utf8_injective (coded.trans (by decide))
  · rintro rfl
    decide

end PercentCoding
