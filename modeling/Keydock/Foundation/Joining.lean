import Keydock.Foundation.Text
import Keydock.Foundation.PercentCoding

/-!
# Joined texts

Pieces joined by a separator that none of them holds are found again by
splitting.  The component encoder escapes every separator in use, so whatever a
client encodes and joins arrives piece by piece.
-/

namespace Text

variable {separator : Char}

/-- Pieces with a separator between them. -/
def join (separator : Char) : List (List Char) -> List Char
  | [] => []
  | [piece] => piece
  | piece :: rest => piece ++ separator :: join separator rest

theorem split_of_absent {piece : List Char} (absent : separator ∉ piece) : split separator piece = [piece] := by
  induction piece with
  | nil => rfl
  | cons head tail ih =>
      have different : head ≠ separator := fun same => absent (same ▸ List.mem_cons_self)
      rw [split, if_neg different, ih (fun member => absent (List.mem_cons_of_mem head member))]

theorem split_append {piece : List Char} (absent : separator ∉ piece) (rest : List Char) :
    split separator (piece ++ separator :: rest) = piece :: split separator rest := by
  induction piece with
  | nil => rw [List.nil_append, split, if_pos rfl]
  | cons head tail ih =>
      have different : head ≠ separator := fun same => absent (same ▸ List.mem_cons_self)
      rw [List.cons_append, split, if_neg different, ih (fun member => absent (List.mem_cons_of_mem head member))]

/-- Splitting undoes joining.  Nothing joined is one empty piece. -/
theorem split_join {pieces : List (List Char)} (absent : forall piece, piece ∈ pieces -> separator ∉ piece)
    (nonempty : pieces ≠ []) : split separator (join separator pieces) = pieces := by
  induction pieces with
  | nil => exact False.elim (nonempty rfl)
  | cons piece rest ih =>
      have here := absent piece List.mem_cons_self
      cases rest with
      | nil => exact split_of_absent here
      | cons next later =>
          rw [join, split_append here, ih (fun other member => absent other (List.mem_cons_of_mem piece member))
            (List.cons_ne_nil next later)]
          intro impossible
          cases impossible

theorem split_ne_nil (text : List Char) : split separator text ≠ [] := by
  cases text with
  | nil => exact List.cons_ne_nil _ _
  | cons head tail =>
      rw [split]
      split
      next => exact List.cons_ne_nil _ _
      next =>
        cases split separator tail with
        | nil => exact List.cons_ne_nil _ _
        | cons first rest => exact List.cons_ne_nil _ _

/-- Joining undoes splitting. -/
theorem join_split (text : List Char) : join separator (split separator text) = text := by
  induction text with
  | nil => rfl
  | cons head tail ih =>
      rw [split]
      split
      next same =>
        rw [same]
        cases parts : split separator tail with
        | nil => exact absurd parts (split_ne_nil tail)
        | cons first rest =>
            rw [← ih, parts]
            rfl
      next =>
        cases parts : split separator tail with
        | nil => exact absurd parts (split_ne_nil tail)
        | cons first rest =>
            rw [parts] at ih
            rw [← ih]
            cases rest <;> rfl

/-- No piece holds the separator. -/
theorem absent_of_mem_split {text piece : List Char} (member : piece ∈ split separator text) : separator ∉ piece := by
  induction text generalizing piece with
  | nil =>
      rw [List.mem_singleton.mp member]
      exact List.not_mem_nil
  | cons head tail ih =>
      rw [split] at member
      split at member
      next =>
        rcases List.mem_cons.mp member with rfl | later
        · exact List.not_mem_nil
        · exact ih later
      next different =>
        cases parts : split separator tail with
        | nil => exact absurd parts (split_ne_nil tail)
        | cons first rest =>
            rw [parts] at member
            rcases List.mem_cons.mp member with rfl | later
            · intro inside
              rcases List.mem_cons.mp inside with same | inFirst
              · exact different same.symm
              · exact ih (parts ▸ List.mem_cons_self) inFirst
            · exact ih (parts ▸ List.mem_cons_of_mem first later)

theorem splitOnce_isSome {text : List Char} (present : separator ∈ text) : (splitOnce separator text).isSome = true := by
  induction text with
  | nil => cases present
  | cons head tail ih =>
      rw [splitOnce]
      split
      next => rfl
      next different =>
        rcases List.mem_cons.mp present with same | later
        · exact False.elim (different same.symm)
        · rw [Option.isSome_map]
          exact ih later

/-- The first piece does not hold the separator. -/
theorem absent_of_splitOnce {text head tail : List Char} (parts : splitOnce separator text = some (head, tail)) :
    separator ∉ head := by
  induction text generalizing head with
  | nil => cases parts
  | cons c rest ih =>
      rw [splitOnce] at parts
      split at parts
      next =>
        cases parts
        exact List.not_mem_nil
      next different =>
        rcases Option.map_eq_some_iff.mp parts with ⟨⟨first, second⟩, later, equal⟩
        cases equal
        intro member
        rcases List.mem_cons.mp member with same | inside
        · exact different same.symm
        · exact ih later inside

end Text

namespace PercentCoding

/-- What holds of the characters of every encoded byte holds of those of an
encoded text. -/
theorem encodeURIComponent_all {keep : Char -> Bool}
    (every : forall n, n < 256 -> (encodeByte (UInt8.ofNat n)).all keep = true) (text : String) {c : Char}
    (member : c ∈ (encodeURIComponent text).toList) : keep c = true := by
  rw [encodeURIComponent, String.toList_ofList] at member
  rcases List.mem_flatMap.mp member with ⟨byte, _, inside⟩
  have here := every byte.toNat byte.toNat_lt
  rw [UInt8.ofNat_toNat] at here
  exact List.all_eq_true.mp here c inside

/-- A separator of queries and lists. -/
def isSeparator (c : Char) : Bool := c = '&' || c = '=' || c = ',' || c = '/' || c = ':'

theorem not_separator_of_encoded {text : String} {c : Char} (member : c ∈ (encodeURIComponent text).toList) :
    isSeparator c = false := by
  have every : forall n, n < 256 -> (encodeByte (UInt8.ofNat n)).all (fun c => !isSeparator c) = true := by
    decide +kernel
  simpa using encodeURIComponent_all every text member

theorem trim_encodeURIComponent (text : String) :
    Text.trim (encodeURIComponent text).toList = (encodeURIComponent text).toList := by
  have every : forall n, n < 256 -> (encodeByte (UInt8.ofNat n)).all (fun c => !Text.isWhitespace c) = true := by
    decide +kernel
  refine Text.trim_of_not_whitespace (fun c member => ?_)
  simpa using encodeURIComponent_all every text member

theorem encodeURIComponent_injective {left right : String}
    (same : encodeURIComponent left = encodeURIComponent right) : left = right := by
  have decoded := congrArg (fun text => percentDecode (Bytes.utf8 text)) same
  simp only [percentDecode_encodeURIComponent] at decoded
  exact Bytes.utf8_injective decoded

end PercentCoding
