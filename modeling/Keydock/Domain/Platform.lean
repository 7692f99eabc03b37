import Keydock.Foundation.Json
import Keydock.Domain.Time

/-!
# The platform

What the service takes from code outside the repository, as far as a result
depends on it: the JSON text form, the keyed hash, the RFC 3339 form of an
instant, the size of a listing row in memory, and which sizes in bytes the
allocator grants.  Each comes with the law the service relies on; nothing else
about them is assumed.
-/

namespace Keydock

structure Platform where
  json : SerdeJson
  hmacSha256 : Bytes -> Bytes -> Option Bytes
  formatRfc3339 : OffsetDateTime -> Option String
  parseRfc3339 : String -> Option OffsetDateTime
  parse_format : forall {instant text}, formatRfc3339 instant = some text ->
    parseRfc3339 text = some instant
  listEntrySize : Nat
  listEntrySize_pos : 0 < listEntrySize
  allocates : Nat -> Bool

namespace Platform

/-- A platform known on finitely many inputs, given as tables. -/
def ofTables (trees : List (Json × Bytes))
    (treesInjective : forall left, left ∈ trees -> forall right, right ∈ trees -> left.2 = right.2 ->
      left.1 = right.1)
    (hashes : List ((Bytes × Bytes) × Bytes)) (instants : List (OffsetDateTime × String))
    (instantsInjective : forall left, left ∈ instants -> forall right, right ∈ instants -> left.2 = right.2 ->
      left.1 = right.1) : Platform where
  json := SerdeJson.ofTable trees treesInjective
  hmacSha256 key message := hashes.lookup (key, message)
  formatRfc3339 instant := (instants.find? (fun row => decide (row.1 = instant))).map Prod.snd
  parseRfc3339 text := (instants.find? (fun row => row.2 == text)).map Prod.fst
  parse_format := by
    intro instant text written
    rcases Option.map_eq_some_iff.mp written with ⟨row, found, rfl⟩
    have listed := List.mem_of_find?_eq_some found
    have same : row.1 = instant := by simpa using List.find?_some found
    cases again : instants.find? (fun other => other.2 == row.2) with
    | none =>
        have absent := List.find?_eq_none.mp again row listed
        simp at absent
    | some other =>
        have sameText : other.2 = row.2 := by simpa using List.find?_some again
        rw [Option.map_some, instantsInjective other (List.mem_of_find?_eq_some again) row listed sameText, same]
  listEntrySize := 64
  listEntrySize_pos := by decide
  allocates bytes := decide (bytes ≤ 2 ^ 32)

/-- A platform on which no instant is written. -/
def ofJson (trees : List (Json × Bytes))
    (treesInjective : forall left, left ∈ trees -> forall right, right ∈ trees -> left.2 = right.2 ->
      left.1 = right.1)
    (hashes : List ((Bytes × Bytes) × Bytes)) : Platform :=
  ofTables trees treesInjective hashes [] (by simp)

end Platform

end Keydock
