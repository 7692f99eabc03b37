import Keydock.Foundation.Bytes
import Std.Data.ExtTreeMap
import Mathlib.Order.Basic

/-!
# Ordered keyspaces

A keyspace is an ordered map from byte strings to byte strings.  Iteration
visits the keys in ascending order, and a prefix scan visits exactly the keys
that start with the prefix.  Equality is extensional: two keyspaces with the
same contents are equal.
-/

abbrev Keyspace := Std.ExtTreeMap Bytes Bytes

namespace Keyspace

variable (keyspace : Keyspace) {key other : Bytes} {value : Bytes}

theorem get_insert (key value other : Bytes) :
    (keyspace.insert key value)[other]? = if key = other then some value else keyspace[other]? := by
  rw [Std.ExtTreeMap.getElem?_insert]
  simp only [Std.compare_eq_iff_eq]

theorem get_remove (key other : Bytes) :
    (keyspace.erase key)[other]? = if key = other then none else keyspace[other]? := by
  rw [Std.ExtTreeMap.getElem?_erase]
  simp only [Std.compare_eq_iff_eq]

@[simp] theorem get_empty (key : Bytes) : (∅ : Keyspace)[key]? = none :=
  Std.ExtTreeMap.getElem?_empty

theorem contains_eq_isSome (key : Bytes) : keyspace.contains key = (keyspace[key]?).isSome := by
  rw [Std.ExtTreeMap.contains_eq_isSome_getElem?]

/-- The entries in ascending key order. -/
def iter : List (Bytes × Bytes) :=
  keyspace.toList

/-- The entries whose key starts with a prefix, in ascending key order. -/
def scan (start : Bytes) : List (Bytes × Bytes) :=
  keyspace.iter.filter (fun entry => start.isPrefixOf entry.1)

theorem mem_iter {entry : Bytes × Bytes} : entry ∈ keyspace.iter ↔ keyspace[entry.1]? = some entry.2 :=
  Std.ExtTreeMap.mem_toList_iff_getElem?_eq_some

theorem mem_scan {start : Bytes} {entry : Bytes × Bytes} :
    entry ∈ keyspace.scan start ↔ keyspace[entry.1]? = some entry.2 ∧ start <+: entry.1 := by
  rw [scan, List.mem_filter, mem_iter, List.isPrefixOf_iff_prefix]

theorem iter_ascending : keyspace.iter.Pairwise (fun left right => compare left.1 right.1 = .lt) :=
  Std.ExtTreeMap.ordered_keys_toList

theorem scan_ascending (start : Bytes) :
    (keyspace.scan start).Pairwise (fun left right => compare left.1 right.1 = .lt) :=
  keyspace.iter_ascending.filter _

theorem scan_filter (keep : Bytes -> Bytes -> Bool) (start : Bytes) :
    scan (keyspace.filter keep) start = (keyspace.scan start).filter (fun entry => keep entry.1 entry.2) := by
  rw [scan, scan, iter, Std.ExtTreeMap.toList_filter]
  exact List.filter_comm _ _ _

/-- Two ascending lists with the same rows are equal. -/
theorem ascending_unique {α : Type} {left right : List (Bytes × α)}
    (leftSorted : left.Pairwise (fun first second => compare first.1 second.1 = .lt))
    (rightSorted : right.Pairwise (fun first second => compare first.1 second.1 = .lt))
    (same : forall row, row ∈ left ↔ row ∈ right) : left = right := by
  have nodup : forall {rows : List (Bytes × α)},
      rows.Pairwise (fun first second => compare first.1 second.1 = .lt) -> rows.Nodup :=
    fun sorted => sorted.imp (fun {first second} less equal => by
      rw [equal, Std.compare_self] at less
      cases less)
  refine ((List.perm_ext_iff_of_nodup (nodup leftSorted) (nodup rightSorted)).mpr same).eq_of_pairwise
    ?_ leftSorted rightSorted
  intro first second _ _ less more
  have swapped : compare first.1 second.1 = (compare second.1 first.1).swap := Std.OrientedCmp.eq_swap
  rw [swapped, more] at less
  cases less

/-- What a scan shows of the rows depends only on what is shown of each key. -/
theorem scan_filterMap_congr {α : Type} {left right : Keyspace} (shown : Bytes -> Bytes -> Option α)
    (start : Bytes)
    (same : forall key : Bytes, start <+: key ->
      (left[key]?).bind (shown key) = (right[key]?).bind (shown key)) :
    (left.scan start).filterMap (fun entry => shown entry.1 entry.2) =
      (right.scan start).filterMap (fun entry => shown entry.1 entry.2) := by
  -- Keep the key beside what is shown; the paired lists are ascending.
  let paired (entry : Bytes × Bytes) : Option (Bytes × α) := (shown entry.1 entry.2).map (fun x => (entry.1, x))
  have member : forall (keyspace : Keyspace) (row : Bytes × α),
      row ∈ (keyspace.scan start).filterMap paired ↔
        start <+: row.1 ∧ (keyspace[row.1]?).bind (shown row.1) = some row.2 := by
    intro keyspace row
    rw [List.mem_filterMap]
    constructor
    · rintro ⟨entry, listed, pair⟩
      rcases Option.map_eq_some_iff.mp pair with ⟨x, visible, rfl⟩
      have found := keyspace.mem_scan.mp listed
      exact ⟨found.2, by rw [found.1]; exact visible⟩
    · rintro ⟨starts, visible⟩
      rcases Option.bind_eq_some_iff.mp visible with ⟨value, found, shownHere⟩
      refine ⟨(row.1, value), keyspace.mem_scan.mpr ⟨found, starts⟩, ?_⟩
      simp only [paired, shownHere, Option.map_some]
  have sorted : forall keyspace : Keyspace, ((keyspace.scan start).filterMap paired).Pairwise
      (fun first second => compare first.1 second.1 = .lt) := by
    intro keyspace
    refine List.Pairwise.filterMap paired ?_ (keyspace.scan_ascending start)
    intro first second less row rowShown other otherShown
    rcases Option.map_eq_some_iff.mp rowShown with ⟨_, _, rfl⟩
    rcases Option.map_eq_some_iff.mp otherShown with ⟨_, _, rfl⟩
    exact less
  have equal : (left.scan start).filterMap paired = (right.scan start).filterMap paired := by
    apply ascending_unique (sorted left) (sorted right)
    intro row
    rw [member, member]
    constructor
    · rintro ⟨starts, visible⟩
      exact ⟨starts, by rw [← same row.1 starts]; exact visible⟩
    · rintro ⟨starts, visible⟩
      exact ⟨starts, by rw [same row.1 starts]; exact visible⟩
  have projected : forall keyspace : Keyspace,
      (keyspace.scan start).filterMap (fun entry => shown entry.1 entry.2) =
        ((keyspace.scan start).filterMap paired).map Prod.snd := by
    intro keyspace
    rw [List.map_filterMap]
    congr 1
    funext entry
    simp only [paired, Option.map_map]
    cases shown entry.1 entry.2 <;> rfl
  rw [projected left, projected right, equal]

/-- A scan depends only on the entries under its prefix. -/
theorem scan_congr {left right : Keyspace} (start : Bytes)
    (same : forall key : Bytes, start <+: key -> left[key]? = right[key]?) :
    left.scan start = right.scan start := by
  have shown : (left.scan start).filterMap (fun entry => some (entry.1, entry.2)) =
      (right.scan start).filterMap (fun entry => some (entry.1, entry.2)) :=
    scan_filterMap_congr (fun key value => some (key, value)) start (fun key starts => by rw [same key starts])
  simpa using shown

theorem scan_singleton (start key value : Bytes) :
    scan ((∅ : Keyspace).insert key value) start = if start <+: key then [(key, value)] else [] := by
  apply ascending_unique (scan_ascending _ start)
  · split
    · exact List.pairwise_singleton _ _
    · exact List.Pairwise.nil
  · intro row
    rw [mem_scan, get_insert]
    by_cases same : key = row.1
    · rw [if_pos same]
      by_cases inside : start <+: key
      · rw [if_pos inside, List.mem_singleton, Prod.ext_iff]
        simp only [← same, inside, Option.some.injEq, and_true, true_and]
        exact eq_comm
      · rw [if_neg inside, ← same]
        simp [inside]
    · rw [if_neg same]
      have absent : row ≠ (key, value) := fun equal => same (congrArg Prod.fst equal).symm
      split <;> simp [absent]

end Keyspace
