import Keydock.Foundation.Json

/-!
# Parts of trees

Where a tree is readable and how deep it nests, so are its parts, and so is the
generic value it is read as.  With the recursion limit of the reader this makes
what was read and written again readable.
-/

namespace Json

/-! ## Members and items -/

theorem depth_le_of_mem {items : List Json} {item : Json} (member : item ∈ items) : item.depth ≤ depthItems items := by
  induction items with
  | nil => cases member
  | cons head rest ih =>
      rw [depthItems]
      rcases List.mem_cons.mp member with rfl | inside
      · exact Nat.le_max_left _ _
      · exact Nat.le_trans (ih inside) (Nat.le_max_right _ _)

theorem depth_le_of_lookup {members : List (String × Json)} {name : String} {value : Json}
    (found : members.lookup name = some value) : value.depth ≤ depthMembers members := by
  induction members with
  | nil => cases found
  | cons head rest ih =>
      rcases head with ⟨other, first⟩
      rw [depthMembers]
      rw [List.lookup_cons] at found
      split at found
      · cases found
        exact Nat.le_max_left _ _
      · exact Nat.le_trans (ih found) (Nat.le_max_right _ _)

theorem all_of_mem {test : Json -> Bool} {items : List Json} (each : allItems test items = true) {item : Json}
    (member : item ∈ items) : item.all test = true := by
  induction items with
  | nil => cases member
  | cons head rest ih =>
      rw [allItems, Bool.and_eq_true] at each
      rcases List.mem_cons.mp member with rfl | inside
      · exact each.1
      · exact ih each.2 inside

theorem all_of_lookup {test : Json -> Bool} {members : List (String × Json)} (each : allMembers test members = true)
    {name : String} {value : Json} (found : members.lookup name = some value) : value.all test = true := by
  induction members with
  | nil => cases found
  | cons head rest ih =>
      rcases head with ⟨other, first⟩
      rw [allMembers, Bool.and_eq_true] at each
      rw [List.lookup_cons] at found
      split at found
      · cases found
        exact each.1
      · exact ih each.2 found

/-- A field of a record nests less deep than the record and is readable with
it. -/
theorem part_of_fields {denyUnknown : Bool} {positional : Nat} {names : List String} {tree part : Json}
    {found : List (Option Json)} (read : fields denyUnknown positional names tree = some found)
    (supplied : some part ∈ found) :
    part.depth < tree.depth ∧ (tree.readable = true -> part.readable = true) := by
  cases tree with
  | obj members =>
      simp only [fields] at read
      split at read
      next => cases read
      next =>
        split at read
        next => cases read
        next =>
          cases read
          rcases List.mem_map.mp supplied with ⟨name, _, found⟩
          constructor
          · rw [depth]
            have inner := depth_le_of_lookup found
            omega
          · intro whole
            rw [readable, all, Bool.and_eq_true] at whole
            exact all_of_lookup whole.2 found
  | arr items =>
      simp only [fields] at read
      split at read
      next =>
        cases read
        rcases List.mem_map.mp supplied with ⟨i, _, found⟩
        have member := List.mem_of_getElem? found
        constructor
        · rw [depth]
          have inner := depth_le_of_mem member
          omega
        · intro whole
          rw [readable, all, Bool.and_eq_true] at whole
          exact all_of_mem whole.2 member
      next => cases read
  | _ => cases read

/-! ## Generic values -/

theorem allMembers_insertMember {test : Json -> Bool} {name : String} {value : Json} (good : value.all test = true)
    {kept : List (String × Json)} (each : allMembers test kept = true) :
    allMembers test (insertMember name value kept) = true := by
  induction kept with
  | nil => simp only [insertMember, allMembers, good, Bool.and_self]
  | cons head rest ih =>
      rcases head with ⟨other, old⟩
      rw [allMembers, Bool.and_eq_true] at each
      rw [insertMember]
      split
      · rw [allMembers, good, each.2]
        rfl
      · split
        · rw [allMembers, allMembers, good, each.1, each.2]
          rfl
        · rw [allMembers, each.1, ih each.2]
          rfl

theorem depthMembers_insertMember (name : String) (value : Json) (kept : List (String × Json)) :
    depthMembers (insertMember name value kept) ≤ max value.depth (depthMembers kept) := by
  induction kept with
  | nil => simp only [insertMember, depthMembers, Nat.le_refl]
  | cons head rest ih =>
      rcases head with ⟨other, old⟩
      rw [insertMember]
      split
      · simp only [depthMembers]
        omega
      · split
        · simp only [depthMembers]
          omega
        · simp only [depthMembers]
          omega

mutual

/-- The generic value of a readable tree is readable. -/
theorem readable_toValue (tree : Json) (readable : tree.all isReadable = true) :
    tree.toValue.all isReadable = true := by
  cases tree with
  | arr items =>
      rw [all, Bool.and_eq_true] at readable
      rw [toValue, all, readable_toValueItems items readable.2]
      rfl
  | obj members =>
      rw [all, Bool.and_eq_true] at readable
      rw [toValue, all, readable_toValueMembers [] members rfl readable.2]
      rfl
  | _ => exact readable

theorem readable_toValueItems (items : List Json) (readable : allItems isReadable items = true) :
    allItems isReadable (toValueItems items) = true := by
  cases items with
  | nil => rfl
  | cons item rest =>
      rw [allItems, Bool.and_eq_true] at readable
      rw [toValueItems, allItems, readable_toValue item readable.1, readable_toValueItems rest readable.2]
      rfl

theorem readable_toValueMembers (kept members : List (String × Json)) (before : allMembers isReadable kept = true)
    (readable : allMembers isReadable members = true) :
    allMembers isReadable (toValueMembers kept members) = true := by
  cases members with
  | nil => exact before
  | cons head rest =>
      rcases head with ⟨name, value⟩
      rw [allMembers, Bool.and_eq_true] at readable
      rw [toValueMembers]
      exact readable_toValueMembers _ rest (allMembers_insertMember (readable_toValue value readable.1) before)
        readable.2

end

mutual

/-- Reading a tree as a generic value makes it no deeper. -/
theorem depth_toValue_le (tree : Json) : tree.toValue.depth ≤ tree.depth := by
  cases tree with
  | arr items =>
      rw [toValue, depth, depth]
      have inner := depthItems_toValueItems_le items
      omega
  | obj members =>
      rw [toValue, depth, depth]
      have inner := depthMembers_toValueMembers_le [] members
      simp only [depthMembers] at inner
      omega
  | _ => exact Nat.le_refl _

theorem depthItems_toValueItems_le (items : List Json) : depthItems (toValueItems items) ≤ depthItems items := by
  cases items with
  | nil => exact Nat.le_refl _
  | cons item rest =>
      rw [toValueItems, depthItems, depthItems]
      have first := depth_toValue_le item
      have others := depthItems_toValueItems_le rest
      omega

theorem depthMembers_toValueMembers_le (kept members : List (String × Json)) :
    depthMembers (toValueMembers kept members) ≤ max (depthMembers kept) (depthMembers members) := by
  cases members with
  | nil => exact Nat.le_max_left _ _
  | cons head rest =>
      rcases head with ⟨name, value⟩
      rw [toValueMembers, depthMembers]
      have first := depth_toValue_le value
      have inserted := depthMembers_insertMember name value.toValue kept
      have others := depthMembers_toValueMembers_le (insertMember name value.toValue kept) rest
      omega

end

/-! ## Values -/

def isProper : Json -> Bool
  | .unreadable => false
  | .float number => number.isFinite
  | _ => true

/-- The tree is a value that a text can denote: its numbers are finite. -/
def proper (tree : Json) : Bool := tree.all isProper

end Json

/-! ## Reading what was written -/

namespace SerdeJson

/-- The bytes can be read as a generic value. -/
def Reads (json : SerdeJson) (bytes : Bytes) : Prop :=
  Exists fun tree => json.fromSlice bytes = some tree ∧ tree.readable = true

/-- The reader has a recursion limit, and within it reads what was written. -/
structure Rereads (json : SerdeJson) : Prop where
  shallow : forall {bytes tree}, json.fromSlice bytes = some tree -> tree.depth < 128
  again : forall {tree bytes}, tree.readable = true -> tree.depth < 128 -> json.toVec tree = some bytes ->
    json.Reads bytes

/-- The values can be written, together as an array and each for itself. -/
def Writes (json : SerdeJson) (values : List Json) : Prop :=
  (Exists fun bytes => json.toVec (.arr values) = some bytes) ∧
    forall value, value ∈ values -> Exists fun bytes => json.toVec value = some bytes

/-- A reader inverts the writer on values that nest less than the recursion
limit. -/
def InvertedBy (json : SerdeJson) (read : Bytes -> Option Json) : Prop :=
  forall {tree bytes}, tree.proper = true -> tree.depth < 128 -> json.toVec tree = some bytes -> read bytes = some tree

/-- The writer escapes control characters and adds none of its own. -/
def OneLine (json : SerdeJson) : Prop :=
  forall {tree bytes}, json.toVec tree = some bytes -> 0x0A ∉ bytes

/-- A reader of the written texts, whatever numbers it takes the digits for:
it reads them all, and an array as the items it reads from their texts. -/
structure ReadBy (json : SerdeJson) (read : Bytes -> Option Json) : Prop where
  accepts : forall {tree bytes}, json.toVec tree = some bytes -> Exists fun value => read bytes = some value
  items : forall {items bytes value}, json.toVec (.arr items) = some bytes -> read bytes = some value ->
    Exists fun values => value = .arr values ∧
      List.Forall₂ (fun item part => forall text, json.toVec item = some text -> read text = some part) items values

/-- The reader of a table reads every text of the table. -/
theorem fromSlice_ofTable {table : List (Json × Bytes)}
    (injective : forall left, left ∈ table -> forall right, right ∈ table -> left.2 = right.2 -> left.1 = right.1)
    {tree : Json} {bytes : Bytes} (written : (ofTable table injective).toVec tree = some bytes) :
    (ofTable table injective).fromSlice bytes = some tree := by
  rcases Option.map_eq_some_iff.mp written with ⟨row, found, rfl⟩
  have listed := List.mem_of_find?_eq_some found
  have same : row.1 = tree := by simpa using List.find?_some found
  cases again : table.find? (fun other => other.2 == row.2) with
  | none =>
      have absent := List.find?_eq_none.mp again row listed
      simp at absent
  | some other =>
      have sameText : other.2 = row.2 := by simpa using List.find?_some again
      have read : (ofTable table injective).fromSlice row.2 = some other.1 := congrArg (Option.map Prod.fst) again
      rw [read, injective other (List.mem_of_find?_eq_some again) row listed sameText, same]

theorem rereads_ofTable {table : List (Json × Bytes)}
    (injective : forall left, left ∈ table -> forall right, right ∈ table -> left.2 = right.2 -> left.1 = right.1)
    (each : forall row, row ∈ table -> row.1.depth < 128 ∧ row.1.readable = true) :
    (ofTable table injective).Rereads where
  shallow := by
    intro bytes tree read
    rcases Option.map_eq_some_iff.mp read with ⟨row, found, rfl⟩
    exact (each row (List.mem_of_find?_eq_some found)).1
  again := by
    intro tree bytes _ _ written
    rcases Option.map_eq_some_iff.mp written with ⟨row, found, _⟩
    have same : row.1 = tree := by simpa using List.find?_some found
    exact ⟨tree, fromSlice_ofTable injective written, same ▸ (each row (List.mem_of_find?_eq_some found)).2⟩

theorem invertedBy_ofTable {table : List (Json × Bytes)}
    (injective : forall left, left ∈ table -> forall right, right ∈ table -> left.2 = right.2 -> left.1 = right.1) :
    (ofTable table injective).InvertedBy (ofTable table injective).fromSlice :=
  fun _ _ written => fromSlice_ofTable injective written

theorem readBy_ofTable {table : List (Json × Bytes)}
    (injective : forall left, left ∈ table -> forall right, right ∈ table -> left.2 = right.2 -> left.1 = right.1) :
    (ofTable table injective).ReadBy (ofTable table injective).fromSlice where
  accepts := fun written => ⟨_, fromSlice_ofTable injective written⟩
  items := by
    intro items bytes value written read
    rw [fromSlice_ofTable injective written] at read
    cases read
    exact ⟨items, rfl, List.forall₂_same.mpr (fun _ _ _ inTable => fromSlice_ofTable injective inTable)⟩

end SerdeJson
