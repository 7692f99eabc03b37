import Keydock.Foundation.Binary64

/-!
# JSON trees and typed readers

A tree is what a JSON text denotes: members of an object stay in order, and
names may repeat.  `unreadable` stands for a well-formed value that a reader
can skip but not represent, such as a number out of range.

Records are read the way derived deserializers read them.  An object supplies
each field by name, a repeated field is refused, and unknown members are
refused or skipped.  An array supplies the fields by position.

The text form itself is not modelled.  A `SerdeJson` is a pair of functions
between trees and bytes in which reading inverts writing on trees that hold
no floating point number and nest less than the reader's recursion limit.
-/

inductive Json
  | null
  | bool (value : Bool)
  | posInt (value : UInt64)
  | negInt (value : Int64)
  | float (value : Binary64)
  | str (value : String)
  | arr (items : List Json)
  | obj (members : List (String × Json))
  | unreadable

namespace Json

/-! ## Equality -/

mutual

def same : Json -> Json -> Bool
  | .null, .null => true
  | .bool left, .bool right => left == right
  | .posInt left, .posInt right => left == right
  | .negInt left, .negInt right => left == right
  | .float left, .float right => decide (left = right)
  | .str left, .str right => left == right
  | .arr left, .arr right => sameItems left right
  | .obj left, .obj right => sameMembers left right
  | .unreadable, .unreadable => true
  | _, _ => false

def sameItems : List Json -> List Json -> Bool
  | [], [] => true
  | left :: leftRest, right :: rightRest => left.same right && sameItems leftRest rightRest
  | _, _ => false

def sameMembers : List (String × Json) -> List (String × Json) -> Bool
  | [], [] => true
  | (leftName, left) :: leftRest, (rightName, right) :: rightRest =>
      leftName == rightName && left.same right && sameMembers leftRest rightRest
  | _, _ => false

end

mutual

theorem same_iff (left right : Json) : left.same right = true ↔ left = right := by
  cases left <;> cases right <;> simp only [same, beq_iff_eq, decide_eq_true_eq, reduceCtorEq,
    Json.bool.injEq, Json.posInt.injEq, Json.negInt.injEq, Json.float.injEq, Json.str.injEq,
    Json.arr.injEq, Json.obj.injEq, Bool.false_eq_true]
  case arr.arr items others => exact sameItems_iff items others
  case obj.obj members others => exact sameMembers_iff members others

theorem sameItems_iff (left right : List Json) : sameItems left right = true ↔ left = right := by
  match left, right with
  | [], [] => simp only [sameItems]
  | [], _ :: _ => simp only [sameItems, reduceCtorEq, Bool.false_eq_true]
  | _ :: _, [] => simp only [sameItems, reduceCtorEq, Bool.false_eq_true]
  | head :: rest, other :: others =>
      simp only [sameItems, Bool.and_eq_true, same_iff head other, sameItems_iff rest others,
        List.cons.injEq]

theorem sameMembers_iff (left right : List (String × Json)) :
    sameMembers left right = true ↔ left = right := by
  match left, right with
  | [], [] => simp only [sameMembers]
  | [], _ :: _ => simp only [sameMembers, reduceCtorEq, Bool.false_eq_true]
  | _ :: _, [] => simp only [sameMembers, reduceCtorEq, Bool.false_eq_true]
  | (name, value) :: rest, (other, otherValue) :: others =>
      simp only [sameMembers, Bool.and_eq_true, beq_iff_eq, same_iff value otherValue,
        sameMembers_iff rest others, List.cons.injEq, Prod.mk.injEq]

end

instance : DecidableEq Json := fun left right => decidable_of_iff _ (same_iff left right)

/-! ## Shape -/

mutual

/-- Nesting depth; scalars have depth zero. -/
def depth : Json -> Nat
  | .arr items => 1 + depthItems items
  | .obj members => 1 + depthMembers members
  | _ => 0

def depthItems : List Json -> Nat
  | [] => 0
  | item :: rest => max item.depth (depthItems rest)

def depthMembers : List (String × Json) -> Nat
  | [] => 0
  | (_, value) :: rest => max value.depth (depthMembers rest)

end

mutual

/-- Whether every node satisfies a test. -/
def all (test : Json -> Bool) : Json -> Bool
  | .arr items => test (.arr items) && allItems test items
  | .obj members => test (.obj members) && allMembers test members
  | leaf => test leaf

def allItems (test : Json -> Bool) : List Json -> Bool
  | [] => true
  | item :: rest => item.all test && allItems test rest

def allMembers (test : Json -> Bool) : List (String × Json) -> Bool
  | [] => true
  | (_, value) :: rest => value.all test && allMembers test rest

end

def isReadable : Json -> Bool
  | .unreadable => false
  | _ => true

/-- No part of the tree is unreadable. -/
def readable (tree : Json) : Bool := tree.all isReadable

def isExact : Json -> Bool
  | .unreadable | .float _ => false
  | _ => true

/-- A tree that survives being written and read: readable, free of floating
point numbers and within the recursion limit. -/
def exact (tree : Json) : Bool :=
  tree.all isExact && tree.depth < 128

/-- Insert a member into an ordered association list; a later value for the
same name replaces the earlier one. -/
def insertMember (name : String) (value : Json) : List (String × Json) -> List (String × Json)
  | [] => [(name, value)]
  | (other, old) :: rest =>
      if name = other then (name, value) :: rest
      else if name < other then (name, value) :: (other, old) :: rest
      else (other, old) :: insertMember name value rest

mutual

/-- The generic value a tree is read as: members ordered by name, the last
one of each name kept. -/
def toValue : Json -> Json
  | .arr items => .arr (toValueItems items)
  | .obj members => .obj (toValueMembers [] members)
  | leaf => leaf

def toValueItems : List Json -> List Json
  | [] => []
  | item :: rest => item.toValue :: toValueItems rest

def toValueMembers : List (String × Json) -> List (String × Json) -> List (String × Json)
  | kept, [] => kept
  | kept, (name, value) :: rest => toValueMembers (insertMember name value.toValue kept) rest

end

/-! ## Typed readers -/

def asBool : Json -> Option Bool
  | .bool value => some value
  | _ => none

def asU64 : Json -> Option UInt64
  | .posInt value => some value
  | _ => none

def asU8 : Json -> Option UInt8
  | .posInt value => if value.toNat < 256 then some (UInt8.ofNat value.toNat) else none
  | _ => none

def asString : Json -> Option String
  | .str value => some value
  | _ => none

def asList {α : Type} (read : Json -> Option α) : Json -> Option (List α)
  | .arr items => items.mapM read
  | _ => none

/-- A sequence of bytes, written as an array of numbers. -/
def asBytes : Json -> Option Bytes := asList asU8

/-- `null` is the absent value. -/
def asOption {α : Type} (read : Json -> Option α) : Json -> Option (Option α)
  | .null => some none
  | value => (read value).map some

/-- A field that must be present. -/
def required {α : Type} (read : Json -> Option α) (field : Option Json) : Option α :=
  field.bind read

/-- A field that is absent by default. -/
def optional {α : Type} (read : Json -> Option α) (field : Option Json) : Option (Option α) :=
  match field with
  | none => some none
  | some value => asOption read value

/-- The fields of a record in declaration order.  `positional` is the number
of leading fields an array must supply. -/
def fields (denyUnknown : Bool) (positional : Nat) (names : List String) :
    Json -> Option (List (Option Json))
  | .obj members =>
      if names.any (fun name => 1 < members.countP (fun member => member.1 == name)) then none
      else if denyUnknown && members.any (fun member => !names.contains member.1) then none
      else some (names.map (fun name => members.lookup name))
  | .arr items =>
      if positional ≤ items.length ∧ items.length ≤ names.length then
        some ((List.range names.length).map (fun i => items[i]?))
      else none
  | _ => none

/-! ## Writers -/

def ofBytes (bytes : Bytes) : Json :=
  .arr (bytes.map (fun byte => .posInt (UInt64.ofNat byte.toNat)))

def ofOption {α : Type} (write : α -> Json) : Option α -> Json
  | none => .null
  | some value => write value

def ofInt64 (value : Int64) : Json :=
  if value < 0 then .negInt value else .posInt value.toUInt64

theorem asU8_ofNat (byte : UInt8) : asU8 (.posInt (UInt64.ofNat byte.toNat)) = some byte := by
  have small := byte.toNat_lt
  have same : (UInt64.ofNat byte.toNat).toNat = byte.toNat := by
    rw [UInt64.toNat_ofNat', Nat.mod_eq_of_lt (by omega)]
  simp only [asU8, same, if_pos small, UInt8.ofNat_toNat]

@[simp] theorem asBytes_ofBytes (bytes : Bytes) : asBytes (ofBytes bytes) = some bytes := by
  simp only [asBytes, asList, ofBytes]
  induction bytes with
  | nil => rfl
  | cons byte rest ih =>
      rw [List.map_cons, List.mapM_cons, asU8_ofNat, ih]
      rfl

theorem asOption_ofOption {α : Type} {write : α -> Json} {read : Json -> Option α}
    (inverse : forall value, read (write value) = some value)
    (present : forall value, write value ≠ .null) (value : Option α) :
    asOption read (ofOption write value) = some value := by
  cases value with
  | none => rfl
  | some value =>
      have written := present value
      cases shape : write value <;> simp_all [ofOption, asOption] <;> rw [← shape, inverse]

private theorem depthItems_numbers (bytes : Bytes) :
    depthItems (bytes.map (fun byte => .posInt (UInt64.ofNat byte.toNat))) = 0 := by
  induction bytes with
  | nil => rfl
  | cons byte rest ih => simp only [List.map_cons, depthItems, ih, depth, Nat.max_self]

@[simp] theorem depth_ofBytes (bytes : Bytes) : (ofBytes bytes).depth = 1 := by
  rw [ofBytes, depth, depthItems_numbers]

private theorem allItems_numbers (bytes : Bytes) :
    allItems isExact (bytes.map (fun byte => .posInt (UInt64.ofNat byte.toNat))) = true := by
  induction bytes with
  | nil => rfl
  | cons byte rest ih => simp only [List.map_cons, allItems, all, isExact, ih, Bool.and_self]

@[simp] theorem all_ofBytes (bytes : Bytes) : (ofBytes bytes).all isExact = true := by
  simp only [ofBytes, all, allItems_numbers, isExact, Bool.and_self]

end Json

/-- The text form of trees. -/
structure SerdeJson where
  fromSlice : Bytes -> Option Json
  toVec : Json -> Option Bytes
  fromSlice_toVec : forall {tree bytes}, tree.exact = true -> toVec tree = some bytes ->
    fromSlice bytes = some tree

namespace SerdeJson

/-- The text form of finitely many trees, given as a table. -/
def ofTable (table : List (Json × Bytes))
    (injective : forall left, left ∈ table -> forall right, right ∈ table -> left.2 = right.2 -> left.1 = right.1) :
    SerdeJson where
  fromSlice bytes := (table.find? (fun row => row.2 == bytes)).map Prod.fst
  toVec tree := (table.find? (fun row => decide (row.1 = tree))).map Prod.snd
  fromSlice_toVec := by
    intro tree bytes _ written
    rcases Option.map_eq_some_iff.mp written with ⟨row, found, rfl⟩
    have listed := List.mem_of_find?_eq_some found
    have same : row.1 = tree := by simpa using List.find?_some found
    cases again : table.find? (fun other => other.2 == row.2) with
    | none =>
        have absent := List.find?_eq_none.mp again row listed
        simp at absent
    | some other =>
        have sameText : other.2 = row.2 := by simpa using List.find?_some again
        rw [Option.map_some, injective other (List.mem_of_find?_eq_some again) row listed sameText, same]

end SerdeJson
