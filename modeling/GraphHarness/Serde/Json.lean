import Mathlib.Data.List.Sort
import Mathlib.Data.String.Basic

/-!
# JSON documents and values

A document is what a text holds: the members of an object are in the order of the text, and
a name may occur twice. A value is what `serde_json::Value` holds: each object is a map in
the order of its keys (`Value`). To read a value is to normalize a document.

`normalize` sorts the members of each object by their names, and of two with one name keeps
the one that comes later, as inserting into a map does. A value is a normalized document, as a
subtype, so two values with the same members are equal.
-/

namespace GraphHarness.Serde

/-- `f64` that is a number: the bits of the exponent are not all set. -/
structure Finite where
  bits : UInt64
  finite : bits &&& 0x7FF0000000000000 ≠ 0x7FF0000000000000
  deriving DecidableEq

/-- `serde_json::Number`. -/
inductive Number where
  | posInt (n : UInt64)
  | negInt (n : Int64) (neg : n < 0)
  | float (x : Finite)
  deriving DecidableEq

/-- A JSON document, its members in the order of the text. -/
inductive Json where
  | null
  | bool (b : Bool)
  | num (n : Number)
  | str (s : String)
  | arr (items : List Json)
  | obj (members : List (String × Json))

/-- A name with its value. -/
abbrev Member := String × Json

namespace Json

/-- Puts a member in its place in front of later ones, unless a later one has its name. -/
def insertMember (m : Member) : List Member → List Member
  | [] => [m]
  | m' :: members =>
    if m.1 < m'.1 then m :: m' :: members
    else if m.1 = m'.1 then m' :: members
    else m' :: insertMember m members

mutual

/-- The value of a document: of the members with one name the last one counts. -/
def normalize : Json → Json
  | .arr items => .arr (normalizeItems items)
  | .obj members => .obj (normalizeMembers members)
  | .null => .null
  | .bool b => .bool b
  | .num n => .num n
  | .str s => .str s

/-- The elements of an array, normalized. -/
def normalizeItems : List Json → List Json
  | [] => []
  | item :: items => item.normalize :: normalizeItems items

/-- The members of an object, sorted and normalized. -/
def normalizeMembers : List Member → List Member
  | [] => []
  | (name, value) :: members =>
    insertMember (name, value.normalize) (normalizeMembers members)

end

mutual

/-- Every object in it is a map in the order of its keys. -/
def Sorted : Json → Prop
  | .arr items => SortedItems items
  | .obj members => SortedMembers members
  | .null => True
  | .bool _ => True
  | .num _ => True
  | .str _ => True

/-- The elements of an array are sorted inside. -/
def SortedItems : List Json → Prop
  | [] => True
  | item :: items => item.Sorted ∧ SortedItems items

/-- The members of an object are sorted, and sorted inside. -/
def SortedMembers : List Member → Prop
  | [] => True
  | (name, value) :: members =>
    value.Sorted ∧ (∀ m ∈ members, name < m.1) ∧ SortedMembers members

end

/-- What is in the list after a member was put in. -/
theorem mem_insertMember {m m' : Member} {members : List Member}
    (h : m' ∈ insertMember m members) : m' = m ∨ m' ∈ members := by
  induction members with
  | nil => exact .inl (List.mem_singleton.mp h)
  | cons first members ih =>
    rw [insertMember] at h
    split at h
    next => exact List.mem_cons.mp h
    next =>
      split at h
      next => exact .inr h
      next =>
        rcases List.mem_cons.mp h with rfl | h
        · exact .inr List.mem_cons_self
        · rcases ih h with hm | hm
          · exact .inl hm
          · exact .inr (List.mem_cons_of_mem _ hm)

/-- Putting a member in keeps the order. -/
theorem sorted_insertMember {m : Member} {members : List Member} (hm : m.2.Sorted)
    (h : SortedMembers members) : SortedMembers (insertMember m members) := by
  induction members with
  | nil => exact ⟨hm, by simp, trivial⟩
  | cons first members ih =>
    obtain ⟨hfirst, hbelow, hrest⟩ := h
    rw [insertMember]
    split
    next hlt =>
      refine ⟨hm, ?_, hfirst, hbelow, hrest⟩
      intro m' hm'
      rcases List.mem_cons.mp hm' with rfl | hm'
      · exact hlt
      · exact hlt.trans (hbelow m' hm')
    next hle =>
      split
      next => exact ⟨hfirst, hbelow, hrest⟩
      next hne =>
        have hlt : first.1 < m.1 := lt_of_le_of_ne (not_lt.mp hle) (Ne.symm hne)
        refine ⟨hfirst, ?_, ih hrest⟩
        intro m' hm'
        rcases mem_insertMember hm' with rfl | hm'
        · exact hlt
        · exact hbelow m' hm'

/-- A member in front of later ones is in its place. -/
theorem insertMember_eq {m : Member} {members : List Member} (h : ∀ m' ∈ members, m.1 < m'.1) :
    insertMember m members = m :: members := by
  cases members with
  | nil => rfl
  | cons first members => exact if_pos (h first List.mem_cons_self)

mutual

/-- A normalized document is sorted. -/
theorem sorted_normalize (j : Json) : j.normalize.Sorted :=
  match j with
  | .arr items => sorted_normalizeItems items
  | .obj members => sorted_normalizeMembers members
  | .null => trivial
  | .bool _ => trivial
  | .num _ => trivial
  | .str _ => trivial

/-- So are the elements of an array. -/
theorem sorted_normalizeItems (items : List Json) : SortedItems (normalizeItems items) :=
  match items with
  | [] => trivial
  | item :: items => ⟨sorted_normalize item, sorted_normalizeItems items⟩

/-- So are the members of an object. -/
theorem sorted_normalizeMembers (members : List Member) :
    SortedMembers (normalizeMembers members) :=
  match members with
  | [] => trivial
  | (_, value) :: members =>
    sorted_insertMember (sorted_normalize value) (sorted_normalizeMembers members)

end

mutual

/-- A value is what it is normalized to. -/
theorem normalize_eq {j : Json} (h : j.Sorted) : j.normalize = j :=
  match j with
  | .arr _ => congrArg arr (normalizeItems_eq h)
  | .obj _ => congrArg obj (normalizeMembers_eq h)
  | .null => rfl
  | .bool _ => rfl
  | .num _ => rfl
  | .str _ => rfl

/-- Sorted elements stay as they are. -/
theorem normalizeItems_eq {items : List Json} (h : SortedItems items) :
    normalizeItems items = items :=
  match items with
  | [] => rfl
  | _ :: _ => by rw [normalizeItems, normalize_eq h.1, normalizeItems_eq h.2]

/-- Sorted members stay as they are. -/
theorem normalizeMembers_eq {members : List Member} (h : SortedMembers members) :
    normalizeMembers members = members :=
  match members with
  | [] => rfl
  | (_, _) :: _ => by
    rw [normalizeMembers, normalize_eq h.1, normalizeMembers_eq h.2.2, insertMember_eq h.2.1]

end

end Json

/-- `serde_json::Value`. -/
@[ext] structure Value where
  json : Json
  sorted : json.Sorted

namespace Value

/-- `Value::Null`. -/
def null : Value := ⟨.null, trivial⟩

/-- The value that a document is read as. -/
def ofJson (j : Json) : Value := ⟨j.normalize, j.sorted_normalize⟩

/-- A value is its own document. -/
theorem ofJson_json (v : Value) : ofJson v.json = v := by
  cases v with
  | mk json sorted =>
    unfold ofJson
    congr
    exact Json.normalize_eq sorted

/-- Only null is written as null. -/
theorem json_eq_null_iff {v : Value} : v.json = .null ↔ v = null := by
  constructor
  · exact fun h => Value.ext h
  · rintro rfl
    rfl

end Value

end GraphHarness.Serde
