import GraphHarness.Serde.Format
import Mathlib.Logic.Equiv.Defs

/-!
# Derived formats

What `derive` makes of structs and enums. A struct, or a variant with fields, writes members
of an object and reads them wherever they are (`Fields`). An enum is tagged internally, by a
member, or externally, by its content's name, or it is untagged.

Some leniences of the derived deserializers that no serializer makes use of are left out: an
array in place of an object, an index in place of a variant's name.

Fields are combined: `prod` for one after the other, `equiv` for the struct they make,
`orElse` for an untagged enum, `flatten` for fields among those of a parent. Each combinator
has its rule for what it keeps, so the round trip of a struct is put together in the order of
its definition.

A member that occurs twice is an error, as it is to the derived deserializers, and members
that are not known are passed over. `keys` are the names that fields may write; `flatten`
needs them to be apart from those of the siblings.
-/

namespace GraphHarness.Serde

variable {α β : Type}

/-- What the members of this name hold. -/
def named (name : String) (members : List Member) : List Json :=
  (members.filter fun m => m.1 = name).map Prod.snd

/-- Some fields of an object: the members they write, and what they read, whatever other
members there are. -/
structure Fields (α : Type) where
  keys : List String
  write : α → List Member
  read : List Member → Option α
  mem_keys : ∀ {x m}, m ∈ write x → m.1 ∈ keys
  read_filter : ∀ members, read (members.filter fun m => m.1 ∈ keys) = read members

/-- Members of other keys may be left out. -/
theorem named_filter {name : String} {keys : List String} (h : name ∈ keys)
    (members : List Member) : named name (members.filter fun m => m.1 ∈ keys) =
      named name members := by
  rw [named, named, List.filter_filter]
  congr 1
  apply List.filter_congr
  intro m _
  by_cases hm : m.1 = name
  · simp [hm, h]
  · simp [hm]

namespace Fields

/-! ## Structs -/

/-- A field. A second member of its name is an error; `missing` is what it is without one. -/
def field (name : String) (f : Format α) (missing : Option α) : Fields α where
  keys := [name]
  write x := [(name, f.serialize x)]
  read members :=
    match named name members with
    | [] => missing
    | [j] => f.deserialize j
    | _ => none
  mem_keys := by
    intro x m h
    rw [List.mem_singleton.mp h]
    exact List.mem_singleton_self name
  read_filter := by
    intro members
    rw [named_filter (List.mem_singleton_self name)]

/-- A field that has to be there. -/
def required (name : String) (f : Format α) : Fields α := field name f none

/-- A field of type `Option<_>`. -/
def optional (name : String) (f : Format α) : Fields (Option α) := field name f.option (some none)

/-- `#[serde(default)]` -/
def defaulted (name : String) (f : Format α) (default : α) : Fields α :=
  field name f (some default)

/-- `#[serde(skip_serializing_if = "Option::is_none")]` -/
def skipNone (name : String) (f : Format α) : Fields (Option α) where
  keys := [name]
  write
    | none => []
    | some x => [(name, f.serialize x)]
  read := (optional name f).read
  mem_keys := by
    intro x m h
    cases x with
    | none => cases h
    | some x => exact (required name f).mem_keys h
  read_filter := (optional name f).read_filter

/-- No fields at all. -/
def unit : Fields Unit where
  keys := []
  write _ := []
  read _ := some ()
  mem_keys := by
    intro x m h
    cases h
  read_filter := by
    intro members
    rfl

/-- Fields that read only their own members read as much as they need from fewer. -/
theorem read_filter_of_subset (f : Fields α) {keys : List String} (h : f.keys ⊆ keys)
    (members : List Member) : f.read (members.filter fun m => m.1 ∈ keys) = f.read members := by
  rw [← f.read_filter, List.filter_filter, ← f.read_filter members]
  congr 1
  apply List.filter_congr
  intro m _
  by_cases hm : m.1 ∈ f.keys
  · simp [hm, h hm]
  · simp [hm]

/-- One group of fields after another. -/
def prod (f : Fields α) (g : Fields β) : Fields (α × β) where
  keys := f.keys ++ g.keys
  write x := f.write x.1 ++ g.write x.2
  read members :=
    match f.read members, g.read members with
    | some x, some y => some (x, y)
    | _, _ => none
  mem_keys := by
    intro x m h
    rcases List.mem_append.mp h with h | h
    · exact List.mem_append_left _ (f.mem_keys h)
    · exact List.mem_append_right _ (g.mem_keys h)
  read_filter := by
    intro members
    rw [f.read_filter_of_subset (List.subset_append_left _ _),
      g.read_filter_of_subset (List.subset_append_right _ _)]

/-- The fields of a type that is built from them. -/
def equiv (e : α ≃ β) (f : Fields α) : Fields β where
  keys := f.keys
  write y := f.write (e.symm y)
  read members := (f.read members).map e
  mem_keys := f.mem_keys
  read_filter := by
    intro members
    rw [f.read_filter]

/-- An untagged enum: what the first alternative can read is the first alternative. -/
def orElse (f : Fields α) (g : Fields β) : Fields (α ⊕ β) where
  keys := f.keys ++ g.keys
  write
    | .inl x => f.write x
    | .inr y => g.write y
  read members :=
    match f.read members with
    | some x => some (.inl x)
    | none => (g.read members).map .inr
  mem_keys := by
    intro x m h
    cases x with
    | inl x => exact List.mem_append_left _ (f.mem_keys h)
    | inr y => exact List.mem_append_right _ (g.mem_keys h)
  read_filter := by
    intro members
    rw [f.read_filter_of_subset (List.subset_append_left _ _),
      g.read_filter_of_subset (List.subset_append_right _ _)]

/-- `#[serde(flatten)]` beside fields of these names, which take their members first. -/
def flatten (siblings : List String) (f : Fields α) : Fields α where
  keys := f.keys
  write := f.write
  read members := f.read (members.filter fun m => m.1 ∉ siblings)
  mem_keys := f.mem_keys
  read_filter := by
    intro members
    have hcomm : (members.filter fun m => m.1 ∈ f.keys).filter (fun m => m.1 ∉ siblings) =
        (members.filter fun m => m.1 ∉ siblings).filter fun m => m.1 ∈ f.keys := by
      rw [List.filter_filter, List.filter_filter]
      apply List.filter_congr
      intro m _
      exact Bool.and_comm _ _
    rw [hcomm, f.read_filter]

/-- A struct. -/
def object (f : Fields α) : Format α where
  serialize x := .obj (f.write x)
  deserialize
    | .obj members => f.read members
    | _ => none

/-! ## What fields keep -/

/-- The value is read back from the members it was written as. -/
def Keeps (f : Fields α) (x : α) : Prop := f.read (f.write x) = some x

/-- Every value is read back. -/
def RoundTrips (f : Fields α) : Prop := ∀ x, f.Keeps x

variable {f : Fields α} {g : Fields β}

/-- A field keeps a value if and only if its format does. -/
theorem field_iff {name : String} {h : Format α} {missing : Option α} {x : α} :
    (field name h missing).Keeps x ↔ h.Keeps x := by
  have hnamed : named name [(name, h.serialize x)] = [h.serialize x] := by simp [named]
  show (match named name [(name, h.serialize x)] with
    | [] => missing
    | [j] => h.deserialize j
    | _ => none) = some x ↔ _
  rw [hnamed]
  rfl

/-- What is left out is read as nothing. -/
theorem skipNone_none {name : String} {h : Format α} : (skipNone name h).Keeps none := rfl

/-- A skipped field is read as one that is not. -/
theorem skipNone_some_iff {name : String} {h : Format α} {x : α} :
    (skipNone name h).Keeps (some x) ↔ h.option.Keeps (some x) := by
  have hfield : (optional name h).Keeps (some x) ↔ h.option.Keeps (some x) := field_iff
  exact hfield

/-- Members of other fields are passed over. -/
theorem read_append_left {x : α} {others : List Member} (h : ∀ m ∈ others, m.1 ∉ f.keys) :
    f.read (f.write x ++ others) = f.read (f.write x) := by
  have hothers : others.filter (fun m => m.1 ∈ f.keys) = [] := by
    rw [List.filter_eq_nil_iff]
    intro m hm
    simpa using h m hm
  rw [← f.read_filter, List.filter_append, hothers, List.append_nil, f.read_filter]

/-- Members of other keys may stand before. -/
theorem read_append_right {x : α} {others : List Member} (h : ∀ m ∈ others, m.1 ∉ f.keys) :
    f.read (others ++ f.write x) = f.read (f.write x) := by
  have hothers : others.filter (fun m => m.1 ∈ f.keys) = [] := by
    rw [List.filter_eq_nil_iff]
    intro m hm
    simpa using h m hm
  rw [← f.read_filter, List.filter_append, hothers, List.nil_append, f.read_filter]

/-- Fields of different names keep what each of them keeps. -/
theorem prod_iff (hkeys : ∀ name ∈ f.keys, name ∉ g.keys) {x : α} {y : β} :
    (f.prod g).Keeps (x, y) ↔ f.Keeps x ∧ g.Keeps y := by
  have hleft : f.read (f.write x ++ g.write y) = f.read (f.write x) :=
    read_append_left fun m hm hmem => hkeys m.1 hmem (g.mem_keys hm)
  have hright : g.read (f.write x ++ g.write y) = g.read (g.write y) :=
    read_append_right fun m hm hmem => hkeys m.1 (f.mem_keys hm) hmem
  show (match f.read (f.write x ++ g.write y), g.read (f.write x ++ g.write y) with
    | some x, some y => some (x, y)
    | _, _ => none) = some (x, y) ↔ f.read (f.write x) = some x ∧ g.read (g.write y) = some y
  rw [hleft, hright]
  cases f.read (f.write x) with
  | none => simp
  | some x' =>
    cases g.read (g.write y) with
    | none => simp
    | some y' => simp

/-- A renaming keeps what the fields keep. -/
theorem equiv_iff {e : α ≃ β} {y : β} : (equiv e f).Keeps y ↔ f.Keeps (e.symm y) := by
  show (f.read (f.write (e.symm y))).map e = some y ↔ f.read (f.write (e.symm y)) = some (e.symm y)
  rw [Option.map_eq_some_iff]
  constructor
  · rintro ⟨x, hx, rfl⟩
    rw [hx, e.symm_apply_apply]
  · intro hx
    exact ⟨e.symm y, hx, e.apply_symm_apply y⟩

/-- The fields of a variant. -/
theorem map_read_iff {make : α → β} (hmake : Function.Injective make) {x : α} :
    (f.read (f.write x)).map make = some (make x) ↔ f.Keeps x := by
  rw [← Option.map_some, (Option.map_injective hmake).eq_iff]
  rfl

/-- A value that is read back may be mapped. -/
theorem Keeps.map {x : α} (h : f.Keeps x) (make : α → β) :
    (f.read (f.write x)).map make = some (make x) := by
  rw [show f.read (f.write x) = some x from h]
  rfl

/-- No member is named like a tag that is no key. -/
theorem ne_of_mem_write {tag : String} (htag : tag ∉ f.keys) {x : α} {m : Member}
    (h : m ∈ f.write x) : m.1 ≠ tag := by
  rintro rfl
  exact htag (f.mem_keys h)

/-- The first alternative keeps its values. -/
theorem orElse_inl {x : α} (h : f.Keeps x) : (f.orElse g).Keeps (.inl x) := by
  show (match f.read (f.write x) with
    | some x => some (Sum.inl x)
    | none => (g.read (f.write x)).map .inr) = some (.inl x)
  rw [show f.read (f.write x) = some x from h]

/-- What the first alternative cannot read is left to the second. -/
theorem orElse_inr {y : β} (h : g.Keeps y) (hfirst : f.read (g.write y) = none) :
    (f.orElse g).Keeps (.inr y) := by
  show (match f.read (g.write y) with
    | some x => some (Sum.inl x)
    | none => (g.read (g.write y)).map .inr) = some (.inr y)
  rw [hfirst, show g.read (g.write y) = some y from h]
  rfl

/-- Flattened fields keep what the fields keep, their keys being apart from the siblings. -/
theorem flatten_iff {siblings : List String} (hkeys : ∀ name ∈ f.keys, name ∉ siblings) {x : α} :
    (f.flatten siblings).Keeps x ↔ f.Keeps x := by
  have hall : (f.write x).filter (fun m => m.1 ∉ siblings) = f.write x := by
    rw [List.filter_eq_self]
    intro m hm
    simpa using hkeys m.1 (f.mem_keys hm)
  show f.read ((f.write x).filter fun m => m.1 ∉ siblings) = some x ↔ _
  rw [hall]
  rfl

/-- Without its member a required field cannot be read. -/
theorem required_eq_none {name : String} {h : Format α} {members : List Member}
    (hname : ∀ m ∈ members, m.1 ≠ name) : (required name h).read members = none := by
  have hnamed : named name members = [] := by
    rw [named, List.map_eq_nil_iff, List.filter_eq_nil_iff]
    intro m hm
    simpa using hname m hm
  show (match named name members with
    | [] => none
    | [j] => h.deserialize j
    | _ => none) = none
  rw [hnamed]

/-- A product is not read where its first part is not. -/
theorem prod_eq_none {members : List Member} (h : f.read members = none) :
    (f.prod g).read members = none := by
  show (match f.read members, g.read members with
    | some x, some y => some (x, y)
    | _, _ => none) = none
  rw [h]

/-- An object keeps what its fields keep. -/
theorem object_iff {x : α} : f.object.Keeps x ↔ f.Keeps x := Iff.rfl

/-- An object is not null. -/
theorem object_neverNull (f : Fields α) : f.object.NeverNull := by
  intro x h
  cases h

section RoundTrips

variable {h : Format α} (hh : h.RoundTrips)

include hh

/-- A required field is read back. -/
theorem required_roundTrips (name : String) : (required name h).RoundTrips :=
  fun x => field_iff.mpr (hh x)

/-- A field with a default is read back. -/
theorem defaulted_roundTrips (name : String) (default : α) :
    (defaulted name h default).RoundTrips := fun x => field_iff.mpr (hh x)

/-- An optional field is read back, if its format never writes null. -/
theorem optional_roundTrips (name : String) (hnull : h.NeverNull) :
    (optional name h).RoundTrips := fun x => field_iff.mpr (hh.option hnull x)

end RoundTrips

/-- A field with a text is read back. -/
theorem string_roundTrips (name : String) : (required name .string).RoundTrips :=
  required_roundTrips Format.string_roundTrips name

/-- A field with a list of texts is read back. -/
theorem strings_roundTrips (name : String) : (required name (.list .string)).RoundTrips :=
  required_roundTrips Format.string_roundTrips.list name

/-- A field with a map of texts is read back. -/
theorem stringMap_roundTrips (name : String) : (required name (.map .string)).RoundTrips :=
  required_roundTrips Format.string_roundTrips.map name

/-- An optional text is read back. -/
theorem optionalString_roundTrips (name : String) : (optional name .string).RoundTrips :=
  optional_roundTrips Format.string_roundTrips name Format.string_neverNull

/-- One check that no name is used twice serves a whole struct. -/
theorem RoundTrips.prod (hf : f.RoundTrips) (hg : g.keys.Nodup → g.RoundTrips)
    (hkeys : (f.prod g).keys.Nodup) : (f.prod g).RoundTrips := by
  obtain ⟨_, hnodup, hdisjoint⟩ := List.nodup_append.mp hkeys
  intro x
  refine (prod_iff ?_).mpr ⟨hf x.1, hg hnodup x.2⟩
  intro name hname hmem
  exact hdisjoint name hname name hmem rfl

/-- Renamed fields are read back. -/
theorem RoundTrips.equiv (hf : f.RoundTrips) (e : α ≃ β) : (equiv e f).RoundTrips :=
  fun y => equiv_iff.mpr (hf (e.symm y))

/-- Alternatives are read back, if the second is never read as the first. -/
theorem RoundTrips.orElse (hf : f.RoundTrips) (hg : g.RoundTrips)
    (hfirst : ∀ y, f.read (g.write y) = none) : (f.orElse g).RoundTrips := by
  intro x
  cases x with
  | inl x => exact orElse_inl (hf x)
  | inr y => exact orElse_inr (hg y) (hfirst y)

/-- Flattened fields are read back. -/
theorem RoundTrips.flatten (hf : f.RoundTrips) {siblings : List String}
    (hkeys : ∀ name ∈ f.keys, name ∉ siblings) : (f.flatten siblings).RoundTrips :=
  fun x => (flatten_iff hkeys).mpr (hf x)

/-- An object is read back. -/
theorem RoundTrips.object (hf : f.RoundTrips) : f.object.RoundTrips := hf

end Fields

/-! ## Enums -/

namespace Format

/-- `#[serde(tag = "…")]`: the variant's name is a member beside its fields. -/
def tagged (tag : String) (variant : α → String) (write : α → List Member)
    (read : String → List Member → Option α) : Format α where
  serialize x := .obj ((tag, .str (variant x)) :: write x)
  deserialize
    | .obj members =>
      match named tag members with
      | [.str name] => read name (members.filter fun m => m.1 ≠ tag)
      | _ => none
    | _ => none

/-- A variant without content is written as its name, one with content as an object. -/
def external (variant : α → String) (content : α → Option Json)
    (read : String → Option Json → Option α) : Format α where
  serialize x :=
    match content x with
    | none => .str (variant x)
    | some j => .obj [(variant x, j)]
  deserialize
    | .str name => read name none
    | .obj [(name, j)] => read name (some j)
    | _ => none

/-- A variant without content may have `null` for one. -/
def isUnit : Option Json → Bool
  | none | some .null => true
  | _ => false

/-- An enum without contents. -/
def unitEnum (variant : α → String) (ofVariant : String → Option α) : Format α :=
  external variant (fun _ => none) fun name content =>
    if isUnit content then ofVariant name else none

/-! ## What enums keep -/

section Keeps

variable {variant : α → String}

/-- A variant with no field of the tag's name is kept if its fields are. -/
theorem tagged_iff {tag : String} {write : α → List Member}
    {read : String → List Member → Option α} {x : α} (htag : ∀ m ∈ write x, m.1 ≠ tag) :
    (tagged tag variant write read).Keeps x ↔ read (variant x) (write x) = some x := by
  have hothers : (write x).filter (fun m => m.1 = tag) = [] := by
    rw [List.filter_eq_nil_iff]
    intro m hm
    simpa using htag m hm
  have hnamed : named tag ((tag, .str (variant x)) :: write x) = [.str (variant x)] := by
    rw [named, List.filter_cons_of_pos (by simp), hothers]
    rfl
  have hrest : ((tag, Json.str (variant x)) :: write x).filter (fun m => m.1 ≠ tag) = write x := by
    rw [List.filter_cons_of_neg (by simp), List.filter_eq_self]
    intro m hm
    simpa using htag m hm
  show (match named tag ((tag, .str (variant x)) :: write x) with
    | [.str name] => read name (((tag, Json.str (variant x)) :: write x).filter fun m => m.1 ≠ tag)
    | _ => none) = some x ↔ _
  rw [hnamed, hrest]

/-- When an enum with its tag outside is read back. -/
theorem external_iff {content : α → Option Json} {read : String → Option Json → Option α} {x : α} :
    (external variant content read).Keeps x ↔ read (variant x) (content x) = some x := by
  rw [Keeps]
  unfold external
  dsimp only
  cases content x with
  | none => rfl
  | some j => rfl

/-- An enum without contents is read back. -/
theorem unitEnum_roundTrips {ofVariant : String → Option α}
    (h : ∀ x, ofVariant (variant x) = some x) : (unitEnum variant ofVariant).RoundTrips :=
  fun x => external_iff.mpr (h x)

end Keeps

end Format

end GraphHarness.Serde
