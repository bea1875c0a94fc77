import GraphHarness.Serde.Json
import Mathlib.Data.List.AList

/-!
# Formats

How `serde` writes a value as a document (`serialize`), and what it reads back from one
(`deserialize`, `none` for any error). A value is *kept* if what is read back is the value.

Here are the formats of scalars and of containers, and what each of them keeps.

Numbers are whole ones here, as the formats of the repository have no others, and they are
read if they are in the bounds of their type. A map is written as an object in the order of
its entries and read by the last value of a name.

`Value` is a format of its own, for the parts of a message that are passed on as they come.
Texts are compared as they are: escapes in the text of a document are the business of the
writer and the reader of texts, which are not modelled.
-/

namespace GraphHarness.Serde

variable {α β : Type}

/-- A way to write values as JSON and to read them. -/
structure Format (α : Type) where
  serialize : α → Json
  deserialize : Json → Option α

namespace Format

/-- The value is read back as it was written. -/
def Keeps (f : Format α) (x : α) : Prop := f.deserialize (f.serialize x) = some x

/-- Every value is read back. -/
def RoundTrips (f : Format α) : Prop := ∀ x, f.Keeps x

/-- No two values are written alike. -/
theorem RoundTrips.injective {f : Format α} (h : f.RoundTrips) :
    Function.Injective f.serialize := by
  intro x y hxy
  have hx : f.deserialize (f.serialize x) = some x := h x
  rw [hxy, h y] at hx
  exact (Option.some.inj hx).symm

/-- Nothing is written as `null`. -/
def NeverNull (f : Format α) : Prop := ∀ x, f.serialize x ≠ .null

/-! ## Scalars -/

/-- The format of `String`. -/
def string : Format String where
  serialize s := .str s
  deserialize
    | .str s => some s
    | _ => none

/-- An unsigned integer of less than 64 bits, or of all 64. -/
def unsigned (size : Nat) (toNat : α → Nat) (ofNat : Nat → α) : Format α where
  serialize x := .num (.posInt (UInt64.ofNat (toNat x)))
  deserialize
    | .num (.posInt n) => if n.toNat < size then some (ofNat n.toNat) else none
    | _ => none

/-- The format of `u16`. -/
def u16 : Format UInt16 := unsigned UInt16.size UInt16.toNat UInt16.ofNat

/-- The format of `u32`. -/
def u32 : Format UInt32 := unsigned UInt32.size UInt32.toNat UInt32.ofNat

/-- The format of `u64`. -/
def u64 : Format UInt64 := unsigned UInt64.size UInt64.toNat UInt64.ofNat

/-- The format of `Value`, which is JSON already. -/
def value : Format Value where
  serialize v := v.json
  deserialize j := some (.ofJson j)

/-! ## Containers -/

/-- The format of `Option`; nothing is written as null. -/
def option (f : Format α) : Format (Option α) where
  serialize
    | none => .null
    | some x => f.serialize x
  deserialize
    | .null => some none
    | j => (f.deserialize j).map some

/-- The format of `Vec`. -/
def list (f : Format α) : Format (List α) where
  serialize xs := .arr (xs.map f.serialize)
  deserialize
    | .arr items => items.mapM f.deserialize
    | _ => none

/-- The map of entries that are inserted one after the other, in their order. -/
def ofEntries (entries : List (Σ _ : String, α)) : AList fun _ : String => α :=
  ⟨entries.reverse.dedupKeys.reverse, by
    rw [List.NodupKeys, List.keys, List.map_reverse, List.nodup_reverse]
    exact List.nodupKeys_dedupKeys _⟩

/-- `HashMap<String, _>`, which is written in the order it is iterated in. -/
def map (f : Format α) : Format (AList fun _ : String => α) where
  serialize m := .obj (m.entries.map fun entry => (entry.1, f.serialize entry.2))
  deserialize
    | .obj members =>
      (members.mapM fun m => (f.deserialize m.2).map fun x => ⟨m.1, x⟩).map ofEntries
    | _ => none

/-! ## What they keep -/

section Keeps

variable {f : Format α}

/-- A text is read back. -/
theorem string_roundTrips : string.RoundTrips := fun _ => rfl

/-- A text is not null. -/
theorem string_neverNull : string.NeverNull := by
  intro s h
  cases h

/-- A number within its bounds is read back. -/
theorem unsigned_roundTrips {size : Nat} {toNat : α → Nat} {ofNat : Nat → α}
    (hsize : size ≤ UInt64.size) (hlt : ∀ x, toNat x < size) (hof : ∀ x, ofNat (toNat x) = x) :
    (unsigned size toNat ofNat).RoundTrips := by
  intro x
  have hfits : (UInt64.ofNat (toNat x)).toNat = toNat x :=
    UInt64.toNat_ofNat_of_lt ((hlt x).trans_le hsize)
  show (if (UInt64.ofNat (toNat x)).toNat < size
    then some (ofNat (UInt64.ofNat (toNat x)).toNat) else none) = some x
  rw [hfits, if_pos (hlt x), hof]

/-- A number is not null. -/
theorem unsigned_neverNull (size : Nat) (toNat : α → Nat) (ofNat : Nat → α) :
    (unsigned size toNat ofNat).NeverNull := by
  intro x h
  cases h

/-- A `u16` is read back. -/
theorem u16_roundTrips : u16.RoundTrips :=
  unsigned_roundTrips (by decide) UInt16.toNat_lt fun _ => UInt16.ofNat_toNat

/-- A `u32` is read back. -/
theorem u32_roundTrips : u32.RoundTrips :=
  unsigned_roundTrips (by decide) UInt32.toNat_lt fun _ => UInt32.ofNat_toNat

/-- A `u64` is read back. -/
theorem u64_roundTrips : u64.RoundTrips :=
  unsigned_roundTrips (Nat.le_refl _) UInt64.toNat_lt fun _ => UInt64.ofNat_toNat

/-- A document is read back. -/
theorem value_roundTrips : value.RoundTrips := fun v => congrArg some (Value.ofJson_json v)

/-- Nothing is read back as nothing. -/
theorem option_none : f.option.Keeps none := rfl

/-- Something is kept in an option unless it is written as `null`. -/
theorem option_some_iff {x : α} : f.option.Keeps (some x) ↔ f.Keeps x ∧ f.serialize x ≠ .null := by
  have hserialize : f.option.serialize (some x) = f.serialize x := rfl
  rw [Keeps, Keeps, hserialize]
  cases hx : f.serialize x with
  | null => simp [option]
  | _ => simp [option]

/-- An optional value is read back, if no value is written as null. -/
theorem RoundTrips.option (h : f.RoundTrips) (hnull : f.NeverNull) : f.option.RoundTrips := by
  intro x
  cases x with
  | none => exact option_none
  | some x => exact option_some_iff.mpr ⟨h x, hnull x⟩

/-- Reading back one element after the other. -/
theorem mapM_keeps {γ δ : Type} {write : γ → δ} {read : δ → Option γ} {xs : List γ}
    (h : ∀ x ∈ xs, read (write x) = some x) : (xs.map write).mapM read = some xs := by
  induction xs with
  | nil => rfl
  | cons x xs ih =>
    rw [List.forall_mem_cons] at h
    rw [List.map_cons, List.mapM_cons, h.1, ih h.2]
    rfl

/-- A list is read back. -/
theorem RoundTrips.list (h : f.RoundTrips) : f.list.RoundTrips := by
  intro xs
  exact mapM_keeps fun x _ => h x

/-- Without a duplicate there is nothing to drop. -/
theorem dedupKeys_eq {entries : List (Σ _ : String, α)} (h : entries.NodupKeys) :
    entries.dedupKeys = entries := by
  induction entries with
  | nil => rfl
  | cons entry entries ih =>
    obtain ⟨hnew, hrest⟩ := List.nodupKeys_cons.mp h
    rw [List.dedupKeys_cons, ih hrest, List.kinsert_def, List.kerase_of_notMem_keys hnew]

/-- A map is built again from its entries. -/
theorem ofEntries_entries (m : AList fun _ : String => α) : ofEntries m.entries = m := by
  apply AList.ext
  have hreverse : m.entries.reverse.NodupKeys := by
    rw [List.NodupKeys, List.keys, List.map_reverse, List.nodup_reverse]
    exact m.nodupKeys
  show m.entries.reverse.dedupKeys.reverse = m.entries
  rw [dedupKeys_eq hreverse, List.reverse_reverse]

/-- A map is read back. -/
theorem RoundTrips.map (h : f.RoundTrips) : f.map.RoundTrips := by
  intro m
  show Option.map ofEntries ((m.entries.map fun entry => (entry.1, f.serialize entry.2)).mapM
    fun m => (f.deserialize m.2).map fun x => ⟨m.1, x⟩) = some m
  rw [mapM_keeps, Option.map_some, ofEntries_entries]
  intro entry _
  dsimp only
  rw [show f.deserialize (f.serialize entry.2) = some entry.2 from h entry.2]
  rfl

end Keeps

end Format

end GraphHarness.Serde
