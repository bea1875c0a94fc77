import GraphHarness.Serde.Fields
import Mathlib.Data.List.Perm.Basic

/-!
# Formats and values

`to_value` makes a value of what a format writes, and `from_value` reads that again. In between
the members of every object come into the order of their names (`normalize`). What is read
then agrees with what was written (`Through`), though it need not be the same.

> `Format.Through.map` — a map that goes through a value **answers every lookup as before**.

`Through` is a relation between what is written and what is read, since a map may come back
with its entries in another order. For formats without maps it is equality, and the lemmas
that end in `_eq` are about these. The rules follow the combinators of `Serde.Fields` one by
one.

A value has no order of members, so every fact about reading needs that the members may be
permuted and that those of other fields may be left out (`read_normalize_filter`).
-/

namespace GraphHarness.Serde

variable {α β : Type}

/-! ## The members of a value -/

namespace Json

/-- A member that is put in its place is there for whoever takes out its name, and for nobody
else. -/
theorem filter_insertMember (p : String → Bool) {m : Member} {members : List Member}
    (h : SortedMembers members) : (insertMember m members).filter (fun m => p m.1) =
      if p m.1 = true then insertMember m (members.filter fun m => p m.1)
      else members.filter fun m => p m.1 := by
  induction members with
  | nil =>
    rw [insertMember, List.filter_cons, List.filter_nil]
    rfl
  | cons first members ih =>
    obtain ⟨_, hbelow, hrest⟩ := h
    rw [insertMember]
    by_cases hlt : m.1 < first.1
    · have hall : ∀ m' ∈ (first :: members).filter (fun m => p m.1), m.1 < m'.1 := by
        intro m' hm'
        rcases List.mem_cons.mp (List.mem_of_mem_filter hm') with rfl | hm'
        · exact hlt
        · exact hlt.trans (hbelow m' hm')
      rw [if_pos hlt, insertMember_eq hall, List.filter_cons]
    · rw [if_neg hlt]
      by_cases heq : m.1 = first.1
      · rw [if_pos heq]
        by_cases hp : p first.1 = true
        · have hm : p m.1 = true := by rwa [heq]
          rw [if_pos hm, List.filter_cons, if_pos hp, insertMember, if_neg hlt, if_pos heq]
        · have hm : ¬ p m.1 = true := by rwa [heq]
          rw [if_neg hm]
      · rw [if_neg heq]
        by_cases hfirst : p first.1 = true
        · rw [List.filter_cons, List.filter_cons, if_pos hfirst, if_pos hfirst, ih hrest]
          by_cases hp : p m.1 = true
          · rw [if_pos hp, if_pos hp, insertMember, if_neg hlt, if_neg heq]
          · rw [if_neg hp, if_neg hp]
        · rw [List.filter_cons, List.filter_cons, if_neg hfirst, if_neg hfirst, ih hrest]

/-- The members of some names are made a value as they are among others. -/
theorem filter_normalizeMembers (p : String → Bool) (members : List Member) :
    (normalizeMembers members).filter (fun m => p m.1) =
      normalizeMembers (members.filter fun m => p m.1) := by
  induction members with
  | nil => rfl
  | cons m members ih =>
    rw [normalizeMembers, filter_insertMember p (sorted_normalizeMembers members), ih]
    by_cases hp : p m.1 = true
    · rw [if_pos hp, List.filter_cons, if_pos hp, normalizeMembers]
    · rw [if_neg hp, List.filter_cons, if_neg hp]

/-- Putting a member in moves it to its place. -/
theorem insertMember_perm {m : Member} {members : List Member}
    (h : m.1 ∉ members.map Prod.fst) : (insertMember m members).Perm (m :: members) := by
  induction members with
  | nil => exact .refl _
  | cons first members ih =>
    rw [List.map_cons, List.mem_cons, not_or] at h
    rw [insertMember]
    by_cases hlt : m.1 < first.1
    · rw [if_pos hlt]
    · rw [if_neg hlt, if_neg h.1]
      exact ((ih h.2).cons first).trans (.swap m first members)

/-- Where no name occurs twice, nothing but the order of the members changes. -/
theorem normalizeMembers_perm {members : List Member} (h : (members.map Prod.fst).Nodup) :
    (normalizeMembers members).Perm (members.map fun m => (m.1, m.2.normalize)) := by
  induction members with
  | nil => exact .refl _
  | cons m members ih =>
    rw [List.map_cons, List.nodup_cons] at h
    have hperm := ih h.2
    have hnew : (m.1, m.2.normalize).1 ∉ (normalizeMembers members).map Prod.fst := by
      rw [(hperm.map Prod.fst).mem_iff, List.map_map]
      exact h.1
    exact (insertMember_perm hnew).trans (hperm.cons _)

/-- Only null is normalized to null. -/
theorem normalize_eq_null_iff {j : Json} : j.normalize = .null ↔ j = .null := by
  cases j with
  | null => simp [normalize]
  | _ => simp [normalize]

end Json

open Json

/-- A list is read if and only if each element is. -/
theorem mapM_eq_some_iff {γ δ : Type} {read : γ → Option δ} {xs : List γ} {ys : List δ} :
    xs.mapM read = some ys ↔ List.Forall₂ (fun x y => read x = some y) xs ys := by
  induction xs generalizing ys with
  | nil =>
    rw [List.mapM_nil, List.forall₂_nil_left_iff]
    exact ⟨fun h => (Option.some.inj h).symm, fun h => congrArg some h.symm⟩
  | cons x xs ih =>
    rw [List.mapM_cons, List.forall₂_cons_left_iff]
    cases hx : read x with
    | none => simp
    | some y =>
      cases hxs : xs.mapM read with
      | none =>
        constructor
        · intro h
          cases h
        · rintro ⟨_, zs, _, hzs, _⟩
          rw [ih.mpr hzs] at hxs
          cases hxs
      | some zs =>
        have hzs := ih.mp hxs
        constructor
        · intro h
          obtain rfl := Option.some.inj h
          exact ⟨y, zs, rfl, hzs, rfl⟩
        · rintro ⟨_, zs', hy, hzs', rfl⟩
          obtain rfl := Option.some.inj hy
          rw [ih.mpr hzs'] at hxs
          obtain rfl := Option.some.inj hxs
          rfl

/-! ## Fields -/

namespace Fields

/-- What is read of a value agrees with what the fields were. -/
def Through (f : Fields α) (R : α → α → Prop) : Prop :=
  ∀ x, ∃ y, f.read (normalizeMembers (f.write x)) = some y ∧ R x y

variable {f : Fields α} {g : Fields β} {R : α → α → Prop} {S : β → β → Prop}

/-- Members of other keys may be left out before the sorting. -/
theorem read_normalize_filter {keys : List String} (h : f.keys ⊆ keys) (members : List Member) :
    f.read (normalizeMembers (members.filter fun m => m.1 ∈ keys)) =
      f.read (normalizeMembers members) := by
  rw [← filter_normalizeMembers fun name => decide (name ∈ keys)]
  exact f.read_filter_of_subset h _

/-- The fields write none of the other keys. -/
theorem filter_write_eq_nil {keys : List String} (h : ∀ name ∈ f.keys, name ∉ keys) (x : α) :
    (f.write x).filter (fun m => m.1 ∈ keys) = [] := by
  rw [List.filter_eq_nil_iff]
  intro m hm
  simpa using h m.1 (f.mem_keys hm)

/-- Fields of different names are read of one value as if each had its own. -/
theorem Through.prod (hf : f.Through R) (hg : g.Through S)
    (hkeys : ∀ name ∈ f.keys, name ∉ g.keys) :
    (f.prod g).Through fun x y => R x.1 y.1 ∧ S x.2 y.2 := by
  intro x
  obtain ⟨y, hy, hxy⟩ := hf x.1
  obtain ⟨z, hz, hxz⟩ := hg x.2
  have hleft : f.read (normalizeMembers (f.write x.1 ++ g.write x.2)) = some y := by
    rw [← read_normalize_filter (List.Subset.refl f.keys), List.filter_append,
      filter_write_eq_nil (fun name hname hmem => hkeys name hmem hname), List.append_nil,
      read_normalize_filter (List.Subset.refl f.keys), hy]
  have hright : g.read (normalizeMembers (f.write x.1 ++ g.write x.2)) = some z := by
    rw [← read_normalize_filter (List.Subset.refl g.keys), List.filter_append,
      filter_write_eq_nil hkeys, List.nil_append, read_normalize_filter (List.Subset.refl g.keys),
      hz]
  refine ⟨(y, z), ?_, hxy, hxz⟩
  unfold Fields.prod
  dsimp only
  rw [hleft, hright]

/-- Renamed fields go through the renamed relation. -/
theorem Through.equiv (hf : f.Through R) (e : α ≃ β) :
    (equiv e f).Through fun x y => R (e.symm x) (e.symm y) := by
  intro x
  obtain ⟨y, hy, hxy⟩ := hf (e.symm x)
  have hsymm : R (e.symm x) (e.symm (e y)) := by rwa [e.symm_apply_apply]
  refine ⟨e y, ?_, hsymm⟩
  show (f.read (normalizeMembers (f.write (e.symm x)))).map e = _
  rw [hy]
  rfl

/-- A weaker relation. -/
theorem Through.imp (hf : f.Through R) {R' : α → α → Prop} (h : ∀ x y, R x y → R' x y) :
    f.Through R' := by
  intro x
  obtain ⟨y, hy, hxy⟩ := hf x
  exact ⟨y, hy, h x y hxy⟩

/-- One check that no name is used twice serves a whole struct. -/
theorem Through.prod_eq (hf : f.Through Eq) (hg : g.keys.Nodup → g.Through Eq)
    (hkeys : (f.prod g).keys.Nodup) : (f.prod g).Through Eq := by
  obtain ⟨_, hnodup, hdisjoint⟩ := List.nodup_append.mp hkeys
  refine (hf.prod (hg hnodup) fun name hname hmem => hdisjoint name hname name hmem rfl).imp ?_
  exact fun x y hxy => Prod.ext hxy.1 hxy.2

/-- Renamed fields go through unchanged. -/
theorem Through.equiv_eq (hf : f.Through Eq) (e : α ≃ β) : (Fields.equiv e f).Through Eq :=
  (hf.equiv e).imp fun _ _ hxy => e.symm.injective hxy

end Fields

/-! ## Formats -/

namespace Format

/-- What is read of a value agrees with what was made a value. -/
def Through (f : Format α) (R : α → α → Prop) : Prop :=
  ∀ x, ∃ y, f.deserialize (f.serialize x).normalize = some y ∧ R x y

variable {f : Format α} {R : α → α → Prop}

/-- A weaker relation. -/
theorem Through.imp (hf : f.Through R) {R' : α → α → Prop} (h : ∀ x y, R x y → R' x y) :
    f.Through R' := by
  intro x
  obtain ⟨y, hy, hxy⟩ := hf x
  exact ⟨y, hy, h x y hxy⟩

/-- What is written without an object is read as from the document. -/
theorem RoundTrips.through (h : f.RoundTrips)
    (hflat : ∀ x, (f.serialize x).normalize = f.serialize x) : f.Through Eq := by
  intro x
  refine ⟨x, ?_, rfl⟩
  rw [hflat]
  exact h x

/-- `bool`. -/
def bool : Format Bool where
  serialize b := .bool b
  deserialize
    | .bool b => some b
    | _ => none

/-- A type that is written as a text. -/
def text (toText : α → String) (ofText : String → Option α) : Format α where
  serialize x := .str (toText x)
  deserialize
    | .str s => ofText s
    | _ => none

/-- A truth value goes through unchanged. -/
theorem bool_through : bool.Through Eq := fun b => ⟨b, rfl, rfl⟩

/-- A text that is parsed goes through as its parser has it. -/
theorem text_through {toText : α → String} {ofText : String → Option α}
    (h : ∀ x, ∃ y, ofText (toText x) = some y ∧ R x y) : (text toText ofText).Through R :=
  fun x => h x

/-- A text goes through unchanged. -/
theorem string_through : string.Through Eq := string_roundTrips.through fun _ => rfl

/-- A number goes through unchanged. -/
theorem unsigned_through {size : Nat} {toNat : α → Nat} {ofNat : Nat → α}
    (h : (unsigned size toNat ofNat).RoundTrips) : (unsigned size toNat ofNat).Through Eq :=
  h.through fun _ => rfl

/-- An enum with its tag outside goes through unchanged. -/
theorem external_through {variant : α → String} {content : α → Option Json}
    {read : String → Option Json → Option α}
    (h : ∀ x, read (variant x) ((content x).map normalize) = some x) :
    (external variant content read).Through Eq := by
  intro x
  refine ⟨x, ?_, rfl⟩
  have hx := h x
  unfold external
  dsimp only
  cases hcontent : content x with
  | none =>
    rw [hcontent] at hx
    exact hx
  | some j =>
    rw [hcontent] at hx
    exact hx

/-- So does an enum without contents. -/
theorem unitEnum_through {variant : α → String} {ofVariant : String → Option α}
    (h : ∀ x, ofVariant (variant x) = some x) : (unitEnum variant ofVariant).Through Eq :=
  external_through fun x => h x

/-- A variant is read if its fields are. -/
theorem tagged_through {tag : String} {variant : α → String} {write : α → List Member}
    {read : String → List Member → Option α} (htag : ∀ x, ∀ m ∈ write x, m.1 ≠ tag)
    (h : ∀ x, ∃ y, read (variant x) (normalizeMembers (write x)) = some y ∧ R x y) :
    (tagged tag variant write read).Through R := by
  intro x
  obtain ⟨y, hy, hxy⟩ := h x
  refine ⟨y, ?_, hxy⟩
  let members := (tag, Json.str (variant x)) :: write x
  have hothers : (write x).filter (fun m => decide (m.1 = tag)) = [] := by
    rw [List.filter_eq_nil_iff]
    intro m hm
    simpa using htag x m hm
  have hnamed : named tag (normalizeMembers members) = [.str (variant x)] := by
    unfold named
    rw [filter_normalizeMembers (fun name => decide (name = tag)) members,
      List.filter_cons_of_pos (by simp), hothers]
    rfl
  have hrest : (normalizeMembers members).filter (fun m => m.1 ≠ tag) =
      normalizeMembers (write x) := by
    rw [filter_normalizeMembers (fun name => decide (name ≠ tag)) members,
      List.filter_cons_of_neg (by simp)]
    congr 1
    rw [List.filter_eq_self]
    intro m hm
    simpa using htag x m hm
  have hwritten : ((tagged tag variant write read).serialize x).normalize =
      .obj (normalizeMembers members) := rfl
  rw [hwritten]
  unfold tagged
  dsimp only
  rw [hnamed, hrest]
  exact hy

/-- An optional value goes through. -/
theorem Through.option (hf : f.Through R) (hnull : f.NeverNull) :
    f.option.Through (Option.Rel R) := by
  intro x
  cases x with
  | none => exact ⟨none, rfl, .none⟩
  | some x =>
    obtain ⟨y, hy, hxy⟩ := hf x
    refine ⟨some y, ?_, .some hxy⟩
    have hserialize : f.option.serialize (some x) = f.serialize x := rfl
    rw [hserialize]
    have hwritten : (f.serialize x).normalize ≠ .null := fun h =>
      hnull x (normalize_eq_null_iff.mp h)
    cases hj : (f.serialize x).normalize with
    | null => exact absurd hj hwritten
    | _ =>
      rw [hj] at hy
      exact congrArg (Option.map some) hy

/-- The elements of an array go through one by one. -/
theorem items_through (hf : f.Through R) (xs : List α) :
    ∃ ys, (normalizeItems (xs.map f.serialize)).mapM f.deserialize = some ys ∧
      List.Forall₂ R xs ys := by
  induction xs with
  | nil => exact ⟨[], rfl, .nil⟩
  | cons x xs ih =>
    obtain ⟨y, hy, hxy⟩ := hf x
    obtain ⟨ys, hys, hrel⟩ := ih
    refine ⟨y :: ys, ?_, .cons hxy hrel⟩
    rw [mapM_eq_some_iff] at hys ⊢
    exact .cons hy hys

/-- A list goes through. -/
theorem Through.list (hf : f.Through R) : f.list.Through (List.Forall₂ R) :=
  fun xs => items_through hf xs

/-- Optional values related by equality are equal. -/
theorem eq_of_rel_eq {x y : Option α} (h : Option.Rel Eq x y) : x = y := by
  cases h with
  | some h => exact congrArg some h
  | none => rfl

/-- An optional value goes through unchanged. -/
theorem Through.option_eq (hf : f.Through Eq) (hnull : f.NeverNull) : f.option.Through Eq :=
  (hf.option hnull).imp fun _ _ hxy => eq_of_rel_eq hxy

/-- A list goes through unchanged. -/
theorem Through.list_eq (hf : f.Through Eq) : f.list.Through Eq :=
  hf.list.imp fun _ _ hxy => List.forall₂_eq_eq_eq ▸ hxy

/-- Maps that answer every lookup alike. -/
def SameLookups (R : α → α → Prop) (m m' : AList fun _ : String => α) : Prop :=
  ∀ key, Option.Rel R (m.lookup key) (m'.lookup key)

/-- Maps of equal values have equal lookups. -/
theorem SameLookups.lookup_eq {m m' : AList fun _ : String => α} (h : SameLookups Eq m m')
    (key : String) : m'.lookup key = m.lookup key := (eq_of_rel_eq (h key)).symm

/-- Entries that correspond are found at the same key. -/
theorem dlookup_forall₂ {entries entries' : List (Σ _ : String, α)}
    (h : List.Forall₂ (fun e e' => e'.1 = e.1 ∧ R e.2 e'.2) entries entries') (key : String) :
    Option.Rel R (entries.dlookup key) (entries'.dlookup key) := by
  induction h with
  | nil => exact .none
  | @cons e e' entries entries' hrel _ ih =>
    obtain ⟨name, x⟩ := e
    obtain ⟨name', y⟩ := e'
    obtain ⟨rfl, hxy⟩ := hrel
    by_cases hkey : key = name'
    · subst hkey
      rw [List.dlookup_cons_eq, List.dlookup_cons_eq]
      exact .some hxy
    · rw [List.dlookup_cons_ne _ _ hkey, List.dlookup_cons_ne _ _ hkey]
      exact ih

/-- Entries that correspond have the same keys. -/
theorem keys_forall₂ {entries entries' : List (Σ _ : String, α)}
    (h : List.Forall₂ (fun e e' => e'.1 = e.1 ∧ R e.2 e'.2) entries entries') :
    entries'.keys = entries.keys := by
  induction h with
  | nil => rfl
  | cons h _ ih => exact congrArg₂ List.cons h.1 ih

/-- A map goes through with its lookups. -/
theorem Through.map (hf : f.Through R) : f.map.Through (SameLookups R) := by
  intro m
  let write := fun entry : Σ _ : String, α => (entry.1, f.serialize entry.2)
  let read := fun m : Member =>
    (f.deserialize m.2).map fun x => (⟨m.1, x⟩ : Σ _ : String, α)
  have hnames : ((m.entries.map write).map Prod.fst).Nodup := by
    rw [List.map_map]
    exact m.nodupKeys
  -- entry by entry, before they are put in order
  have hentries : ∀ entries : List (Σ _ : String, α), ∃ entries',
      List.Forall₂ (fun m e => read m = some e)
        ((entries.map write).map fun m => (m.1, m.2.normalize)) entries' ∧
      List.Forall₂ (fun e e' => e'.1 = e.1 ∧ R e.2 e'.2) entries entries' := by
    intro entries
    induction entries with
    | nil => exact ⟨[], .nil, .nil⟩
    | cons entry entries ih =>
      obtain ⟨y, hy, hxy⟩ := hf entry.2
      obtain ⟨entries', hread, hrel⟩ := ih
      refine ⟨⟨entry.1, y⟩ :: entries', .cons ?_ hread, .cons ⟨rfl, hxy⟩ hrel⟩
      exact congrArg (Option.map fun x => (⟨entry.1, x⟩ : Σ _ : String, α)) hy
  obtain ⟨entries', hread, hrel⟩ := hentries m.entries
  obtain ⟨sorted, hsorted, hperm⟩ :=
    List.perm_comp_forall₂ (normalizeMembers_perm hnames) hread
  have hkeys : entries'.keys = m.entries.keys := keys_forall₂ hrel
  have hnodup : sorted.NodupKeys := by
    rw [List.perm_nodupKeys hperm, List.NodupKeys, hkeys]
    exact m.nodupKeys
  refine ⟨⟨sorted, hnodup⟩, ?_, ?_⟩
  · show Option.map ofEntries ((normalizeMembers (m.entries.map write)).mapM read) = _
    rw [mapM_eq_some_iff.mpr hsorted, Option.map_some]
    exact congrArg some (ofEntries_entries ⟨sorted, hnodup⟩)
  · intro key
    show Option.Rel R (m.entries.dlookup key) (sorted.dlookup key)
    rw [List.perm_dlookup key hnodup hperm]
    exact dlookup_forall₂ hrel key

end Format

namespace Fields

variable {h : Format α} {R : α → α → Prop}

/-- A field goes through. -/
theorem field_through (hh : h.Through R) (name : String) (missing : Option α) :
    (field name h missing).Through R := by
  intro x
  obtain ⟨y, hy, hxy⟩ := hh x
  refine ⟨y, ?_, hxy⟩
  have hnamed : named name (normalizeMembers [(name, h.serialize x)]) =
      [(h.serialize x).normalize] := by
    simp [named, normalizeMembers, insertMember]
  unfold field
  dsimp only
  rw [hnamed]
  exact hy

/-- An object goes through. -/
theorem Through.object {f : Fields α} (hf : f.Through R) : f.object.Through R :=
  fun x => hf x

end Fields

end GraphHarness.Serde
