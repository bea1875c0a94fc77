import GraphHarness.ServiceRegistry.Registration
import GraphHarness.Trace.Latest

/-!
# Lookup and listing (`registry.rs`, `backend/sled.rs`)

A registry on a services tree of any content: values an older version has written and
this one cannot read, keys that are no names, entries under a name that is not theirs.
`get` reads one record; `list` and `list_endpoints` read all of them, and are empty as
soon as one of them cannot be read.

> `agrees_iff`: what can be looked up is listed exactly if every record can be read and
> the last one of each name has its endpoints, or if nothing can be looked up at all.
> `agrees_iff_of_ownKeys`: with every entry under its own name, if all records can be
> read or none.

The content of the tree is arbitrary here: `SledBackend` without the invariant of `SledStore`.
`decoded` is what one record is read as. Since `list_endpoints` collects into a map by the
entries' own names, of two entries with one name the later one counts (`lastEndpoints`).
-/

namespace GraphHarness.ServiceRegistry

open Trace (latest latest_eq_none_iff lookup_insert_eq_or read_foldl)

variable {serde : Serde}

instance : RegistryBackend (SledBackend serde) where
  putService := SledBackend.putService
  getService := SledBackend.getService
  listServices := SledBackend.listServices
  removeService := SledBackend.removeService

namespace SledBackend

/-- The entry of a record, if it can be read. -/
def decoded (serde : Serde) (pair : Σ _ : ByteArray, ByteArray) : Option ServiceEntry :=
  (serde.fromSlice pair.2).toOption

variable {pair : Σ _ : ByteArray, ByteArray} {entry : ServiceEntry}

/-- What is decoded is what is read. -/
theorem decoded_eq_some_iff :
    decoded serde pair = some entry ↔ fromSlice serde pair.2 = .ok entry := by
  unfold decoded fromSlice
  cases serde.fromSlice pair.2 with
  | error e => simp [Except.toOption]
  | ok other => simp [Except.toOption]

/-- What was written is decoded. -/
theorem decoded_toVec (key : ByteArray) (entry : ServiceEntry) :
    decoded serde ⟨key, serde.toVec entry⟩ = some entry := by
  rw [decoded, serde.fromSlice_toVec]
  rfl

/-- The loop reads every record or it ends with an error. -/
theorem readAll_cases (pairs : List (Σ _ : ByteArray, ByteArray)) :
    ((∀ pair ∈ pairs, decoded serde pair ≠ none) ∧
        readAll serde pairs = .ok (pairs.filterMap (decoded serde))) ∨
      ((∃ pair ∈ pairs, decoded serde pair = none) ∧ ∃ e, readAll serde pairs = .error e) := by
  induction pairs with
  | nil => exact .inl ⟨by simp, rfl⟩
  | cons pair pairs ih =>
    rw [readAll]
    cases hpair : fromSlice serde pair.2 with
    | error e =>
      have hnone : decoded serde pair = none := by
        rw [Option.eq_none_iff_forall_ne_some]
        intro entry hentry
        rw [decoded_eq_some_iff, hpair] at hentry
        simp at hentry
      exact .inr ⟨⟨pair, List.mem_cons_self .., hnone⟩, e, rfl⟩
    | ok entry =>
      have hentry : decoded serde pair = some entry := decoded_eq_some_iff.mpr hpair
      rcases ih with ⟨hall, hread⟩ | ⟨⟨bad, hbad, hnone⟩, e, hread⟩
      · left
        refine ⟨?_, by simp [hread, hentry, Except.map]⟩
        intro p hp
        rcases List.mem_cons.mp hp with rfl | hp
        · simp [hentry]
        · exact hall p hp
      · exact .inr ⟨⟨bad, List.mem_cons_of_mem _ hbad, hnone⟩, e, by rw [hread]; rfl⟩

/-- A record under a name, that reads as the entry. -/
def Holds (backend : SledBackend serde) (name : String) (entry : ServiceEntry) : Prop :=
  ∃ value, backend.services.lookup (asBytes name) = some value ∧
    decoded serde ⟨asBytes name, value⟩ = some entry

/-- Every record of the tree can be read. -/
def Readable (backend : SledBackend serde) : Prop :=
  ∀ pair ∈ backend.services.entries, decoded serde pair ≠ none

/-- The endpoints of the last record of the tree whose entry has the name. -/
def lastEndpoints (backend : SledBackend serde) (name : String) : Option (List Endpoint) :=
  latest (fun pair => (decoded serde pair).bind fun entry =>
    if entry.name = name then some entry.endpoints else none) backend.services.entries

/-- Every record that can be read is stored under the name of its entry. -/
def OwnKeys (backend : SledBackend serde) : Prop :=
  ∀ pair ∈ backend.services.entries, ∀ entry, decoded serde pair = some entry →
    pair.1 = asBytes entry.name

variable {backend : SledBackend serde} {name : String}

/-- What is held is among the entries. -/
theorem Holds.mem (h : backend.Holds name entry) :
    ∃ pair ∈ backend.services.entries, decoded serde pair = some entry := by
  obtain ⟨value, hlookup, hentry⟩ := h
  exact ⟨_, AList.mem_lookup_iff.mp hlookup, hentry⟩

/-- With own keys the records of one name are one record. -/
theorem OwnKeys.lastEndpoints (hown : backend.OwnKeys) (h : backend.Holds name entry) :
    backend.lastEndpoints entry.name = some entry.endpoints := by
  obtain ⟨pair, hpair, hentry⟩ := h.mem
  have hwrites : ∀ other ∈ backend.services.entries, ∀ endpoints,
      ((decoded serde other).bind fun e => if e.name = entry.name then some e.endpoints else none)
        = some endpoints → endpoints = entry.endpoints := by
    intro other hother endpoints hendpoints
    obtain ⟨e, he, hif⟩ := Option.bind_eq_some_iff.mp hendpoints
    obtain ⟨hname, rfl⟩ : e.name = entry.name ∧ e.endpoints = endpoints := by simpa using hif
    -- equal names are equal keys, and the keys of the tree are distinct
    have hkey : other.1 = pair.1 := by
      rw [hown other hother e he, hown pair hpair entry hentry, hname]
    have hsame : other = pair := backend.services.nodupKeys.eq_of_fst_eq hother hpair hkey
    rw [hsame, hentry] at he
    rw [Option.some.inj he]
  cases hlast : backend.lastEndpoints entry.name with
  | none =>
    have hnone := latest_eq_none_iff.mp hlast pair hpair
    simp [hentry] at hnone
  | some endpoints =>
    obtain ⟨other, hother, hwrite⟩ := List.mem_filterMap.mp (List.mem_of_getLast? hlast)
    rw [hwrites other hother endpoints hwrite]

end SledBackend

open SledBackend (asBytes decoded)

namespace Registry

/-- What `get` finds is in `list`, and its endpoints are in `list_endpoints`. -/
def Agrees (registry : Registry (SledBackend serde)) : Prop :=
  ∀ name entry, registry.get Faults.none name = .ok entry →
    entry ∈ registry.list Faults.none ∧
      (registry.listEndpoints Faults.none).lookup entry.name = some entry.endpoints

variable {registry : Registry (SledBackend serde)} {name : String} {entry : ServiceEntry}

/-- What is got is what is held. -/
theorem get_eq_ok_iff :
    registry.get Faults.none name = .ok entry ↔ registry.backend.Holds name entry := by
  unfold get SledBackend.Holds
  rw [show getService registry.backend Faults.none name =
    registry.backend.getService Faults.none name from rfl]
  unfold SledBackend.getService
  cases hlookup : registry.backend.services.lookup (asBytes name) with
  | none => simp [Faults.none]
  | some value =>
    cases hvalue : SledBackend.fromSlice serde value with
    | error e => simp [Faults.none, hvalue, Except.map, SledBackend.decoded_eq_some_iff]
    | ok other => simp [Faults.none, hvalue, Except.map, SledBackend.decoded_eq_some_iff]

/-- The list reads all entries. -/
theorem listServices_eq : listServices registry.backend Faults.none =
    SledBackend.readAll serde registry.backend.services.entries := rfl

/-- One record that cannot be read, and nothing is listed. -/
theorem list_of_unreadable (h : ¬ registry.backend.Readable) :
    registry.list Faults.none = [] := by
  rcases @SledBackend.readAll_cases serde registry.backend.services.entries with
    ⟨hall, _⟩ | ⟨_, e, hread⟩
  · exact absurd hall h
  · rw [list, listServices_eq, hread]

section Readable

variable (h : registry.backend.Readable)
include h

/-- If all can be read, all are listed. -/
theorem listServices_of_readable : listServices registry.backend Faults.none =
    .ok (registry.backend.services.entries.filterMap (decoded serde)) := by
  rw [listServices_eq]
  rcases @SledBackend.readAll_cases serde registry.backend.services.entries with
    ⟨_, hread⟩ | ⟨⟨bad, hbad, hnone⟩, _⟩
  · exact hread
  · exact absurd hnone (h bad hbad)

/-- An entry is listed if it is stored under any key. -/
theorem mem_list_of_readable : entry ∈ registry.list Faults.none ↔
    ∃ pair ∈ registry.backend.services.entries, decoded serde pair = some entry := by
  rw [list, listServices_of_readable h]
  exact List.mem_filterMap

/-- A later entry of a name replaces the endpoints of an earlier one. -/
theorem lookup_listEndpoints_of_readable (name : String) :
    (registry.listEndpoints Faults.none).lookup name = registry.backend.lastEndpoints name := by
  have hfold := read_foldl
    (fun (endpoints : HashMap String (List Endpoint)) service =>
      endpoints.insert service.name service.endpoints)
    (fun endpoints => endpoints.lookup name)
    (fun endpoints service => lookup_insert_eq_or service.name name service.endpoints endpoints)
    (registry.backend.services.entries.filterMap (decoded serde)) ∅
  rw [listEndpoints, listServices_of_readable h]
  refine hfold.trans ?_
  rw [AList.lookup_empty, Option.or_none]
  simp [latest, SledBackend.lastEndpoints, List.filterMap_filterMap]

/-- The registry agrees if and only if the entries have the endpoints stored last. -/
theorem agrees_iff_of_readable : registry.Agrees ↔
    ∀ name entry, registry.backend.Holds name entry →
      registry.backend.lastEndpoints entry.name = some entry.endpoints := by
  constructor
  · intro hagrees name entry hholds
    rw [← lookup_listEndpoints_of_readable h]
    exact (hagrees name entry (get_eq_ok_iff.mpr hholds)).2
  · intro hlast name entry hget
    have hholds := get_eq_ok_iff.mp hget
    rw [mem_list_of_readable h, lookup_listEndpoints_of_readable h]
    exact ⟨hholds.mem, hlast name entry hholds⟩

end Readable

/-- A registry that holds nothing agrees. -/
theorem agrees_of_nothing_held (h : ∀ name entry, ¬ registry.backend.Holds name entry) :
    registry.Agrees := by
  intro name entry hget
  exact absurd (get_eq_ok_iff.mp hget) (h name entry)

/-- One record that cannot be read hides one that can. -/
theorem not_agrees_of_unreadable (h : ¬ registry.backend.Readable)
    (hholds : registry.backend.Holds name entry) : ¬ registry.Agrees := by
  intro hagrees
  have hmem := (hagrees name entry (get_eq_ok_iff.mpr hholds)).1
  rw [list_of_unreadable h] at hmem
  simp at hmem

/-- **Lookup and listing agree exactly if nothing can be looked up, or every record can
be read and the last one of each name has the endpoints that are looked up.** -/
theorem agrees_iff (registry : Registry (SledBackend serde)) :
    registry.Agrees ↔
      (∀ name entry, ¬ registry.backend.Holds name entry) ∨
        registry.backend.Readable ∧ ∀ name entry, registry.backend.Holds name entry →
          registry.backend.lastEndpoints entry.name = some entry.endpoints := by
  constructor
  · intro hagrees
    by_cases hnone : ∀ name entry, ¬ registry.backend.Holds name entry
    · exact .inl hnone
    · push Not at hnone
      obtain ⟨name, entry, hholds⟩ := hnone
      have hreadable : registry.backend.Readable := by
        by_contra hbad
        exact not_agrees_of_unreadable hbad hholds hagrees
      exact .inr ⟨hreadable, (agrees_iff_of_readable hreadable).mp hagrees⟩
  · intro h
    rcases h with hnone | ⟨hreadable, hlast⟩
    · exact agrees_of_nothing_held hnone
    · exact (agrees_iff_of_readable hreadable).mpr hlast

/-- In a tree with every entry under its own name, one bad record is what breaks it. -/
theorem agrees_iff_of_ownKeys (hown : registry.backend.OwnKeys) :
    registry.Agrees ↔
      registry.backend.Readable ∨ ∀ name entry, ¬ registry.backend.Holds name entry := by
  constructor
  · intro hagrees
    by_contra hbad
    push Not at hbad
    obtain ⟨hunreadable, name, entry, hholds⟩ := hbad
    exact not_agrees_of_unreadable hunreadable hholds hagrees
  · intro h
    rcases h with hreadable | hnone
    · rw [agrees_iff_of_readable hreadable]
      intro name entry hholds
      exact hown.lastEndpoints hholds
    · exact agrees_of_nothing_held hnone

end Registry

/-- A serializer with a brace in front, so that other text cannot be read. -/
def Serde.braced (inner : Serde) : Serde where
  toVec entry := ⟨(0x7B :: (inner.toVec entry).data.toList).toArray⟩
  fromSlice bytes :=
    match bytes.data.toList with
    | 0x7B :: rest => inner.fromSlice ⟨rest.toArray⟩
    | _ => .error "expected value at line 1 column 1"
  fromSlice_toVec := by
    intro entry
    simp only [Array.toArray_toList]
    exact inner.fromSlice_toVec entry

namespace Registry

/-- The tree of a daemon that has stored `web`, on a database where an older version
has left a text. -/
def upgraded : Registry (SledBackend (Serde.braced Serde.numbered)) :=
  withBackend ⟨((∅ : HashMap ByteArray ByteArray).insert (asBytes "api") "v0".toByteArray).insert
    (asBytes "web") ((Serde.braced Serde.numbered).toVec (webEntry "1.0.0"))⟩

/-- A store that an older format was left in. -/
theorem upgraded_not_agrees : ¬ upgraded.Agrees := by
  have hkeys : asBytes "api" ≠ asBytes "web" := by
    rw [ne_eq, SledBackend.asBytes_inj]
    decide
  have hholds : upgraded.backend.Holds "web" (webEntry "1.0.0") := by
    refine ⟨(Serde.braced Serde.numbered).toVec (webEntry "1.0.0"), ?_, ?_⟩
    · rw [upgraded, withBackend, AList.lookup_insert]
    · exact SledBackend.decoded_toVec _ _
  have hunreadable : ¬ upgraded.backend.Readable := by
    intro h
    refine h ⟨asBytes "api", "v0".toByteArray⟩ (AList.mem_lookup_iff.mp ?_) rfl
    rw [upgraded, withBackend, AList.lookup_insert_ne hkeys, AList.lookup_insert]
    rfl
  exact not_agrees_of_unreadable hunreadable hholds

end Registry

end GraphHarness.ServiceRegistry
