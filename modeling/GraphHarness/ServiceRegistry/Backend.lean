import GraphHarness.ServiceRegistry.Models
import Mathlib.Logic.Function.Basic

/-!
# Storage backends (`service-registry/src/backend/mod.rs`, `backend/sled.rs`)

The part of the `RegistryBackend` trait the registry uses, what makes a backend a map
from names to entries, and the sled backend. sled itself is a map from byte keys to
byte values; `Serde` is `serde_json` on an entry. Which calls to the storage fail is
told from outside.

`LawfulBackend` has the laws of a backend in terms of its `entries`, and everything about the
registry is proved from these laws. A call that fails has either changed nothing or done what
it was asked to do, since a write can be in the tree when its flush fails. `SledStore` is the
sled backend as a subtype, of trees that hold each entry under its name; it is what examples
and the results about sled itself use.

The tree is an association list over the bytes of a name, in the order of its entries. Trees
are per backend, and nothing else writes to them.
-/

namespace GraphHarness.ServiceRegistry

/-- The storage calls of one operation that fail, with the message of the error. No
operation makes the same call twice. -/
structure Faults where
  get : Option String
  insert : Option String
  remove : Option String
  flush : Option String
  iter : Option String
  deriving DecidableEq, Repr

/-- The storage does not fail. -/
def Faults.none : Faults := ⟨.none, .none, .none, .none, .none⟩

/-- `RegistryBackend`, over the state of the backend. A call that fails can have had
its effect: the error may come from the flush. -/
class RegistryBackend (σ : Type) where
  putService : σ → Faults → ServiceEntry → σ × Except Error Unit
  getService : σ → Faults → String → Except Error (Option ServiceEntry)
  listServices : σ → Faults → Except Error (List ServiceEntry)
  removeService : σ → Faults → String → σ × Except Error (Option ServiceEntry)

export RegistryBackend (putService getService listServices removeService)

/-- A backend that stores entries under their names. `entries` is what it holds. -/
class LawfulBackend (σ : Type) [RegistryBackend σ] where
  entries : σ → String → Option ServiceEntry
  name_of_entries : ∀ {backend : σ} {name entry}, entries backend name = some entry →
    entry.name = name
  get_none : ∀ (backend : σ) name, getService backend Faults.none name = .ok (entries backend name)
  get_ok : ∀ {backend : σ} {faults name found}, getService backend faults name = .ok found →
    found = entries backend name
  put_none : ∀ (backend : σ) entry, (putService backend Faults.none entry).2 = .ok ()
  put_ok : ∀ {backend : σ} {faults entry}, (putService backend faults entry).2 = .ok () →
    entries (putService backend faults entry).1 =
      Function.update (entries backend) entry.name (some entry)
  put_cases : ∀ (backend : σ) faults entry,
    entries (putService backend faults entry).1 = entries backend ∨
      entries (putService backend faults entry).1 =
        Function.update (entries backend) entry.name (some entry)
  remove_result : ∀ (backend : σ) name,
    (removeService backend Faults.none name).2 = .ok (entries backend name)
  remove_entries : ∀ (backend : σ) name,
    entries (removeService backend Faults.none name).1 =
      Function.update (entries backend) name none
  remove_absent : ∀ {backend : σ} {name}, entries backend name = none →
    (removeService backend Faults.none name).1 = backend
  list_none : ∀ backend : σ, ∃ services, listServices backend Faults.none = .ok services ∧
    (services.map ServiceEntry.name).Nodup ∧
      ∀ entry, entry ∈ services ↔ entries backend entry.name = some entry

export LawfulBackend (entries)

/-- `serde_json` on an entry: what was written is read back. It is so for entries whose addresses
have no IPv6 flow label. The text of an address has none (`SocketAddr.withoutFlow`), so the
entries of a tree stand for entries without one. -/
structure Serde where
  toVec : ServiceEntry → ByteArray
  fromSlice : ByteArray → Except String ServiceEntry
  fromSlice_toVec : ∀ entry, fromSlice (toVec entry) = .ok entry

/-- Keys are compared as byte arrays. -/
instance (priority := 2000) decidableEqKey : DecidableEq ByteArray :=
  ByteArray.instDecidableEq

/-- The services tree. -/
structure SledBackend (serde : Serde) where
  services : HashMap ByteArray ByteArray

namespace SledBackend

variable {serde : Serde}

/-- A new database. -/
def empty : SledBackend serde := ⟨∅⟩

/-- `String::as_bytes`. -/
def asBytes (name : String) : ByteArray := name.toByteArray

/-- `put_service`. -/
def putService (backend : SledBackend serde) (faults : Faults) (entry : ServiceEntry) :
    SledBackend serde × Except Error Unit :=
  let value := serde.toVec entry
  match faults.insert with
  | some e => (backend, .error (.database e))
  | none =>
    let backend : SledBackend serde := ⟨backend.services.insert (asBytes entry.name) value⟩
    match faults.flush with
    | some e => (backend, .error (.database e))
    | none => (backend, .ok ())

/-- `serde_json::from_slice`, its error converted by `?`. -/
def fromSlice (serde : Serde) (value : ByteArray) : Except Error ServiceEntry :=
  match serde.fromSlice value with
  | .ok entry => .ok entry
  | .error e => .error (.json e)

/-- `get_service`. -/
def getService (backend : SledBackend serde) (faults : Faults) (name : String) :
    Except Error (Option ServiceEntry) :=
  match faults.get with
  | some e => .error (.database e)
  | none =>
    match backend.services.lookup (asBytes name) with
    | some value => (fromSlice serde value).map some
    | none => .ok none

/-- The loop over the tree, which ends at the first value that cannot be read. The
order is that of the stored pairs, and nothing is said about it. -/
def readAll (serde : Serde) : List (Σ _ : ByteArray, ByteArray) → Except Error (List ServiceEntry)
  | [] => .ok []
  | pair :: pairs =>
    match fromSlice serde pair.2 with
    | .error e => .error e
    | .ok entry => (readAll serde pairs).map (entry :: ·)

/-- `list_services`. One entry that cannot be read fails the list. -/
def listServices (backend : SledBackend serde) (faults : Faults) :
    Except Error (List ServiceEntry) :=
  match faults.iter with
  | some e => .error (.database e)
  | none => readAll serde backend.services.entries

/-- `remove_service`. The entry is read first, and removed if there is one. -/
def removeService (backend : SledBackend serde) (faults : Faults) (name : String) :
    SledBackend serde × Except Error (Option ServiceEntry) :=
  match backend.getService faults name with
  | .error e => (backend, .error e)
  | .ok none => (backend, .ok none)
  | .ok (some existing) =>
    match faults.remove with
    | some e => (backend, .error (.database e))
    | none =>
      let backend : SledBackend serde := ⟨backend.services.erase (asBytes name)⟩
      match faults.flush with
      | some e => (backend, .error (.database e))
      | none => (backend, .ok (some existing))

/-- Every stored value is that of an entry, under the bytes of its name. -/
def WellFormed (backend : SledBackend serde) : Prop :=
  ∀ key value, backend.services.lookup key = some value →
    ∃ entry, serde.fromSlice value = .ok entry ∧ key = asBytes entry.name

/-- The entry that is read under a name. -/
def find (backend : SledBackend serde) (name : String) : Option ServiceEntry :=
  match backend.services.lookup (asBytes name) with
  | some value => (serde.fromSlice value).toOption
  | none => none

/-- What a write leaves behind, and what a removal does. -/
def store (backend : SledBackend serde) (entry : ServiceEntry) : SledBackend serde :=
  ⟨backend.services.insert (asBytes entry.name) (serde.toVec entry)⟩

/-- The store without a name. -/
def erase (backend : SledBackend serde) (name : String) : SledBackend serde :=
  ⟨backend.services.erase (asBytes name)⟩

/-- Two names have two keys. -/
theorem asBytes_inj {s t : String} : asBytes s = asBytes t ↔ s = t := String.toByteArray_inj

/-- A write that fails has stored the entry or it has not. -/
theorem putService_cases (backend : SledBackend serde) (faults : Faults) (entry : ServiceEntry) :
    (∃ e, backend.putService faults entry = (backend, .error e)) ∨
      ∃ result, backend.putService faults entry = (backend.store entry, result) := by
  unfold putService
  split
  next e _ => exact .inl ⟨_, rfl⟩
  next =>
    dsimp only
    split
    next => exact .inr ⟨_, rfl⟩
    next => exact .inr ⟨_, rfl⟩

/-- A removal erases the name, or does nothing. -/
theorem removeService_cases (backend : SledBackend serde) (faults : Faults) (name : String) :
    (backend.removeService faults name).1 = backend ∨
      (backend.removeService faults name).1 = backend.erase name := by
  unfold removeService
  split
  next => exact .inl rfl
  next => exact .inl rfl
  next =>
    split
    next => exact .inl rfl
    next =>
      dsimp only
      split
      next => exact .inr rfl
      next => exact .inr rfl

/-- What is found after a store. -/
theorem find_store (backend : SledBackend serde) (entry : ServiceEntry) :
    (backend.store entry).find = Function.update backend.find entry.name (some entry) := by
  funext name
  unfold find store
  by_cases hname : name = entry.name
  · subst hname
    simp [serde.fromSlice_toVec, Except.toOption]
  · have hkey : asBytes name ≠ asBytes entry.name := fun he => hname (asBytes_inj.mp he)
    rw [Function.update_of_ne hname, AList.lookup_insert_ne hkey]

/-- What is found after a removal. -/
theorem find_erase (backend : SledBackend serde) (name : String) :
    (backend.erase name).find = Function.update backend.find name none := by
  funext other
  unfold find erase
  by_cases hname : other = name
  · subst hname
    simp
  · have hkey : asBytes other ≠ asBytes name := fun he => hname (asBytes_inj.mp he)
    rw [Function.update_of_ne hname, AList.lookup_erase_ne hkey]

/-- An empty store is well formed. -/
theorem wellFormed_empty : (empty : SledBackend serde).WellFormed := by
  intro key value h
  simp [empty] at h

/-- A store keeps that. -/
theorem wellFormed_store {backend : SledBackend serde} (h : backend.WellFormed)
    (entry : ServiceEntry) : (backend.store entry).WellFormed := by
  intro key value hlookup
  by_cases hkey : key = asBytes entry.name
  · subst hkey
    rw [store, AList.lookup_insert, Option.some.injEq] at hlookup
    exact ⟨entry, hlookup ▸ serde.fromSlice_toVec entry, rfl⟩
  · rw [store, AList.lookup_insert_ne hkey] at hlookup
    exact h key value hlookup

/-- So does a removal. -/
theorem wellFormed_erase {backend : SledBackend serde} (h : backend.WellFormed) (name : String) :
    (backend.erase name).WellFormed := by
  intro key value hlookup
  by_cases hkey : key = asBytes name
  · subst hkey
    simp [erase] at hlookup
  · rw [erase, AList.lookup_erase_ne hkey] at hlookup
    exact h key value hlookup

/-- So does a request to store, whether it fails or not. -/
theorem wellFormed_putService {backend : SledBackend serde} (h : backend.WellFormed)
    (faults : Faults) (entry : ServiceEntry) : (backend.putService faults entry).1.WellFormed := by
  rcases backend.putService_cases faults entry with ⟨e, hput⟩ | ⟨result, hput⟩
  · rw [hput]
    exact h
  · rw [hput]
    exact wellFormed_store h entry

/-- So does a request to remove. -/
theorem wellFormed_removeService {backend : SledBackend serde} (h : backend.WellFormed)
    (faults : Faults) (name : String) : (backend.removeService faults name).1.WellFormed := by
  rcases backend.removeService_cases faults name with hremove | hremove
  · rw [hremove]
    exact h
  · rw [hremove]
    exact wellFormed_erase h name

section WellFormed

variable {backend : SledBackend serde} (h : backend.WellFormed)
include h

/-- The bytes under a name are those of its entry. -/
theorem find_of_lookup {name : String} {value : ByteArray}
    (hvalue : backend.services.lookup (asBytes name) = some value) :
    ∃ entry, serde.fromSlice value = .ok entry ∧ entry.name = name ∧
      backend.find name = some entry := by
  obtain ⟨entry, hentry, hname⟩ := h _ _ hvalue
  refine ⟨entry, hentry, (asBytes_inj.mp hname).symm, ?_⟩
  unfold find
  rw [hvalue]
  simp [hentry, Except.toOption]

/-- The entry found has the name that was asked for. -/
theorem name_of_find {name : String} {entry : ServiceEntry}
    (hfind : backend.find name = some entry) : entry.name = name := by
  cases hvalue : backend.services.lookup (asBytes name) with
  | none => simp [find, hvalue] at hfind
  | some value =>
    obtain ⟨entry', _, hname, hfind'⟩ := find_of_lookup h hvalue
    obtain rfl : entry = entry' := Option.some.inj (hfind.symm.trans hfind')
    exact hname

/-- Without a fault the entry is found. -/
theorem getService_eq (faults : Faults) (name : String) (hfaults : faults.get = none) :
    backend.getService faults name = .ok (backend.find name) := by
  unfold getService
  rw [hfaults]
  dsimp only
  split
  next value hvalue =>
    obtain ⟨entry, hentry, _, hfind⟩ := find_of_lookup h hvalue
    rw [hfind]
    simp [fromSlice, hentry, Except.map]
  next hnone =>
    unfold find
    rw [hnone]

/-- What is returned is what is found. -/
theorem getService_ok {faults : Faults} {name : String} {found : Option ServiceEntry}
    (hget : backend.getService faults name = .ok found) : found = backend.find name := by
  cases hfaults : faults.get with
  | none =>
    rw [getService_eq h faults name hfaults] at hget
    exact (Except.ok.inj hget).symm
  | some e => simp [getService, hfaults] at hget

/-- Removing what is absent changes nothing. -/
theorem removeService_absent {name : String} (hfind : backend.find name = none) :
    (backend.removeService Faults.none name).1 = backend := by
  unfold removeService
  rw [getService_eq h Faults.none name rfl, hfind]

/-- A removal without faults. -/
theorem removeService_none (name : String) :
    (backend.removeService Faults.none name).2 = .ok (backend.find name) ∧
      (backend.removeService Faults.none name).1.find = Function.update backend.find name none := by
  have hget := getService_eq h Faults.none name rfl
  unfold removeService
  cases hfind : backend.find name with
  | none =>
    rw [hget, hfind]
    refine ⟨rfl, ?_⟩
    show backend.find = Function.update backend.find name none
    rw [← hfind, Function.update_eq_self]
  | some entry =>
    rw [hget, hfind]
    exact ⟨rfl, find_erase backend name⟩

end WellFormed

/-- The loop reads the values one by one. -/
theorem readAll_eq {pairs : List (Σ _ : ByteArray, ByteArray)}
    (h : ∀ pair ∈ pairs, ∃ entry, serde.fromSlice pair.2 = .ok entry ∧
      pair.1 = asBytes entry.name) :
    ∃ services, readAll serde pairs = .ok services ∧
      pairs.map Sigma.fst = services.map (fun entry => asBytes entry.name) ∧
      ∀ entry, entry ∈ services ↔ ∃ pair ∈ pairs, serde.fromSlice pair.2 = .ok entry := by
  induction pairs with
  | nil => exact ⟨[], rfl, rfl, by simp⟩
  | cons pair pairs ih =>
    obtain ⟨entry, hentry, hname⟩ := h pair (List.mem_cons_self ..)
    obtain ⟨services, hread, hkeys, hmem⟩ := ih fun q hq => h q (List.mem_cons_of_mem _ hq)
    refine ⟨entry :: services, ?_, ?_, ?_⟩
    · simp [readAll, fromSlice, hentry, hread, Except.map]
    · rw [List.map_cons, List.map_cons, hkeys, hname]
    · intro other
      simp only [List.mem_cons, hmem, exists_eq_or_imp, hentry, Except.ok.injEq]
      exact or_congr_left eq_comm

/-- Without a fault each entry is listed once. -/
theorem listServices_none {backend : SledBackend serde} (h : backend.WellFormed) :
    ∃ services, backend.listServices Faults.none = .ok services ∧
      (services.map ServiceEntry.name).Nodup ∧
      ∀ entry, entry ∈ services ↔ backend.find entry.name = some entry := by
  have hpairs : ∀ pair ∈ backend.services.entries, ∃ entry,
      serde.fromSlice pair.2 = .ok entry ∧ pair.1 = asBytes entry.name := by
    intro pair hpair
    exact h _ _ (AList.mem_lookup_iff.mpr hpair)
  obtain ⟨services, hread, hkeys, hmem⟩ := readAll_eq hpairs
  refine ⟨services, hread, ?_, ?_⟩
  · -- the keys of the tree are distinct
    have hnodup : ((services.map ServiceEntry.name).map asBytes).Nodup := by
      rw [List.map_map]
      show (services.map fun entry => asBytes entry.name).Nodup
      rw [← hkeys]
      exact backend.services.nodupKeys
    exact hnodup.of_map _
  · intro entry
    rw [hmem]
    constructor
    · intro hentry
      obtain ⟨pair, hpair, hentry⟩ := hentry
      obtain ⟨entry', hentry', hname⟩ := hpairs pair hpair
      obtain rfl : entry = entry' := Except.ok.inj (hentry.symm.trans hentry')
      have hlookup : backend.services.lookup (asBytes entry.name) = some pair.2 := by
        rw [← hname]
        exact AList.mem_lookup_iff.mpr hpair
      unfold find
      rw [hlookup]
      simp [hentry, Except.toOption]
    · intro hfind
      cases hvalue : backend.services.lookup (asBytes entry.name) with
      | none => simp [find, hvalue] at hfind
      | some value =>
        obtain ⟨entry', hentry', _, hfind'⟩ := find_of_lookup h hvalue
        obtain rfl : entry = entry' := Option.some.inj (hfind.symm.trans hfind')
        exact ⟨⟨_, value⟩, AList.mem_lookup_iff.mp hvalue, hentry'⟩

end SledBackend

/-- A sled backend that has only been written through `put_service`. -/
def SledStore (serde : Serde) := { backend : SledBackend serde // backend.WellFormed }

namespace SledStore

variable {serde : Serde}

/-- A new store. -/
def empty : SledStore serde := ⟨SledBackend.empty, SledBackend.wellFormed_empty⟩

instance : RegistryBackend (SledStore serde) where
  putService store faults entry :=
    let stored := store.1.putService faults entry
    (⟨stored.1, SledBackend.wellFormed_putService store.2 faults entry⟩, stored.2)
  getService store faults name := store.1.getService faults name
  listServices store faults := store.1.listServices faults
  removeService store faults name :=
    let removed := store.1.removeService faults name
    (⟨removed.1, SledBackend.wellFormed_removeService store.2 faults name⟩, removed.2)

instance : LawfulBackend (SledStore serde) where
  entries store := store.1.find
  name_of_entries := by
    intro store name entry h
    exact SledBackend.name_of_find store.2 h
  get_none := by
    intro store name
    exact SledBackend.getService_eq store.2 Faults.none name rfl
  get_ok := by
    intro store faults name found h
    exact SledBackend.getService_ok store.2 h
  put_none := by
    intro store entry
    rfl
  put_ok := by
    intro store faults entry h
    rcases store.1.putService_cases faults entry with ⟨e, hput⟩ | ⟨result, hput⟩
    · simp [putService, hput] at h
    · simp only [putService, hput, SledBackend.find_store]
  put_cases := by
    intro store faults entry
    rcases store.1.putService_cases faults entry with ⟨e, hput⟩ | ⟨result, hput⟩
    · left
      simp only [putService, hput]
    · right
      simp only [putService, hput, SledBackend.find_store]
  remove_result := by
    intro store name
    exact (SledBackend.removeService_none store.2 name).1
  remove_entries := by
    intro store name
    exact (SledBackend.removeService_none store.2 name).2
  remove_absent := by
    intro store name h
    exact Subtype.ext (SledBackend.removeService_absent store.2 h)
  list_none := by
    intro store
    exact SledBackend.listServices_none store.2

/-- It has no entries. -/
theorem entries_empty (name : String) : entries (empty : SledStore serde) name = none := by
  simp [entries, SledBackend.find, empty, SledBackend.empty]

end SledStore

end GraphHarness.ServiceRegistry
