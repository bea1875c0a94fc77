import GraphHarness.Collections
import GraphHarness.Trace.Steps
import Mathlib.Algebra.BigOperators.Group.List.Basic
import Mathlib.Algebra.Group.Hom.Defs
import Mathlib.Algebra.Order.Group.Multiset
import Mathlib.Tactic.Abel

/-!
# Accounts of a run

What goes in and out of a place, step by step, and what is there at the end. Amounts are of
any commutative monoid: a number, a multiset of identifiers.

> `run_account`: what each step preserves of the state and of what has gone in and out so
> far, the run preserves.

A place is a list of parties or the values of a map; `sum_set` and `values_insert` say what
is there after one entry has changed.

Amounts are compared in the monoid, so an account cannot be balanced by losing one thing and
gaining another. Nothing here is about a particular system: the state, the events and the
amounts are parameters, and a system gives its places and shows what one step moves.
-/

namespace GraphHarness

variable {M : Type} [AddCommMonoid M]

namespace Trace

variable {σ ε : Type}

/-- The amounts of all steps that are taken. -/
def total (step : σ → ε → Option σ) (amount : σ → ε → M) : σ → List ε → M
  | _, [] => 0
  | s, e :: events =>
    match step s e with
    | some t => amount s e + total step amount t events
    | none => 0

variable {step : σ → ε → Option σ} {amount : σ → ε → M}

/-- What every step preserves of the state and of what has come together so far holds at
the end of every run. -/
theorem run_account {Inv : σ → M → Prop}
    (hstep : ∀ s e t account, Inv s account → step s e = some t → Inv t (account + amount s e)) :
    ∀ {events : List ε} {s t : σ} {account : M}, Inv s account → run step s events = some t →
      Inv t (account + total step amount s events) := by
  intro events
  induction events with
  | nil =>
    intro s t account hs hrun
    obtain rfl : s = t := by simpa [run] using hrun
    rwa [total, add_zero]
  | cons e events ih =>
    intro s t account hs hrun
    obtain ⟨m, hm, hrest⟩ := run_cons hrun
    have hm' := ih (hstep s e m account hs hm) hrest
    rwa [add_assoc, show amount s e + total step amount m events =
      total step amount s (e :: events) by simp [total, hm]] at hm'

/-- Steps that each amount to nothing amount to nothing together. -/
theorem total_eq_zero {C : σ → ε → Prop} {Inv : σ → Prop}
    (hstep : ∀ s e t, Inv s → C s e → step s e = some t → Inv t)
    (hzero : ∀ s e, Inv s → C s e → amount s e = 0) :
    ∀ {events : List ε} {s : σ}, Inv s → Always step C s events →
      total step amount s events = 0 := by
  intro events
  induction events with
  | nil => intro _ _ _; rfl
  | cons e events ih =>
    intro s hs halways
    unfold total
    cases h : step s e with
    | none => rfl
    | some t =>
      dsimp only
      rw [hzero s e hs halways.1, ih (hstep s e t hs halways.1 h) (halways.2 t h), add_zero]

/-- What is read off each amount adds up to what is read off their sum. -/
theorem map_total {N : Type} [AddCommMonoid N] (f : M →+ N) (s : σ) (events : List ε) :
    f (total step amount s events) = total step (fun s e => f (amount s e)) s events := by
  induction events generalizing s with
  | nil => exact f.map_zero
  | cons e events ih =>
    unfold total
    cases step s e with
    | none => exact f.map_zero
    | some t =>
      dsimp only
      rw [f.map_add, ih]

end Trace

/-! ## Lists of parties -/

variable {α : Type}

theorem sum_eq_eraseIdx (amount : α → M) : ∀ {parties : List α} {i : Nat} {party : α},
    parties[i]? = some party →
    (parties.map amount).sum = amount party + ((parties.eraseIdx i).map amount).sum := by
  intro parties
  induction parties with
  | nil => simp
  | cons first parties ih =>
    intro i party h
    cases i with
    | zero =>
      obtain rfl : first = party := by simpa using h
      simp
    | succ i =>
      rw [List.eraseIdx_cons_succ, List.map_cons, List.map_cons, List.sum_cons, List.sum_cons,
        ih (by simpa using h)]
      abel

/-- One party has changed, the others have not. -/
theorem sum_set (amount : α → M) {parties : List α} {i : Nat} {party : α}
    (h : parties[i]? = some party) (changed : α) :
    ((parties.set i changed).map amount).sum =
      amount changed + ((parties.eraseIdx i).map amount).sum := by
  have hi := (List.getElem?_eq_some_iff.mp h).1
  rw [sum_eq_eraseIdx amount (List.getElem?_set_self hi), List.eraseIdx_set_eq]

/-! ## Maps -/

namespace HashMap

variable {κ ν : Type} [DecidableEq κ] {map : HashMap κ ν} {key : κ}

/-- The values, each as often as it is there. -/
def values (map : HashMap κ ν) : Multiset ν := ↑(map.entries.map fun entry => entry.2)

/-- The value of a key, if it has one. -/
def valueAt (map : HashMap κ ν) (key : κ) : Multiset ν := ↑(map.lookup key).toList

theorem values_of_lookup {value : ν} (h : map.lookup key = some value) :
    values map = value ::ₘ values (map.erase key) := by
  obtain ⟨found, before, after, _, hentries, herase⟩ :=
    List.exists_of_kerase (AList.mem_keys.mp (AList.lookup_isSome.mp (by rw [h]; rfl)))
  have hvalue : found = value := by
    have hfound : map.lookup key = some found := AList.mem_lookup_iff.mpr (by simp [hentries])
    exact Option.some.inj (hfound.symm.trans h)
  show ((map.entries.map _ : List ν) : Multiset ν) =
    value ::ₘ (((map.entries.kerase key).map _ : List ν) : Multiset ν)
  rw [herase, hentries, hvalue]
  simp [List.perm_middle]

theorem values_erase (map : HashMap κ ν) (key : κ) :
    values (map.erase key) + valueAt map key = values map := by
  unfold valueAt
  cases hlookup : map.lookup key with
  | none =>
    rw [erase_absent (AList.lookup_eq_none.mp hlookup)]
    exact add_zero _
  | some value =>
    rw [values_of_lookup hlookup, ← Multiset.singleton_add, add_comm]
    rfl

theorem values_insert (map : HashMap κ ν) (key : κ) (value : ν) :
    values (map.insert key value) + valueAt map key = values map + {value} := by
  have hinsert : values (map.insert key value) = value ::ₘ values (map.erase key) := by
    unfold values
    rw [AList.entries_insert]
    rfl
  rw [hinsert, ← values_erase map key, ← Multiset.singleton_add]
  abel

theorem keys_insert (h : key ∉ map) (value : ν) :
    (↑(map.insert key value).keys : Multiset κ) = ↑map.keys + {key} := by
  rw [AList.keys_insert, List.erase_of_not_mem (fun hkey => h (AList.mem_keys.mpr hkey)),
    ← Multiset.cons_coe, ← Multiset.singleton_add, add_comm]

theorem keys_erase (h : key ∈ map) :
    (↑(map.erase key).keys : Multiset κ) + {key} = ↑map.keys := by
  rw [AList.keys_erase, ← Multiset.coe_erase, add_comm, Multiset.singleton_add]
  exact Multiset.cons_erase (Multiset.mem_coe.mpr (AList.mem_keys.mp h))

end HashMap

end GraphHarness
