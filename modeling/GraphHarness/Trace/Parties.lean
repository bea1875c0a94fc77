import Mathlib.Data.List.Basic

/-!
# Parties in a list

A system keeps its parties, or what they have said, in a list: a step adds one at the
end, or replaces one. These lemmas say what is at an index afterwards.

The lemmas are those that Mathlib has not in this form: an element at an index after a `set`
or an append is the new one, or one that was there.
-/

namespace GraphHarness.Trace

variable {α : Type} {l : List α} {a b : α} {i : Nat}

/-- What was there before an addition stays. -/
theorem getElem?_append_of_some (h : l[i]? = some a) (more : List α) :
    (l ++ more)[i]? = some a := by
  rw [List.getElem?_append_left (List.getElem?_eq_some_iff.mp h).1, h]

/-- What has arrived of a log stays so when the next entry arrives. -/
theorem prefix_concat {arrived : List α} (h : arrived <+: l)
    (hnext : l[arrived.length]? = some a) : arrived ++ [a] <+: l := by
  obtain ⟨rest, rfl⟩ := h
  rw [List.getElem?_append_right (Nat.le_refl _), Nat.sub_self] at hnext
  cases rest with
  | nil => simp at hnext
  | cons first rest =>
    obtain rfl : first = a := by simpa using hnext
    exact ⟨rest, by simp⟩

/-- An element was there before, or it is the one that was added. -/
theorem some_of_getElem?_concat (h : (l ++ [b])[i]? = some a) :
    l[i]? = some a ∨ i = l.length ∧ a = b := by
  rcases Nat.lt_or_ge i l.length with hlt | hge
  · rw [List.getElem?_append_left hlt] at h
    exact .inl h
  · rw [List.getElem?_append_right hge] at h
    obtain ⟨hindex, hget⟩ := List.getElem?_eq_some_iff.mp h
    have hzero : i - l.length = 0 := by simpa using hindex
    simp only [hzero, List.getElem_cons_zero] at hget
    exact .inr ⟨by omega, hget.symm⟩

/-- An element is the one that was put there, or it was there before. -/
theorem some_of_getElem?_set {j : Nat} (h : (l.set i b)[j]? = some a) :
    i = j ∧ a = b ∨ i ≠ j ∧ l[j]? = some a := by
  by_cases hij : i = j
  · subst hij
    rw [List.getElem?_set_self'] at h
    obtain ⟨_, _, rfl⟩ := Option.map_eq_some_iff.mp h
    exact .inl ⟨rfl, rfl⟩
  · rw [List.getElem?_set_ne hij] at h
    exact .inr ⟨hij, h⟩

/-- Replacing an element by one that is alike in some respect. -/
theorem exists_mem_set (h : l[i]? = some a) {P : α → Prop} (hP : P b ↔ P a) :
    (∃ x ∈ l.set i b, P x) ↔ ∃ x ∈ l, P x := by
  obtain ⟨hi, hget⟩ := List.getElem?_eq_some_iff.mp h
  constructor
  · intro ⟨x, hmem, hx⟩
    rcases List.mem_or_eq_of_mem_set hmem with hmem | rfl
    · exact ⟨x, hmem, hx⟩
    · exact ⟨a, List.mem_of_getElem? h, hP.mp hx⟩
  · intro ⟨x, hmem, hx⟩
    obtain ⟨j, hj, hxj⟩ := List.mem_iff_getElem.mp hmem
    by_cases hij : i = j
    · subst hij
      obtain rfl : a = x := hget.symm.trans hxj
      exact ⟨b, List.mem_set hi _, hP.mpr hx⟩
    · refine ⟨x, List.mem_iff_getElem?.mpr ⟨j, ?_⟩, hx⟩
      rw [List.getElem?_set_ne hij, List.getElem?_eq_getElem hj, hxj]

end GraphHarness.Trace
