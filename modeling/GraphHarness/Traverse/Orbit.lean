import Mathlib.Dynamics.PeriodicPts.Defs

/-!
# Looking around a cycle

A search that starts somewhere, goes on from each element to the next, and gives up
when it is back where it started. Where the elements form a cycle it looks at each of
them once: it ends, what it finds is accepted, and it gives up only if nothing on the
cycle is (`around_spec`).

The recursion is bounded by the length of the cycle, which is a parameter, and the theorem
says that this bound is enough. The next element may be any function with the period that is
given.
-/

namespace GraphHarness.Traverse

open Function (IsPeriodicPt)

variable {α : Type} [DecidableEq α]

/-- What an endless loop from `x` on comes to, in at most `fuel` rounds: an accepted
element, or nothing when it gets back to `start`. -/
def around (next : α → α) (accept : α → Bool) (start : α) : Nat → α → Option (Option α)
  | 0, _ => none
  | fuel + 1, x =>
    if accept x then some (some x)
    else if next x = start then some none
    else around next accept start fuel (next x)

variable {next : α → α} {start : α}

theorem around_found {accept : α → Bool} : ∀ {fuel : Nat} {x y : α},
    around next accept start fuel x = some (some y) → accept y = true := by
  intro fuel
  induction fuel with
  | zero =>
    intro x y h
    simp [around] at h
  | succ fuel ih =>
    intro x y h
    rw [around] at h
    split at h
    next haccept =>
      obtain rfl : x = y := by simpa using h
      exact haccept
    next =>
      split at h
      next => simp at h
      next => exact ih h

/-- What is found is the first accepted element. -/
theorem around_first {accept : α → Bool} : ∀ {fuel : Nat} {x y : α},
    around next accept start fuel x = some (some y) →
    ∃ k, y = next^[k] x ∧ ∀ j < k, accept (next^[j] x) = false := by
  intro fuel
  induction fuel with
  | zero =>
    intro x y h
    simp [around] at h
  | succ fuel ih =>
    intro x y h
    rw [around] at h
    by_cases haccept : accept x = true
    · rw [if_pos haccept] at h
      obtain rfl : x = y := by simpa using h
      exact ⟨0, rfl, fun j hj => absurd hj (Nat.not_lt_zero j)⟩
    · rw [if_neg haccept] at h
      split at h
      next => simp at h
      next =>
        obtain ⟨k, hy, hbefore⟩ := ih h
        refine ⟨k + 1, hy, ?_⟩
        intro j hj
        cases j with
        | zero => exact Bool.eq_false_iff.mpr haccept
        | succ j => exact hbefore j (by omega)

/-- From the `k`th element of the cycle on, with fuel for the rest of it. -/
theorem around_from {n : Nat} (hperiod : IsPeriodicPt next n start) (accept : α → Bool) :
    ∀ {fuel k : Nat}, 0 < fuel → k + fuel = n →
      (∀ j < k, accept (next^[j] start) = false) →
      (∃ y, around next accept start fuel (next^[k] start) = some (some y)) ∨
      around next accept start fuel (next^[k] start) = some none ∧
        ∀ j, accept (next^[j] start) = false := by
  intro fuel
  induction fuel with
  | zero =>
    intro k h
    simp at h
  | succ fuel ih =>
    intro k _ hk hseen
    rw [around]
    by_cases haccept : accept (next^[k] start) = true
    · rw [if_pos haccept]
      exact .inl ⟨_, rfl⟩
    rw [Bool.not_eq_true] at haccept
    have hseen' : ∀ j < k + 1, accept (next^[j] start) = false := by
      intro j hj
      rcases Nat.lt_succ_iff_lt_or_eq.mp hj with hj | rfl
      · exact hseen j hj
      · exact haccept
    have hnext : next (next^[k] start) = next^[k + 1] start :=
      (Function.iterate_succ_apply' next k start).symm
    rw [if_neg (by rw [haccept]; exact Bool.false_ne_true), hnext]
    by_cases hback : next^[k + 1] start = start
    · -- the elements seen are all there are
      rw [if_pos hback]
      refine .inr ⟨rfl, fun j => ?_⟩
      have hcycle : IsPeriodicPt next (k + 1) start := hback
      rw [← hcycle.iterate_mod_apply j]
      exact hseen' _ (Nat.mod_lt j (Nat.succ_pos k))
    · rw [if_neg hback]
      cases fuel with
      | zero => exact absurd (by rw [show k + 1 = n by omega]; exact hperiod) hback
      | succ fuel => exact ih (Nat.succ_pos fuel) (by omega) hseen'

/-- With fuel for the whole cycle the search ends, and in vain only if nothing on the
cycle is accepted. -/
theorem around_spec {n : Nat} (hperiod : IsPeriodicPt next n start) (hn : 0 < n)
    (accept : α → Bool) :
    (∃ y, around next accept start n start = some (some y) ∧ accept y = true) ∨
    around next accept start n start = some none ∧ ∀ j, accept (next^[j] start) = false := by
  rcases around_from hperiod accept hn (Nat.zero_add n) (by simp) with ⟨y, hfound⟩ | hnone
  · exact .inl ⟨y, hfound, around_found hfound⟩
  · exact .inr hnone

end GraphHarness.Traverse
