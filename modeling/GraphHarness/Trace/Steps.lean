import Mathlib.Data.List.Basic

/-!
# Runs of a step function

A system that takes one event after the other, where an event need not be
possible. `Always C` says of a run that each of its events meets a condition in the
state it is taken in; `run_invariant` is the one induction every safety property
needs, and `always_imp` carries one condition over to another along an invariant.

A step that is not possible has no state after it, and neither has a run with such a step; the
theorems are about the runs that there are. `always_of_end` is the rule for exact conditions:
if a step that does not meet the condition spoils the state, and a spoiled state stays so,
then a state at the end which is not spoiled tells that every step has met it.
-/

namespace GraphHarness.Trace

variable {σ ε : Type}

/-- The state the events lead to, if they are all possible. -/
def run (step : σ → ε → Option σ) : σ → List ε → Option σ
  | s, [] => some s
  | s, e :: events =>
    match step s e with
    | some t => run step t events
    | none => none

/-- Every event that is taken meets the condition, in the state before it. -/
def Always (step : σ → ε → Option σ) (C : σ → ε → Prop) : σ → List ε → Prop
  | _, [] => True
  | s, e :: events => C s e ∧ ∀ t, step s e = some t → Always step C t events

/-- A condition that can be decided can be decided along a run. -/
instance decidableAlways (step : σ → ε → Option σ) (C : σ → ε → Prop)
    [hC : ∀ s e, Decidable (C s e)] : ∀ s events, Decidable (Always step C s events)
  | _, [] => isTrue trivial
  | s, e :: events =>
    match h : step s e with
    | none => decidable_of_iff (C s e) (by simp [Always, h])
    | some t =>
      have := decidableAlways step C t events
      decidable_of_iff (C s e ∧ Always step C t events) (by simp [Always, h])

variable {step : σ → ε → Option σ} {C D : σ → ε → Prop} {Inv : σ → Prop}

theorem run_of_step {s t : σ} {e : ε} {events : List ε} (h : step s e = some t) :
    run step s (e :: events) = run step t events := by
  rw [run, h]

theorem run_cons {s t : σ} {e : ε} {events : List ε} (h : run step s (e :: events) = some t) :
    ∃ m, step s e = some m ∧ run step m events = some t := by
  rw [run] at h
  split at h
  next m hm => exact ⟨m, hm, h⟩
  next => simp at h

/-- One event more. -/
theorem run_concat : ∀ {events : List ε} {e : ε} {s t u : σ}, run step s events = some t →
    step t e = some u → run step s (events ++ [e]) = some u := by
  intro events
  induction events with
  | nil =>
    intro e s t u hrun hstep
    obtain rfl : s = t := by simpa [run] using hrun
    rw [List.nil_append, run_of_step hstep]
    rfl
  | cons e' events ih =>
    intro e s t u hrun hstep
    obtain ⟨m, hm, hrest⟩ := run_cons hrun
    rw [List.cons_append, run_of_step hm]
    exact ih hrest hstep

/-- A condition on the events alone. -/
theorem always_of_forall : ∀ {events : List ε} {s : σ}, (∀ e ∈ events, ∀ s, C s e) →
    Always step C s events := by
  intro events
  induction events with
  | nil => intro s _; trivial
  | cons e events ih =>
    intro s h
    rw [List.forall_mem_cons] at h
    exact ⟨h.1 s, fun _ _ => ih h.2⟩

/-- What is met along a run is met by each of its events. -/
theorem always_at : ∀ {before : List ε} {e : ε} {after : List ε} {s t : σ},
    Always step C s (before ++ e :: after) → run step s before = some t → C t e := by
  intro before
  induction before with
  | nil =>
    intro e after s t h hrun
    obtain rfl : s = t := by simpa [run] using hrun
    exact h.1
  | cons e' before ih =>
    intro e after s t h hrun
    obtain ⟨m, hm, hrest⟩ := run_cons hrun
    exact ih (h.2 m hm) hrest

/-- What every step under the condition preserves holds at the end of every run
under it. -/
theorem run_invariant (hstep : ∀ s e t, Inv s → C s e → step s e = some t → Inv t) :
    ∀ {events : List ε} {s t : σ}, Inv s → Always step C s events →
      run step s events = some t → Inv t := by
  intro events
  induction events with
  | nil =>
    intro s t hinv _ hrun
    obtain rfl : s = t := by simpa [run] using hrun
    exact hinv
  | cons e events ih =>
    intro s t hinv halways hrun
    obtain ⟨m, hm, hrest⟩ := run_cons hrun
    exact ih (hstep s e m hinv halways.1 hm) (halways.2 m hm) hrest

/-- A condition that follows from another one and an invariant of the runs under it. -/
theorem always_imp (hstep : ∀ s e t, Inv s → C s e → step s e = some t → Inv t)
    (himp : ∀ s e, Inv s → C s e → D s e) :
    ∀ {events : List ε} {s : σ}, Inv s → Always step C s events → Always step D s events := by
  intro events
  induction events with
  | nil => intro _ _ _; trivial
  | cons e events ih =>
    intro s hinv halways
    refine ⟨himp s e hinv halways.1, ?_⟩
    intro t ht
    exact ih (hstep s e t hinv halways.1 ht) (halways.2 t ht)

/-- What every step preserves holds at the end of every run. -/
theorem run_preserves (hstep : ∀ s e t, Inv s → step s e = some t → Inv t) :
    ∀ {events : List ε} {s t : σ}, Inv s → run step s events = some t → Inv t := by
  intro events
  induction events with
  | nil =>
    intro s t hs hrun
    obtain rfl : s = t := by simpa [run] using hrun
    exact hs
  | cons e events ih =>
    intro s t hs hrun
    obtain ⟨m, hm, hrest⟩ := run_cons hrun
    exact ih (hstep s e m hs hm) hrest

/-- A step against the condition that is never made good again: where the run ends
well, every step has met the condition. -/
theorem always_of_end {Bad : σ → Prop}
    (hinv : ∀ s e t, Inv s → step s e = some t → Inv t)
    (hbreak : ∀ s e t, Inv s → ¬ C s e → step s e = some t → Bad t)
    (hbad : ∀ s e t, Bad s → step s e = some t → Bad t) :
    ∀ {events : List ε} {s t : σ}, Inv s → run step s events = some t → ¬ Bad t →
      Always step C s events := by
  intro events
  induction events with
  | nil => intro _ _ _ _ _; trivial
  | cons e events ih =>
    intro s t hs hrun hend
    obtain ⟨m, hm, hrest⟩ := run_cons hrun
    refine ⟨?_, ?_⟩
    · by_contra hC
      exact hend (run_preserves hbad (hbreak s e m hs hC hm) hrest)
    · intro m' hm'
      obtain rfl : m = m' := Option.some.inj (hm.symm.trans hm')
      exact ih (hinv s e m hs hm) hrest hend

end GraphHarness.Trace
