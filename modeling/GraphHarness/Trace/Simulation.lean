import GraphHarness.Trace.Steps
import Mathlib.Data.List.Basic
import Mathlib.Order.WellFounded

/-!
# Histories and simulation

A machine that answers every operation, and an abstract machine that says which
answers are right. If every step of the first is one the second allows, from related
states to related states, then so is every history.

`after` is the state after a list of operations and `history` their answers; `Accepts` is what
an abstract machine says of a history. `invariant_throughout` and `throughout_iff` carry a
property through a run: the first one where each operation keeps it under a condition, the
second one where it keeps it under that condition and no other, so that the property holds at
every point exactly if each operation meets the condition.
-/

namespace GraphHarness.Trace

variable {σ τ ι ο : Type}

/-- The operations, each with its outcome. -/
def history (perform : σ → ι → σ × ο) : σ → List ι → List (ι × ο)
  | _, [] => []
  | s, op :: ops => (op, (perform s op).2) :: history perform (perform s op).1 ops

/-- The state after the operations. -/
def after (perform : σ → ι → σ × ο) : σ → List ι → σ
  | s, [] => s
  | s, op :: ops => after perform (perform s op).1 ops

theorem history_append (perform : σ → ι → σ × ο) : ∀ (first : List ι) {s : σ} {second : List ι},
    history perform s (first ++ second) =
      history perform s first ++ history perform (after perform s first) second := by
  intro first
  induction first with
  | nil => intro _ _; rfl
  | cons op first ih =>
    intro s second
    rw [List.cons_append, history, ih]
    rfl

theorem after_append (perform : σ → ι → σ × ο) : ∀ (first : List ι) {s : σ} {second : List ι},
    after perform s (first ++ second) = after perform (after perform s first) second := by
  intro first
  induction first with
  | nil => intro _ _; rfl
  | cons op first ih =>
    intro s second
    exact ih

/-- What every operation preserves holds after any number of them. -/
theorem after_invariant {perform : σ → ι → σ × ο} (Inv : σ → Prop)
    (hstep : ∀ s op, Inv s → Inv (perform s op).1) :
    ∀ {ops : List ι} {s : σ}, Inv s → Inv (after perform s ops) := by
  intro ops
  induction ops with
  | nil => intro _ hs; exact hs
  | cons op ops ih =>
    intro s hs
    exact ih (hstep s op hs)

/-- What every operation preserves, if it meets a condition in the state it is taken in,
holds at every point of a run whose operations all do. -/
theorem invariant_throughout {perform : σ → ι → σ × ο} {C : σ → ι → Prop} (Inv : σ → Prop)
    (hstep : ∀ s op, Inv s → C s op → Inv (perform s op).1) :
    ∀ (earlier later : List ι) {s : σ}, Inv s →
      (∀ before op rest, earlier ++ later = before ++ op :: rest → C (after perform s before) op) →
      Inv (after perform s earlier) := by
  intro earlier
  induction earlier with
  | nil => intro _ _ hs _; exact hs
  | cons op earlier ih =>
    intro later s hs hC
    have hop : C s op := hC [] op (earlier ++ later) rfl
    refine ih later (hstep s op hs hop) ?_
    intro before op' rest heq
    exact hC (op :: before) op' rest (by rw [List.cons_append, heq, List.cons_append])

/-- A property holds at every point of a run exactly if each operation meets a condition
in the state it is taken in: what the operations that meet it preserve has the property,
and an operation that does not meet it ends the property. -/
theorem throughout_iff {perform : σ → ι → σ × ο} {C : σ → ι → Prop} {P : σ → Prop}
    (Inv : σ → Prop) (hholds : ∀ s, Inv s → P s)
    (hstep : ∀ s op, Inv s → C s op → Inv (perform s op).1)
    (hbreak : ∀ s op, Inv s → P (perform s op).1 → C s op) :
    ∀ (ops : List ι) {s : σ}, Inv s →
      ((∀ earlier later, ops = earlier ++ later → P (after perform s earlier)) ↔
        ∀ earlier op later, ops = earlier ++ op :: later → C (after perform s earlier) op) := by
  intro ops s hs
  constructor
  · induction ops generalizing s with
    | nil =>
      intro _ earlier op later h
      simp at h
    | cons first ops ih =>
      intro h
      have hfirst : C s first := hbreak s first hs (h [first] ops rfl)
      intro earlier op later heq
      cases earlier with
      | nil =>
        obtain ⟨rfl, _⟩ : first = op ∧ ops = later := by simpa using heq
        exact hfirst
      | cons first' earlier =>
        obtain ⟨rfl, hops⟩ : first = first' ∧ ops = earlier ++ op :: later := by simpa using heq
        refine ih (hstep s first hs hfirst) ?_ earlier op later hops
        intro earlier' later' heq'
        exact h (first :: earlier') later' (by rw [heq', List.cons_append])
  · intro h earlier later heq
    refine hholds _ (invariant_throughout Inv hstep earlier later hs ?_)
    intro before op rest heq'
    exact h before op rest (heq.trans heq')

/-- An operation of the history was taken after those before it. -/
theorem mem_history {perform : σ → ι → σ × ο} {op : ι} {outcome : ο} : ∀ {ops : List ι} {s : σ},
    (op, outcome) ∈ history perform s ops → ∃ before rest, ops = before ++ op :: rest ∧
      outcome = (perform (after perform s before) op).2 := by
  intro ops
  induction ops with
  | nil =>
    intro s h
    simp [history] at h
  | cons first ops ih =>
    intro s h
    rw [history, List.mem_cons] at h
    cases h with
    | inl heq =>
      obtain ⟨rfl, rfl⟩ := Prod.mk.inj heq
      exact ⟨[], ops, rfl, rfl⟩
    | inr hmem =>
      obtain ⟨before, rest, rfl, houtcome⟩ := ih hmem
      exact ⟨first :: before, rest, rfl, houtcome⟩

theorem length_history (perform : σ → ι → σ × ο) : ∀ (ops : List ι) {s : σ},
    (history perform s ops).length = ops.length := by
  intro ops
  induction ops with
  | nil => intro _; rfl
  | cons op ops ih =>
    intro s
    rw [history, List.length_cons, ih, List.length_cons]

/-- The state after the first `n` operations of an endless run. -/
def afterFirst (perform : σ → ι → σ × ο) (s : σ) (schedule : Nat → ι) (n : Nat) : σ :=
  after perform s ((List.range n).map schedule)

theorem afterFirst_succ (perform : σ → ι → σ × ο) (s : σ) (schedule : Nat → ι) (n : Nat) :
    afterFirst perform s schedule (n + 1) =
      (perform (afterFirst perform s schedule n) (schedule n)).1 := by
  unfold afterFirst
  rw [List.range_succ, List.map_append, after_append]
  rfl

/-- The run from the second operation on. -/
theorem afterFirst_tail (perform : σ → ι → σ × ο) (s : σ) (schedule : Nat → ι) (n : Nat) :
    afterFirst perform s schedule (n + 1) =
      afterFirst perform (perform s (schedule 0)).1 (fun m => schedule (m + 1)) n := by
  unfold afterFirst
  rw [List.range_succ_eq_map, List.map_cons, List.map_map]
  rfl

/-- What drops again and again is zero at some time. -/
theorem exists_eq_zero {rank : Nat → Nat} (hdrops : ∀ n, 0 < rank n → ∃ m, rank m < rank n) :
    ∃ n, rank n = 0 := by
  -- the least rank of all does not drop
  refine ⟨Function.argmin rank, ?_⟩
  by_contra hzero
  obtain ⟨m, hdrop⟩ := hdrops _ (Nat.pos_of_ne_zero hzero)
  exact Function.not_lt_argmin rank m hdrop

/-- The abstract machine can give the outcomes of the history. -/
def Accepts (allows : τ → ι → ο → τ → Prop) : τ → List (ι × ο) → Prop
  | _, [] => True
  | a, (op, outcome) :: rest => ∃ b, allows a op outcome b ∧ Accepts allows b rest

variable {perform : σ → ι → σ × ο} {allows : τ → ι → ο → τ → Prop} {R : σ → τ → Prop}

theorem accepts_of_simulation
    (hsim : ∀ s a op, R s a → ∃ b, allows a op (perform s op).2 b ∧ R (perform s op).1 b) :
    ∀ {ops : List ι} {s : σ} {a : τ}, R s a → Accepts allows a (history perform s ops) := by
  intro ops
  induction ops with
  | nil => intro _ _ _; trivial
  | cons op ops ih =>
    intro s a hR
    obtain ⟨b, hallows, hR'⟩ := hsim s a op hR
    exact ⟨b, hallows, ih hR'⟩

/-- If every step is matched by one of another system, from related states to related
states, then so is every run. -/
theorem run_of_simulation {ε δ : Type} {step : σ → ε → Option σ} {step' : τ → δ → Option τ}
    (hsim : ∀ s s' e t, R s s' → step s e = some t → ∃ e' t', step' s' e' = some t' ∧ R t t') :
    ∀ {events : List ε} {s t : σ} {s' : τ}, R s s' → run step s events = some t →
      ∃ events' t', run step' s' events' = some t' ∧ R t t' := by
  intro events
  induction events with
  | nil =>
    intro s t s' hR hrun
    obtain rfl : s = t := by simpa [run] using hrun
    exact ⟨[], s', rfl, hR⟩
  | cons e events ih =>
    intro s t s' hR hrun
    obtain ⟨m, hm, hrest⟩ := run_cons hrun
    obtain ⟨e', m', hm', hR'⟩ := hsim s s' e m hR hm
    obtain ⟨events', t', hrun', hend⟩ := ih hR' hrest
    exact ⟨e' :: events', t', (run_of_step hm').trans hrun', hend⟩

end GraphHarness.Trace
