import GraphHarness.Trace.Simulation
import GraphHarness.Trace.Steps

/-!
# Interleaved calls

Operations on a shared state that take one atomic step, or two: a first that only
reads, and a second that acts on what was read. Any number of calls run at once, and
a schedule says whose step comes next.

A second step is *fresh* when reading again would give what the call still holds. If
all of them are, the calls have the results and the effect of running one after the
other, in the order in which they ended (`serial_of_fresh`).

Calls are parties in a list, each with its operation and its progress. `Serial` is the run one
after the other that a state is equal to, and is built up along the schedule: a call that ends
is put behind those that have ended before. Nothing is assumed of the operations but that a
first step which goes on leaves the shared state as it is.
-/

namespace GraphHarness.Trace

variable {σ ω β ρ : Type}

/-- How the operations are taken apart. What is held between the steps is a `β`. -/
structure Staged (σ ω β ρ : Type) where
  first : σ → ω → σ × (β ⊕ ρ)
  second : σ → ω → β → σ × ρ
  first_reads : ∀ s op held, (first s op).2 = .inl held → (first s op).1 = s

/-- How far a call has come: it has read and not written, or is done. -/
inductive Progress (β ρ : Type) where
  | ready
  | holding (held : β)
  | done (result : ρ)

/-- The calls over what they share. -/
structure Calls (σ ω β ρ : Type) where
  shared : σ
  calls : List (ω × Progress β ρ)

namespace Calls

/-- No call has begun. -/
def start (s : σ) (ops : List ω) : Calls σ ω β ρ := ⟨s, ops.map fun op => (op, .ready)⟩

/-- The `i`th call, and where it is. -/
def call (s : Calls σ ω β ρ) (i : Nat) : Option (ω × Progress β ρ) := s.calls[i]?

/-- The state after a step of the `i`th call. -/
def move (s : Calls σ ω β ρ) (i : Nat) (shared : σ) (op : ω) (progress : Progress β ρ) :
    Calls σ ω β ρ := ⟨shared, s.calls.set i (op, progress)⟩

@[simp] theorem move_shared (s : Calls σ ω β ρ) (i : Nat) (shared : σ) (op : ω)
    (progress : Progress β ρ) : (s.move i shared op progress).shared = shared := rfl

theorem call_start {s : σ} {ops : List ω} {i : Nat} {op : ω} {progress : Progress β ρ}
    (h : (start s ops).call i = some (op, progress)) : ops[i]? = some op ∧ progress = .ready := by
  simp only [start, call, List.getElem?_map, Option.map_eq_some_iff] at h
  obtain ⟨op', hop, h⟩ := h
  obtain ⟨rfl, rfl⟩ := Prod.mk.inj h
  exact ⟨hop, rfl⟩

theorem call_move_self {s : Calls σ ω β ρ} {i : Nat} {op' : ω} {before : Progress β ρ}
    (h : s.call i = some (op', before)) (shared : σ) (op : ω) (progress : Progress β ρ) :
    (s.move i shared op progress).call i = some (op, progress) :=
  List.getElem?_set_self (List.getElem?_eq_some_iff.mp h).1

theorem call_move_ne (s : Calls σ ω β ρ) {i j : Nat} (h : i ≠ j) (shared : σ) (op : ω)
    (progress : Progress β ρ) : (s.move i shared op progress).call j = s.call j :=
  List.getElem?_set_ne h

/-- A call after a step is the one that took it, or it is where it was. -/
theorem call_move {s : Calls σ ω β ρ} {i j : Nat} {op' : ω} {before : Progress β ρ}
    (h : s.call i = some (op', before)) {shared : σ} {op : ω} {progress : Progress β ρ}
    {c : ω × Progress β ρ} (hc : (s.move i shared op progress).call j = some c) :
    (j = i ∧ c = (op, progress)) ∨ (j ≠ i ∧ s.call j = some c) := by
  by_cases hij : j = i
  · subst hij
    rw [call_move_self h] at hc
    exact .inl ⟨rfl, (Option.some.inj hc).symm⟩
  · rw [call_move_ne s (fun he => hij he.symm)] at hc
    exact .inr ⟨hij, hc⟩

end Calls

namespace Staged

variable (P : Staged σ ω β ρ)

/-- A call with nothing in between. -/
def alone (s : σ) (op : ω) : σ × ρ :=
  match P.first s op with
  | (s, .inl held) => P.second s op held
  | (s, .inr result) => (s, result)

/-- The next step of the `i`th call. -/
def step (s : Calls σ ω β ρ) (i : Nat) : Option (Calls σ ω β ρ) :=
  match s.call i with
  | some (op, .ready) =>
    match P.first s.shared op with
    | (shared, .inl held) => some (s.move i shared op (.holding held))
    | (shared, .inr result) => some (s.move i shared op (.done result))
  | some (op, .holding held) =>
    match P.second s.shared op held with
    | (shared, result) => some (s.move i shared op (.done result))
  | _ => none

/-- If the call is about to act on something, it would read the same now. -/
def Fresh (s : Calls σ ω β ρ) (i : Nat) : Prop :=
  ∀ op held, s.call i = some (op, .holding held) → (P.first s.shared op).2 = .inl held

variable {P} {s t : Calls σ ω β ρ} {i : Nat}

/-- Everything a step can be. -/
theorem step_cases (h : P.step s i = some t) : ∃ op,
    (∃ held, s.call i = some (op, .ready) ∧ (P.first s.shared op).2 = .inl held ∧
      t = s.move i s.shared op (.holding held)) ∨
    (∃ result, s.call i = some (op, .ready) ∧ (P.first s.shared op).2 = .inr result ∧
      t = s.move i (P.first s.shared op).1 op (.done result)) ∨
    (∃ held, s.call i = some (op, .holding held) ∧
      t = s.move i (P.second s.shared op held).1 op (.done (P.second s.shared op held).2)) := by
  unfold step at h
  split at h
  next op hcall =>
    refine ⟨op, ?_⟩
    split at h
    next shared held hfirst =>
      have hreads := P.first_reads s.shared op held (by rw [hfirst])
      rw [hfirst] at hreads
      have hshared : shared = s.shared := hreads
      subst hshared
      exact .inl ⟨held, hcall, by rw [hfirst], (Option.some.inj h).symm⟩
    next shared result hfirst =>
      refine .inr (.inl ⟨result, hcall, by rw [hfirst], ?_⟩)
      rw [hfirst]
      exact (Option.some.inj h).symm
  next op held hcall => exact ⟨op, .inr (.inr ⟨held, hcall, (Option.some.inj h).symm⟩)⟩
  next => simp at h

theorem step_reads {op : ω} {held : β} (hcall : s.call i = some (op, .ready))
    (h : P.first s.shared op = (s.shared, .inl held)) :
    P.step s i = some (s.move i s.shared op (.holding held)) := by
  unfold step
  rw [hcall]
  dsimp only
  rw [h]

theorem step_ends {op : ω} {shared : σ} {result : ρ} (hcall : s.call i = some (op, .ready))
    (h : P.first s.shared op = (shared, .inr result)) :
    P.step s i = some (s.move i shared op (.done result)) := by
  unfold step
  rw [hcall]
  dsimp only
  rw [h]

theorem step_acts {op : ω} {held : β} {shared : σ} {result : ρ}
    (hcall : s.call i = some (op, .holding held))
    (h : P.second s.shared op held = (shared, result)) :
    P.step s i = some (s.move i shared op (.done result)) := by
  unfold step
  rw [hcall]
  show some (s.move i (P.second s.shared op held).1 op (.done (P.second s.shared op held).2)) = _
  rw [h]

/-- A call that is over stays so. -/
theorem done_step (h : P.step s i = some t) {j : Nat} {op : ω} {result : ρ}
    (hj : s.call j = some (op, .done result)) : t.call j = some (op, .done result) := by
  have hmove : ∀ {op' shared before after}, s.call i = some (op', before) →
      (∀ result, before ≠ .done result) →
      (s.move i shared op' after).call j = some (op, .done result) := by
    intro op' shared before after hcall hbefore
    by_cases hij : i = j
    · rw [hij, hj] at hcall
      exact absurd (Prod.mk.inj (Option.some.inj hcall)).2.symm (hbefore result)
    · rw [Calls.call_move_ne s hij, hj]
  obtain ⟨op', ⟨held, hcall, _, rfl⟩ | ⟨result', hcall, _, rfl⟩ | ⟨held, hcall, rfl⟩⟩ :=
    step_cases h
  · exact hmove hcall (by simp)
  · exact hmove hcall (by simp)
  · exact hmove hcall (by simp)

theorem alone_of_first {s : σ} {op : ω} {result : ρ} (h : (P.first s op).2 = .inr result) :
    P.alone s op = ((P.first s op).1, result) := by
  unfold alone
  split
  next hfirst =>
    rw [hfirst] at h
    simp at h
  next hfirst =>
    rw [hfirst] at h ⊢
    rw [Sum.inr.inj h]

theorem alone_of_second {s : σ} {op : ω} {held : β} (h : (P.first s op).2 = .inl held) :
    P.alone s op = P.second s op held := by
  have hreads := P.first_reads s op held h
  unfold alone
  split
  next hfirst =>
    rw [hfirst] at h hreads
    rw [← Sum.inl.inj h, ← show _ = s from hreads]
  next hfirst =>
    rw [hfirst] at h
    simp at h

/-! ## Running one after the other -/

variable (P) in
/-- The calls that are over could have run one after the other, in this order. Each is
listed with its number, what it did and its result. -/
structure Serial (s₀ : σ) (order : List (Nat × ω × ρ)) (s : Calls σ ω β ρ) : Prop where
  nodup : (order.map Prod.fst).Nodup
  mem : ∀ i op result, (i, op, result) ∈ order ↔ s.call i = some (op, .done result)
  history_eq : history P.alone s₀ (order.map fun call => call.2.1) = order.map Prod.snd
  after_eq : after P.alone s₀ (order.map fun call => call.2.1) = s.shared

theorem serial_start (s₀ : σ) (ops : List ω) : P.Serial s₀ [] (Calls.start s₀ ops) where
  nodup := List.nodup_nil
  mem := by
    intro i op result
    constructor
    · intro h
      simp at h
    · intro h
      exact absurd (Calls.call_start h).2 (by simp)
  history_eq := rfl
  after_eq := rfl

/-- A call that ends goes to the end of the order, if it has done what it would do alone. -/
theorem Serial.append {s₀ : σ} {order : List (Nat × ω × ρ)} (h : P.Serial s₀ order s) {op : ω}
    {before : Progress β ρ} {result : ρ} (hcall : s.call i = some (op, before))
    (hbefore : ∀ result, before ≠ .done result) {shared : σ}
    (halone : P.alone s.shared op = (shared, result)) :
    P.Serial s₀ (order ++ [(i, op, result)]) (s.move i shared op (.done result)) := by
  have hnew : ∀ op' result', (i, op', result') ∉ order := by
    intro op' result' hmem
    have hdone := (h.mem i op' result').mp hmem
    rw [hcall] at hdone
    exact hbefore result' (Prod.mk.inj (Option.some.inj hdone)).2
  refine ⟨?_, ?_, ?_, ?_⟩
  · rw [List.map_append, List.nodup_append]
    refine ⟨h.nodup, by simp, ?_⟩
    intro j hj j' hj' he
    obtain ⟨⟨_, op', result'⟩, hmem, rfl⟩ := List.mem_map.mp hj
    obtain rfl : j' = i := by simpa using hj'
    exact hnew op' result' (he ▸ hmem)
  · intro j op' result'
    rw [List.mem_append, List.mem_singleton]
    by_cases hij : i = j
    · subst hij
      rw [Calls.call_move_self hcall]
      constructor
      · intro hmem
        rcases hmem with hmem | hmem
        · exact absurd hmem (hnew op' result')
        · obtain ⟨_, rfl, rfl⟩ : i = i ∧ op' = op ∧ result' = result := by simpa using hmem
          rfl
      · intro hdone
        obtain ⟨rfl, rfl⟩ : op = op' ∧ result = result' := by simpa using hdone
        exact .inr rfl
    · rw [Calls.call_move_ne s hij, ← h.mem]
      constructor
      · intro hmem
        rcases hmem with hmem | hmem
        · exact hmem
        · exact absurd (Prod.mk.inj hmem).1.symm hij
      · exact .inl
  · rw [List.map_append, history_append, h.history_eq, h.after_eq, List.map_append]
    simp [history, halone]
  · rw [List.map_append, after_append, h.after_eq]
    simp [after, halone]

theorem serial_step {s₀ : σ} (h : ∃ order, P.Serial s₀ order s) (hfresh : P.Fresh s i)
    (hstep : P.step s i = some t) : ∃ order, P.Serial s₀ order t := by
  obtain ⟨order, horder⟩ := h
  obtain ⟨op, ⟨held, hcall, _, rfl⟩ | ⟨result, hcall, hfirst, rfl⟩ | ⟨held, hcall, rfl⟩⟩ :=
    step_cases hstep
  · -- a first step that only reads ends no call
    refine ⟨order, horder.nodup, ?_, horder.history_eq, horder.after_eq⟩
    intro j op' result
    rw [horder.mem]
    by_cases hij : i = j
    · subst hij
      rw [Calls.call_move_self hcall, hcall]
      simp
    · rw [Calls.call_move_ne s hij]
  · exact ⟨_, horder.append hcall (by simp) (alone_of_first hfirst)⟩
  · exact ⟨_, horder.append hcall (by simp) (alone_of_second (hfresh op held hcall))⟩

/-- Where every second step is fresh, the calls could have run one after the other. -/
theorem serial_of_fresh {s₀ : σ} {ops : List ω} {schedule : List Nat}
    (hfresh : Always P.step P.Fresh (Calls.start s₀ ops) schedule)
    (hrun : run P.step (Calls.start s₀ ops) schedule = some t) :
    ∃ order, P.Serial s₀ order t := by
  have hstep : ∀ s i t, (∃ order, P.Serial s₀ order s) → P.Fresh s i → P.step s i = some t →
      ∃ order, P.Serial s₀ order t := by
    intro s i t hserial hfresh hstep
    exact serial_step hserial hfresh hstep
  exact run_invariant hstep ⟨[], serial_start s₀ ops⟩ hfresh hrun

end Staged

end GraphHarness.Trace
