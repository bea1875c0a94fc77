import Mathlib.Logic.Relation
import Mathlib.Data.Finset.Card
import Mathlib.Data.Finset.Dedup
import Mathlib.Data.Finset.SDiff

/-!
# Collecting what a graph reaches

The recursion "for every successor not collected yet: collect it, then recurse
into it", over an arbitrary successor function. The collected set is threaded
through the recursion and is the only thing that stops it, so the graph may be
cyclic.

The recursion is bounded by an explicit call depth; `none` is "the depth ran
out". `collect_total` says which depth is enough, `collect_mono` that more of
it changes nothing, so a theorem about `some` results speaks about the
unbounded recursion.

> `closure_spec`: seeded with its own roots, the result is what the roots reach
> in any number of steps, zero included.
>
> `strictClosure_spec`: not seeded, it is what they reach in at least one step —
> a root is in it exactly when it lies on a cycle or below another root.

A step of the recursion never removes from the collected set, so the set grows by at least one
for each level of the recursion, which bounds the depth (`collect_total`).
-/

namespace GraphHarness.Traverse

open Relation (ReflTransGen TransGen)

variable {α : Type} [DecidableEq α]

/-- The edge relation of a successor function. -/
def Edge (succ : α → List α) (a b : α) : Prop := b ∈ succ a

/-- One pass over a successor list: `visit` every node that is not in `seen`,
with the node already added. -/
def collectEach (visit : α → List α → Option (List α)) : List α → List α → Option (List α)
  | [], seen => some seen
  | w :: ws, seen =>
    if w ∈ seen then collectEach visit ws seen
    else
      match visit w (w :: seen) with
      | some seen' => collectEach visit ws seen'
      | none => none

/-- Add everything below `v` that is not in `seen`; `v` itself is not added. -/
def collect (succ : α → List α) : Nat → α → List α → Option (List α)
  | 0, _, _ => none
  | depth + 1, v, seen => collectEach (collect succ depth) (succ v) seen

/-- What a pass rooted at the nodes `ws` adds to `seen`: the roots, and with
every new node its successors. -/
structure Collected (succ : α → List α) (ws seen out : List α) : Prop where
  mono : ∀ x ∈ seen, x ∈ out
  roots : ∀ w ∈ ws, w ∈ out
  closed : ∀ x ∈ out, x ∉ seen → ∀ w ∈ succ x, w ∈ out
  sound : ∀ x ∈ out, x ∈ seen ∨ ∃ w ∈ ws, ReflTransGen (Edge succ) w x
  nodup : seen.Nodup → out.Nodup

theorem collectEach_spec {succ : α → List α} {visit : α → List α → Option (List α)}
    (hvisit : ∀ v seen out, visit v seen = some out → Collected succ (succ v) seen out) :
    ∀ (ws seen : List α) {out : List α}, collectEach visit ws seen = some out →
      Collected succ ws seen out := by
  intro ws
  induction ws with
  | nil =>
    intro seen out h
    obtain rfl : seen = out := by simpa [collectEach] using h
    exact ⟨fun _ hx => hx, by simp, fun x hx hns => absurd hx hns,
      fun _ hx => Or.inl hx, id⟩
  | cons w ws ih =>
    intro seen out h
    rw [collectEach] at h
    split at h
    next hw =>
      have hc := ih seen h
      refine ⟨hc.mono, ?_, hc.closed, ?_, hc.nodup⟩
      · intro x hx
        rcases List.mem_cons.mp hx with rfl | hx
        · exact hc.mono x hw
        · exact hc.roots x hx
      · intro x hx
        rcases hc.sound x hx with hs | ⟨w', hw', hr⟩
        · exact Or.inl hs
        · exact Or.inr ⟨w', List.mem_cons_of_mem _ hw', hr⟩
    next hw =>
      split at h
      next seen' hv =>
        have h₁ := hvisit w (w :: seen) seen' hv
        have h₂ := ih seen' h
        have hwmem : w ∈ seen' := h₁.mono w (List.mem_cons_self ..)
        refine ⟨fun x hx => h₂.mono x (h₁.mono x (List.mem_cons_of_mem _ hx)), ?_, ?_, ?_, ?_⟩
        · intro x hx
          rcases List.mem_cons.mp hx with rfl | hx
          · exact h₂.mono x hwmem
          · exact h₂.roots x hx
        · -- a new node is `w`, or was added below `w`, or by the rest of the pass
          intro x hx hns y hy
          by_cases hx' : x ∈ seen'
          · apply h₂.mono
            by_cases hxw : x = w
            · subst hxw
              exact h₁.roots y hy
            · exact h₁.closed x hx' (by simp [hxw, hns]) y hy
          · exact h₂.closed x hx hx' y hy
        · intro x hx
          rcases h₂.sound x hx with hs | ⟨w', hw', hr⟩
          · rcases h₁.sound x hs with hs' | ⟨w', hw', hr⟩
            · rcases List.mem_cons.mp hs' with rfl | hs'
              · exact Or.inr ⟨x, List.mem_cons_self .., ReflTransGen.refl⟩
              · exact Or.inl hs'
            · exact Or.inr ⟨w, List.mem_cons_self .., ReflTransGen.head hw' hr⟩
          · exact Or.inr ⟨w', List.mem_cons_of_mem _ hw', hr⟩
        · intro hn
          exact h₂.nodup (h₁.nodup (List.nodup_cons.mpr ⟨hw, hn⟩))
      next => simp at h

/-- **Collecting is sound and complete** below `v`, relative to what had been
collected before. -/
theorem collect_spec (succ : α → List α) :
    ∀ (depth : Nat) (v : α) (seen out : List α), collect succ depth v seen = some out →
      Collected succ (succ v) seen out := by
  intro depth
  induction depth with
  | zero => intro v seen out h; simp [collect] at h
  | succ depth ih => intro v seen out h; exact collectEach_spec ih (succ v) seen h

/-! ## The call depth -/

/-- Adding a node of `U` to `seen` leaves fewer nodes of `U` to be collected. -/
theorem card_sdiff_cons_lt {U : Finset α} {seen : List α} {w : α} (hU : w ∈ U)
    (hw : w ∉ seen) : (U \ (w :: seen).toFinset).card < (U \ seen.toFinset).card := by
  apply Finset.card_lt_card
  rw [Finset.ssubset_iff_of_subset]
  · exact ⟨w, by simp [hU, hw], by simp⟩
  · intro x hx
    simp only [Finset.mem_sdiff, List.mem_toFinset, List.mem_cons, not_or] at hx ⊢
    exact ⟨hx.1, hx.2.2⟩

theorem collectEach_total {succ : α → List α} {U : Finset α} {depth : Nat}
    {visit : α → List α → Option (List α)}
    (hspec : ∀ v seen out, visit v seen = some out → Collected succ (succ v) seen out)
    (htotal : ∀ v seen, (U \ seen.toFinset).card < depth → ∃ out, visit v seen = some out) :
    ∀ (ws seen : List α), (∀ w ∈ ws, w ∈ U) → (U \ seen.toFinset).card < depth + 1 →
      ∃ out, collectEach visit ws seen = some out := by
  intro ws
  induction ws with
  | nil => intro seen _ _; exact ⟨seen, rfl⟩
  | cons w ws ih =>
    intro seen hU hlt
    rw [collectEach]
    by_cases hw : w ∈ seen
    · rw [if_pos hw]
      exact ih seen (fun x hx => hU x (List.mem_cons_of_mem _ hx)) hlt
    · rw [if_neg hw]
      have hsmall := card_sdiff_cons_lt (hU w (List.mem_cons_self ..)) hw
      obtain ⟨seen', hv⟩ := htotal w (w :: seen) (by omega)
      rw [hv]
      refine ih seen' (fun x hx => hU x (List.mem_cons_of_mem _ hx)) ?_
      -- the first visit only made the set larger
      have hsub : U \ seen'.toFinset ⊆ U \ seen.toFinset := by
        intro x hx
        simp only [Finset.mem_sdiff, List.mem_toFinset] at hx ⊢
        exact ⟨hx.1, fun hs =>
          hx.2 ((hspec w _ _ hv).mono x (List.mem_cons_of_mem _ hs))⟩
      exact Nat.lt_of_le_of_lt (Finset.card_le_card hsub) hlt

/-- A call depth above the number of nodes that can still be collected is never
exhausted, on any graph whose edges end in `U`. -/
theorem collect_total {succ : α → List α} {U : Finset α}
    (hU : ∀ v, ∀ w ∈ succ v, w ∈ U) :
    ∀ (depth : Nat) (v : α) (seen : List α), (U \ seen.toFinset).card < depth →
      ∃ out, collect succ depth v seen = some out := by
  intro depth
  induction depth with
  | zero => intro v seen h; omega
  | succ depth ih =>
    intro v seen h
    exact collectEach_total (collect_spec succ depth) ih (succ v) seen (hU v) h

theorem collectEach_mono {visit visit' : α → List α → Option (List α)}
    (hle : ∀ v seen out, visit v seen = some out → visit' v seen = some out) :
    ∀ (ws seen : List α) {out : List α}, collectEach visit ws seen = some out →
      collectEach visit' ws seen = some out := by
  intro ws
  induction ws with
  | nil => intro seen out h; exact h
  | cons w ws ih =>
    intro seen out h
    rw [collectEach] at h ⊢
    split at h
    next hw => rw [if_pos hw]; exact ih seen h
    next hw =>
      rw [if_neg hw]
      split at h
      next seen' hv => rw [hle _ _ _ hv]; exact ih seen' h
      next => simp at h

/-- A deeper call stack changes no result. -/
theorem collect_mono (succ : α → List α) :
    ∀ {depth depth' : Nat}, depth ≤ depth' → ∀ (v : α) (seen out : List α),
      collect succ depth v seen = some out → collect succ depth' v seen = some out := by
  intro depth
  induction depth with
  | zero => intro depth' _ v seen out h; simp [collect] at h
  | succ depth ih =>
    intro depth' hle v seen out h
    obtain ⟨d, rfl⟩ : ∃ d, depth' = d + 1 := ⟨depth' - 1, by omega⟩
    exact collectEach_mono (ih (by omega)) (succ v) seen h

/-! ## Several roots, one collected set -/

/-- Visit every root, each added before its own visit when `seed` holds. -/
def collectFrom (visit : α → List α → Option (List α)) (seed : Bool) :
    List α → List α → Option (List α)
  | [], seen => some seen
  | v :: vs, seen =>
    match visit v (if seed then seen.insert v else seen) with
    | some seen' => collectFrom visit seed vs seen'
    | none => none

/-- The reflexive closure: every root is collected, then everything below it. -/
abbrev closure (visit : α → List α → Option (List α)) : List α → List α → Option (List α) :=
  collectFrom visit true

/-- The strict closure: only what lies below a root. -/
abbrev strictClosure (visit : α → List α → Option (List α)) :
    List α → List α → Option (List α) :=
  collectFrom visit false

private theorem mem_seeded {seed : Bool} {v x : α} {seen : List α} :
    x ∈ (if seed then seen.insert v else seen) ↔ x ∈ seen ∨ (seed = true ∧ x = v) := by
  cases seed
  · simp
  · simp [or_comm]

private theorem nodup_seeded {seed : Bool} {v : α} {seen : List α} (h : seen.Nodup) :
    (if seed then seen.insert v else seen).Nodup := by
  split
  · exact List.Nodup.insert h
  · exact h

/-- The set collected so far, with the roots `done`: closed under successors,
nothing missing below a root, nothing collected that no root reaches. -/
structure Below (succ : α → List α) (seed : Bool) (done seen : List α) : Prop where
  nodup : seen.Nodup
  closed : ∀ x ∈ seen, ∀ w ∈ succ x, w ∈ seen
  roots : ∀ v ∈ done, (seed = true → v ∈ seen) ∧ ∀ w ∈ succ v, w ∈ seen
  sound : ∀ x ∈ seen, ∃ v ∈ done,
    if seed = true then ReflTransGen (Edge succ) v x else TransGen (Edge succ) v x

theorem below_collect {succ : α → List α} {seed : Bool} {depth : Nat} {done seen out : List α}
    {v : α} (hb : Below succ seed done seen)
    (h : collect succ depth v (if seed then seen.insert v else seen) = some out) :
    Below succ seed (done ++ [v]) out := by
  have hc := collect_spec succ depth v _ out h
  have hseen : ∀ x ∈ seen, x ∈ out := fun x hx => hc.mono x (mem_seeded.mpr (Or.inl hx))
  have hv : seed = true → v ∈ out := fun hs => hc.mono v (mem_seeded.mpr (Or.inr ⟨hs, rfl⟩))
  refine ⟨hc.nodup (nodup_seeded hb.nodup), ?_, ?_, ?_⟩
  · intro x hx w hw
    -- an old node kept its successors; `v` got them as roots; a new one was closed by the visit
    by_cases hxs : x ∈ seen
    · exact hseen w (hb.closed x hxs w hw)
    · by_cases hxv : x = v
      · subst hxv
        exact hc.roots w hw
      · refine hc.closed x hx (fun hs => ?_) w hw
        rcases mem_seeded.mp hs with hs | ⟨_, hs⟩
        · exact hxs hs
        · exact hxv hs
  · intro u hu
    rcases List.mem_append.mp hu with hu | hu
    · obtain ⟨h₁, h₂⟩ := hb.roots u hu
      exact ⟨fun hs => hseen u (h₁ hs), fun w hw => hseen w (h₂ w hw)⟩
    · obtain rfl : u = v := by simpa using hu
      exact ⟨hv, hc.roots⟩
  · intro x hx
    rcases hc.sound x hx with hs | ⟨w, hw, hr⟩
    · rcases mem_seeded.mp hs with hs | ⟨hseed, rfl⟩
      · obtain ⟨u, hu, hru⟩ := hb.sound x hs
        exact ⟨u, List.mem_append_left _ hu, hru⟩
      · refine ⟨x, by simp, ?_⟩
        rw [if_pos hseed]
    · refine ⟨v, by simp, ?_⟩
      have htr : TransGen (Edge succ) v x := TransGen.head' hw hr
      split
      · exact htr.to_reflTransGen
      · exact htr

theorem below_collectFrom {succ : α → List α} {seed : Bool} {depth : Nat} :
    ∀ (vs : List α) {done seen out : List α}, Below succ seed done seen →
      collectFrom (collect succ depth) seed vs seen = some out →
        Below succ seed (done ++ vs) out := by
  intro vs
  induction vs with
  | nil =>
    intro done seen out hb h
    obtain rfl : seen = out := by simpa [collectFrom] using h
    simpa using hb
  | cons v vs ih =>
    intro done seen out hb h
    rw [collectFrom] at h
    split at h
    next seen' hv =>
      rw [show done ++ v :: vs = (done ++ [v]) ++ vs from by simp]
      exact ih (below_collect hb hv) h
    next => simp at h

omit [DecidableEq α] in
/-- Membership follows a path into the collected set. -/
theorem mem_of_reach {succ : α → List α} {seen : List α}
    (hclosed : ∀ x ∈ seen, ∀ w ∈ succ x, w ∈ seen) {v x : α} (hv : v ∈ seen)
    (hr : ReflTransGen (Edge succ) v x) : x ∈ seen := by
  induction hr with
  | refl => exact hv
  | tail _ hstep ih => exact hclosed _ ih _ hstep

omit [DecidableEq α] in
theorem below_empty (succ : α → List α) (seed : Bool) : Below succ seed [] [] :=
  ⟨List.nodup_nil, by simp, by simp, by simp⟩

/-- **The seeded closure** is what the roots reach, each node once. -/
theorem closure_spec {succ : α → List α} {depth : Nat} {vs out : List α}
    (h : closure (collect succ depth) vs [] = some out) :
    out.Nodup ∧ ∀ x, x ∈ out ↔ ∃ v ∈ vs, ReflTransGen (Edge succ) v x := by
  have hb : Below succ true vs out := by
    simpa using below_collectFrom vs (below_empty succ true) h
  refine ⟨hb.nodup, fun x => ⟨fun hx => by simpa using hb.sound x hx, ?_⟩⟩
  rintro ⟨v, hv, hr⟩
  exact mem_of_reach hb.closed ((hb.roots v hv).1 rfl) hr

/-- **The strict closure** is what the roots reach in at least one step. -/
theorem strictClosure_spec {succ : α → List α} {depth : Nat} {vs out : List α}
    (h : strictClosure (collect succ depth) vs [] = some out) :
    out.Nodup ∧ ∀ x, x ∈ out ↔ ∃ v ∈ vs, TransGen (Edge succ) v x := by
  have hb : Below succ false vs out := by
    simpa using below_collectFrom vs (below_empty succ false) h
  refine ⟨hb.nodup, fun x => ⟨fun hx => by simpa using hb.sound x hx, ?_⟩⟩
  rintro ⟨v, hv, hr⟩
  -- the first step leads to a root of the visit
  obtain ⟨w, hvw, hwx⟩ := TransGen.head'_iff.mp hr
  exact mem_of_reach hb.closed ((hb.roots v hv).2 w hvw) hwx

theorem collectFrom_total {succ : α → List α} {U : Finset α} {seed : Bool} {depth : Nat}
    (hU : ∀ v, ∀ w ∈ succ v, w ∈ U) (hdepth : U.card < depth) :
    ∀ (vs seen : List α), ∃ out, collectFrom (collect succ depth) seed vs seen = some out := by
  intro vs
  induction vs with
  | nil => intro seen; exact ⟨seen, rfl⟩
  | cons v vs ih =>
    intro seen
    obtain ⟨seen', hv⟩ := collect_total hU depth v (if seed then seen.insert v else seen)
      (Nat.lt_of_le_of_lt (Finset.card_le_card Finset.sdiff_subset) hdepth)
    rw [collectFrom, hv]
    exact ih seen'

theorem collectFrom_mono {succ : α → List α} {seed : Bool} {depth depth' : Nat}
    (hle : depth ≤ depth') :
    ∀ (vs seen : List α) {out : List α}, collectFrom (collect succ depth) seed vs seen = some out →
      collectFrom (collect succ depth') seed vs seen = some out := by
  intro vs
  induction vs with
  | nil => intro seen out h; exact h
  | cons v vs ih =>
    intro seen out h
    rw [collectFrom] at h ⊢
    split at h
    next seen' hv => rw [collect_mono succ hle _ _ _ hv]; exact ih seen' h
    next => simp at h

end GraphHarness.Traverse
