import GraphHarness.Traverse.Collect

/-!
# Depth-first ordering with cycle detection

The textbook depth-first search with three collections — `visited`, `visiting`
(the nodes on the current path, removed again on the way back) and `result`
(appended to when a node is finished) — over an arbitrary successor function.
A node met again while it is being visited is reported as an error.

Two invariants carry everything:

* `Good`: `result` lists the visited nodes once, and behind every node all its
  successors are already listed before it;
* the nodes being visited all reach the node the search is at.

The first gives soundness of the order (`order_spec`) and, because an ordered
list cannot contain a cycle, completeness of the detection (`order_acyclic`);
the second turns every reported error into a cycle (`order_error`).

The search over several roots shares its three collections. `order_error_iff` puts the two
sides together: the search fails exactly if a cycle can be reached from a root.
`hasCycleIn_iff` turns that into a statement about a subgraph that is closed under the
successor function.
-/

namespace GraphHarness.Traverse

open Relation (ReflTransGen TransGen)

variable {α ε : Type} [DecidableEq α]

/-- The three collections the search threads through. -/
structure Walk (α : Type) where
  visited : List α
  visiting : List α
  result : List α
  deriving Repr, DecidableEq

/-- Nothing visited yet. -/
def Walk.empty : Walk α := ⟨[], [], []⟩

/-- Visit every node of a list that is not visited yet; stop at an error. -/
def visitEach (visit : α → Walk α → Option (Except ε (Walk α))) :
    List α → Walk α → Option (Except ε (Walk α))
  | [], st => some (.ok st)
  | w :: ws, st =>
    if w ∈ st.visited then visitEach visit ws st
    else
      match visit w st with
      | some (.ok st') => visitEach visit ws st'
      | stop => stop

/-- Visit `v`: its successors first, then `v` itself. `none` is an exhausted
call depth. -/
def depthFirst (succ : α → List α) (circular : α → ε) :
    Nat → α → Walk α → Option (Except ε (Walk α))
  | 0, _, _ => none
  | depth + 1, v, st =>
    if v ∈ st.visiting then some (.error (circular v))
    else
      match visitEach (depthFirst succ circular depth) (succ v)
          { st with visiting := st.visiting.insert v } with
      | some (.ok st') =>
        some (.ok { visited := st'.visited.insert v
                    visiting := st'.visiting.erase v
                    result := st'.result ++ [v] })
      | stop => stop

/-! ## The path is put back -/

theorem visitEach_visiting {visit : α → Walk α → Option (Except ε (Walk α))}
    (hvisit : ∀ w st st', visit w st = some (.ok st') → st'.visiting = st.visiting) :
    ∀ (ws : List α) (st st' : Walk α), visitEach visit ws st = some (.ok st') →
      st'.visiting = st.visiting := by
  intro ws
  induction ws with
  | nil =>
    intro st st' h
    obtain rfl : st = st' := by simpa [visitEach] using h
    rfl
  | cons w ws ih =>
    intro st st' h
    rw [visitEach] at h
    split at h
    next => exact ih st st' h
    next =>
      split at h
      next st₁ hv => exact (ih st₁ st' h).trans (hvisit w st st₁ hv)
      next hstop => exact absurd h (hstop st')

/-- A successful visit leaves the path as it found it. -/
theorem depthFirst_visiting (succ : α → List α) (circular : α → ε) :
    ∀ depth v (st st' : Walk α), depthFirst succ circular depth v st = some (.ok st') →
      st'.visiting = st.visiting := by
  intro depth
  induction depth with
  | zero => intro v st st' h; simp [depthFirst] at h
  | succ depth ih =>
    intro v st st' h
    rw [depthFirst] at h
    split at h
    next => simp at h
    next hpath =>
      split at h
      next st₁ hvis =>
        simp only [Option.some.injEq, Except.ok.injEq] at h
        subst h
        rw [visitEach_visiting ih _ _ _ hvis]
        simp [List.insert_of_not_mem hpath]
      next hstop => exact absurd h (hstop st')

/-! ## What a successful visit does -/

/-- The finished nodes, in an order that has every successor first; a node on
the current path is not among them. -/
structure Good (succ : α → List α) (st : Walk α) : Prop where
  visited : ∀ x, x ∈ st.visited ↔ x ∈ st.result
  nodup : st.result.Nodup
  ordered : ∀ pre x post, st.result = pre ++ x :: post → ∀ w ∈ succ x, w ∈ pre
  pending : ∀ x ∈ st.visiting, x ∉ st.visited

omit [DecidableEq α] in
theorem good_empty (succ : α → List α) : Good succ Walk.empty :=
  ⟨by simp [Walk.empty], by simp [Walk.empty], by simp [Walk.empty], by simp [Walk.empty]⟩

/-- `st'` continues `st`: only nodes reached from `ws` were finished since. -/
def Continues (succ : α → List α) (ws : List α) (st st' : Walk α) : Prop :=
  ∃ new, st'.result = st.result ++ new ∧ ∀ x ∈ new, ∃ w ∈ ws, ReflTransGen (Edge succ) w x

/-- What `visit v` promises on an unvisited `v`: it finishes nodes below `v`,
and `v` last. -/
def VisitSpec (succ : α → List α) (visit : α → Walk α → Option (Except ε (Walk α))) : Prop :=
  ∀ v st st', Good succ st → v ∉ st.visited → visit v st = some (.ok st') →
    Good succ st' ∧
      ∃ new, st'.result = st.result ++ (new ++ [v]) ∧ ∀ x ∈ new, TransGen (Edge succ) v x

theorem visitEach_spec {succ : α → List α} {visit : α → Walk α → Option (Except ε (Walk α))}
    (hvisit : VisitSpec succ visit) :
    ∀ (ws : List α) {st st' : Walk α}, Good succ st → visitEach visit ws st = some (.ok st') →
      Good succ st' ∧ Continues succ ws st st' ∧ ∀ w ∈ ws, w ∈ st'.visited := by
  intro ws
  induction ws with
  | nil =>
    intro st st' hg h
    obtain rfl : st = st' := by simpa [visitEach] using h
    exact ⟨hg, ⟨[], by simp, by simp⟩, by simp⟩
  | cons w ws ih =>
    intro st st' hg h
    rw [visitEach] at h
    split at h
    -- already finished: the rest of the list is all there is to do
    next hw =>
      obtain ⟨hg', ⟨new, hres, hnew⟩, hall⟩ := ih hg h
      refine ⟨hg', ⟨new, hres, fun x hx => ?_⟩, fun x hx => ?_⟩
      · obtain ⟨u, hu, hr⟩ := hnew x hx
        exact ⟨u, List.mem_cons_of_mem _ hu, hr⟩
      · rcases List.mem_cons.mp hx with rfl | hx
        · rw [hg'.visited, hres]
          exact List.mem_append_left _ ((hg.visited x).mp hw)
        · exact hall x hx
    next hw =>
      split at h
      next st₁ hv =>
        -- what this visit adds lies below `w`, what the rest adds below another successor
        obtain ⟨hg₁, new₁, hres₁, hnew₁⟩ := hvisit w st st₁ hg hw hv
        obtain ⟨hg', ⟨new, hres, hnew⟩, hall⟩ := ih hg₁ h
        have hwmem : w ∈ st'.visited := by
          rw [hg'.visited, hres, hres₁]
          simp
        refine ⟨hg', ⟨new₁ ++ [w] ++ new, ?_, fun x hx => ?_⟩, fun x hx => ?_⟩
        · rw [hres, hres₁]
          simp
        · rcases List.mem_append.mp hx with hx | hx
          · refine ⟨w, List.mem_cons_self .., ?_⟩
            rcases List.mem_append.mp hx with hx | hx
            · exact (hnew₁ x hx).to_reflTransGen
            · obtain rfl : x = w := by simpa using hx
              exact ReflTransGen.refl
          · obtain ⟨u, hu, hr⟩ := hnew x hx
            exact ⟨u, List.mem_cons_of_mem _ hu, hr⟩
        · rcases List.mem_cons.mp hx with rfl | hx
          · exact hwmem
          · exact hall x hx
      next hstop => exact absurd h (hstop st')

omit [DecidableEq α] in
/-- Finishing `v` behind its successors keeps the order. -/
theorem ordered_snoc {succ : α → List α} {result : List α} {v : α}
    (hord : ∀ pre x post, result = pre ++ x :: post → ∀ w ∈ succ x, w ∈ pre)
    (hv : ∀ w ∈ succ v, w ∈ result) :
    ∀ pre x post, result ++ [v] = pre ++ x :: post → ∀ w ∈ succ x, w ∈ pre := by
  intro pre x post h w hw
  rcases List.append_eq_append_iff.mp h with ⟨mid, hpre, hmid⟩ | ⟨mid, hres, hmid⟩
  · -- `x` is not in `result`: the only node behind it is `v`
    have hx : mid = [] ∧ v = x := by
      cases mid with
      | nil => exact ⟨rfl, by simpa using congrArg List.head? hmid⟩
      | cons _ _ => simp at hmid
    obtain ⟨rfl, rfl⟩ := hx
    rw [hpre, List.append_nil]
    exact hv w hw
  · cases mid with
    | nil =>
      obtain rfl : x = v := by simpa using congrArg List.head? hmid
      rw [List.append_nil] at hres
      exact hres ▸ hv w hw
    | cons y mid =>
      obtain rfl : x = y := by simpa using congrArg List.head? hmid
      exact hord pre x mid hres w hw

theorem depthFirst_spec (succ : α → List α) (circular : α → ε) :
    ∀ depth, VisitSpec succ (depthFirst succ circular depth) := by
  intro depth
  induction depth with
  | zero => intro v st st' _ _ h; simp [depthFirst] at h
  | succ depth ih =>
    intro v st st' hg hnv h
    rw [depthFirst] at h
    split at h
    next => simp at h
    next hpath =>
      -- putting `v` on the path breaks nothing: it is not finished yet
      have hg₀ : Good succ { st with visiting := st.visiting.insert v } := by
        refine ⟨hg.visited, hg.nodup, hg.ordered, fun x hx => ?_⟩
        rcases List.mem_insert_iff.mp hx with rfl | hx
        · exact hnv
        · exact hg.pending x hx
      split at h
      next st₁ hvis =>
        obtain ⟨hg₁, ⟨new, hres, hnew⟩, hall⟩ := visitEach_spec ih (succ v) hg₀ hvis
        have hpath₁ := visitEach_visiting (depthFirst_visiting succ circular depth) _ _ _ hvis
        -- nor has it been finished by the visits below it
        have hvis₁ : v ∉ st₁.visited := hg₁.pending v (by rw [hpath₁]; simp)
        have hres₁ : v ∉ st₁.result := fun hv => hvis₁ ((hg₁.visited v).mpr hv)
        have hback : st₁.visiting.erase v = st.visiting := by
          rw [hpath₁]
          simp [List.insert_of_not_mem hpath]
        simp only [Option.some.injEq, Except.ok.injEq] at h
        subst h
        refine ⟨⟨fun x => ?_, ?_, ?_, ?_⟩, new, by simp [hres], fun x hx => ?_⟩
        · simp [hg₁.visited, or_comm]
        · exact List.Nodup.append hg₁.nodup (List.nodup_singleton v) (by simpa using hres₁)
        · exact ordered_snoc hg₁.ordered (fun w hw => (hg₁.visited w).mp (hall w hw))
        · intro x hx
          rw [hback] at hx
          have hxv : x ≠ v := fun he => hpath (he ▸ hx)
          have := hg₁.pending x (by rw [hpath₁]; simp [hx])
          simp [hxv, this]
        · obtain ⟨w, hw, hr⟩ := hnew x hx
          exact TransGen.head' hw hr
      next hstop => exact absurd h (hstop st')

/-! ## What an error says -/

/-- The error names a node below `v` that lies on a cycle. -/
def ClosesCycle (succ : α → List α) (circular : α → ε) (v : α) (e : ε) : Prop :=
  ∃ c, e = circular c ∧ ReflTransGen (Edge succ) v c ∧ TransGen (Edge succ) c c

theorem visitEach_error {succ : α → List α} {circular : α → ε} {v : α}
    {visit : α → Walk α → Option (Except ε (Walk α))}
    (hpath : ∀ w st st', visit w st = some (.ok st') → st'.visiting = st.visiting)
    (herr : ∀ w st e, (∀ x ∈ st.visiting, TransGen (Edge succ) x w) →
      visit w st = some (.error e) → ClosesCycle succ circular w e) :
    ∀ (ws : List α), (∀ w ∈ ws, ReflTransGen (Edge succ) v w) → ∀ (st : Walk α) {e : ε},
      (∀ x ∈ st.visiting, ∀ w ∈ ws, TransGen (Edge succ) x w) →
      visitEach visit ws st = some (.error e) → ClosesCycle succ circular v e := by
  intro ws
  induction ws with
  | nil => intro _ st e _ h; simp [visitEach] at h
  | cons w ws ih =>
    intro hws st e hreach h
    have ih' := ih (fun x hx => hws x (List.mem_cons_of_mem _ hx))
    have hreach' : ∀ x ∈ st.visiting, ∀ u ∈ ws, TransGen (Edge succ) x u :=
      fun x hx u hu => hreach x hx u (List.mem_cons_of_mem _ hu)
    rw [visitEach] at h
    split at h
    next => exact ih' st hreach' h
    next =>
      split at h
      next st₁ hv =>
        refine ih' st₁ ?_ h
        rw [hpath w st st₁ hv]
        exact hreach'
      next =>
        obtain ⟨c, hc, hr, hcyc⟩ :=
          herr w st e (fun x hx => hreach x hx w (List.mem_cons_self ..)) h
        exact ⟨c, hc, (hws w (List.mem_cons_self ..)).trans hr, hcyc⟩

/-- While every node of the path reaches `v`, an error means a cycle below `v`. -/
theorem depthFirst_error (succ : α → List α) (circular : α → ε) :
    ∀ depth v (st : Walk α) (e : ε), (∀ x ∈ st.visiting, TransGen (Edge succ) x v) →
      depthFirst succ circular depth v st = some (.error e) → ClosesCycle succ circular v e := by
  intro depth
  induction depth with
  | zero => intro v st e _ h; simp [depthFirst] at h
  | succ depth ih =>
    intro v st e hreach h
    rw [depthFirst] at h
    split at h
    next hpath =>
      -- `v` is on the path, and the path reaches it: a cycle through `v`
      obtain rfl : circular v = e := by simpa using h
      exact ⟨v, rfl, ReflTransGen.refl, hreach v hpath⟩
    next hpath =>
      split at h
      next => simp at h
      next =>
        refine visitEach_error (depthFirst_visiting succ circular depth) ih (succ v)
          (fun w hw => ReflTransGen.single hw) _ ?_ h
        intro x hx w hw
        rcases List.mem_insert_iff.mp hx with rfl | hx
        · exact TransGen.single hw
        · exact (hreach x hx).tail hw

/-! ## The call depth -/

theorem visitEach_total (U : Finset α) (depth : Nat) (ok : α → Prop)
    {visit : α → Walk α → Option (Except ε (Walk α))}
    (hpath : ∀ w st st', visit w st = some (.ok st') → st'.visiting = st.visiting)
    (htotal : ∀ w st, ok w → (U \ st.visiting.toFinset).card < depth → ∃ r, visit w st = some r) :
    ∀ (ws : List α) (st : Walk α), (∀ w ∈ ws, ok w) → (U \ st.visiting.toFinset).card < depth →
      ∃ r, visitEach visit ws st = some r := by
  intro ws
  induction ws with
  | nil => intro st _ _; exact ⟨_, rfl⟩
  | cons w ws ih =>
    intro st hok hlt
    have hok' : ∀ x ∈ ws, ok x := fun x hx => hok x (List.mem_cons_of_mem _ hx)
    rw [visitEach]
    split
    next => exact ih st hok' hlt
    next =>
      obtain ⟨r, hr⟩ := htotal w st (hok w (List.mem_cons_self ..)) hlt
      rw [hr]
      cases r with
      | error e => exact ⟨_, rfl⟩
      | ok st' => exact ih st' hok' (by rw [hpath w st st' hr]; exact hlt)

/-- A call depth above the number of nodes of `U` not on the path is never
exhausted: every level of the recursion puts another of them on the path. -/
theorem depthFirst_total {succ : α → List α} (circular : α → ε) {U : Finset α}
    (hU : ∀ v, ∀ w ∈ succ v, w ∈ U) :
    ∀ (depth : Nat) (v : α) (st : Walk α), (v ∈ U ∨ succ v = []) →
      (U \ st.visiting.toFinset).card < depth →
      ∃ r, depthFirst succ circular depth v st = some r := by
  intro depth
  induction depth with
  | zero => intro v st _ h; omega
  | succ depth ih =>
    intro v st hv hlt
    rw [depthFirst]
    split
    next => exact ⟨_, rfl⟩
    next hpath =>
      -- one level down the path is longer by `v`, a node of `U`, or there are no successors
      have hloop : ∃ r, visitEach (depthFirst succ circular depth) (succ v)
          { st with visiting := st.visiting.insert v } = some r := by
        rcases hv with hv | hv
        · refine visitEach_total U depth (· ∈ U) (depthFirst_visiting succ circular depth)
            (fun w st hw => ih w st (Or.inl hw)) (succ v) _ (hU v) ?_
          have hsmall := card_sdiff_cons_lt hv hpath
          rw [List.insert_of_not_mem hpath]
          exact Nat.lt_of_lt_of_le hsmall (Nat.lt_succ_iff.mp hlt)
        · rw [hv]
          exact ⟨_, rfl⟩
      obtain ⟨r, hr⟩ := hloop
      rw [hr]
      cases r with
      | error e => exact ⟨_, rfl⟩
      | ok st' => exact ⟨_, rfl⟩

theorem visitEach_mono {visit visit' : α → Walk α → Option (Except ε (Walk α))}
    (hle : ∀ v st r, visit v st = some r → visit' v st = some r) :
    ∀ (ws : List α) (st : Walk α) {r : Except ε (Walk α)},
      visitEach visit ws st = some r → visitEach visit' ws st = some r := by
  intro ws
  induction ws with
  | nil => intro st r h; exact h
  | cons w ws ih =>
    intro st r h
    rw [visitEach] at h ⊢
    split at h
    next hw => rw [if_pos hw]; exact ih st h
    next hw =>
      rw [if_neg hw]
      cases hv : visit w st with
      | none => rw [hv] at h; simp at h
      | some q =>
        rw [hle _ _ _ hv]
        rw [hv] at h
        cases q with
        | error e => exact h
        | ok st' => exact ih st' h

/-- A deeper call stack changes no outcome. -/
theorem depthFirst_mono (succ : α → List α) (circular : α → ε) :
    ∀ {depth depth' : Nat}, depth ≤ depth' → ∀ (v : α) (st : Walk α) (r : Except ε (Walk α)),
      depthFirst succ circular depth v st = some r →
      depthFirst succ circular depth' v st = some r := by
  intro depth
  induction depth with
  | zero => intro depth' _ v st r h; simp [depthFirst] at h
  | succ depth ih =>
    intro depth' hle v st r h
    obtain ⟨d, rfl⟩ : ∃ d, depth' = d + 1 := ⟨depth' - 1, by omega⟩
    rw [depthFirst] at h ⊢
    split at h
    next hpath => rw [if_pos hpath]; exact h
    next hpath =>
      rw [if_neg hpath]
      cases hv : visitEach (depthFirst succ circular depth) (succ v)
          { st with visiting := st.visiting.insert v } with
      | none => rw [hv] at h; simp at h
      | some q =>
        rw [visitEach_mono (ih (by omega)) _ _ hv]
        rw [hv] at h
        exact h

/-! ## The whole search -/

/-- The finishing order of a search started at every node of `starts`. -/
def order (visit : α → Walk α → Option (Except ε (Walk α))) (starts : List α) :
    Option (Except ε (List α)) :=
  match visitEach visit starts Walk.empty with
  | some (.ok st) => some (.ok st.result)
  | some (.error e) => some (.error e)
  | none => none

theorem order_ok {succ : α → List α} {circular : α → ε} {depth : Nat} {starts out : List α}
    (h : order (depthFirst succ circular depth) starts = some (.ok out)) :
    ∃ st, visitEach (depthFirst succ circular depth) starts Walk.empty = some (.ok st) ∧
      st.result = out := by
  unfold order at h
  split at h
  next st hst => exact ⟨st, hst, by simpa using h⟩
  next => simp at h
  next => simp at h

/-- **The order is right**: no node twice, successors first, and exactly the
nodes reached from `starts`. -/
theorem order_spec {succ : α → List α} {circular : α → ε} {depth : Nat} {starts out : List α}
    (h : order (depthFirst succ circular depth) starts = some (.ok out)) :
    out.Nodup ∧ (∀ x, x ∈ out ↔ ∃ s ∈ starts, ReflTransGen (Edge succ) s x) ∧
      ∀ pre x post, out = pre ++ x :: post → ∀ w ∈ succ x, w ∈ pre := by
  obtain ⟨st, hst, rfl⟩ := order_ok h
  obtain ⟨hg, ⟨new, hres, hnew⟩, hall⟩ :=
    visitEach_spec (depthFirst_spec succ circular depth) starts (good_empty succ) hst
  have hresult : st.result = new := by simpa [Walk.empty] using hres
  refine ⟨hg.nodup, fun x => ⟨fun hx => hnew x (hresult ▸ hx), ?_⟩, hg.ordered⟩
  rintro ⟨s, hs, hr⟩
  -- what is finished is closed under successors
  refine mem_of_reach (fun y hy w hw => ?_) ((hg.visited s).mp (hall s hs)) hr
  obtain ⟨pre, post, hsplit⟩ := List.append_of_mem hy
  rw [hsplit]
  exact List.mem_append_left _ (hg.ordered pre y post hsplit w hw)

omit [DecidableEq α] in
/-- In an ordered list everything below a node stands before it. -/
theorem mem_before_of_reach {succ : α → List α} {out : List α}
    (hord : ∀ pre x post, out = pre ++ x :: post → ∀ w ∈ succ x, w ∈ pre)
    {x y : α} (hr : TransGen (Edge succ) x y) :
    ∀ {pre post : List α}, out = pre ++ x :: post → y ∈ pre := by
  intro pre post hsplit
  induction hr with
  | single hxy => exact hord pre x post hsplit _ hxy
  | tail _ hyz ih =>
    -- the node reached so far splits the part before `x` once more
    obtain ⟨p, q, hpq⟩ := List.append_of_mem ih
    rw [hpq]
    refine List.mem_append_left _ (hord p _ (q ++ x :: post) ?_ _ hyz)
    rw [hsplit, hpq]
    simp

/-- **Completeness of the detection**: a search that returns an order has
visited no cycle. -/
theorem order_acyclic {succ : α → List α} {circular : α → ε} {depth : Nat} {starts out : List α}
    (h : order (depthFirst succ circular depth) starts = some (.ok out)) {x : α} (hx : x ∈ out) :
    ¬ TransGen (Edge succ) x x := by
  intro hcyc
  obtain ⟨hnodup, _, hord⟩ := order_spec h
  obtain ⟨pre, post, rfl⟩ := List.append_of_mem hx
  exact (List.nodup_append.mp hnodup).2.2 x (mem_before_of_reach hord hcyc rfl)
    x (List.mem_cons_self ..) rfl

/-- **Soundness of the detection**: an error is a cycle below a start. -/
theorem order_error {succ : α → List α} {circular : α → ε} {depth : Nat} {starts : List α} {e : ε}
    (h : order (depthFirst succ circular depth) starts = some (.error e)) :
    ∃ s ∈ starts, ClosesCycle succ circular s e := by
  have herr : visitEach (depthFirst succ circular depth) starts Walk.empty = some (.error e) := by
    unfold order at h
    split at h
    next => simp at h
    next e' he => rw [he]; simpa using h
    next => simp at h
  clear h
  -- the path is empty at every start, so each start is its own root
  have hloop : ∀ (ws : List α) (st : Walk α), st.visiting = [] →
      visitEach (depthFirst succ circular depth) ws st = some (.error e) →
      ∃ s ∈ ws, ClosesCycle succ circular s e := by
    intro ws
    induction ws with
    | nil => intro st _ h; simp [visitEach] at h
    | cons w ws ih =>
      intro st hst h
      rw [visitEach] at h
      split at h
      next =>
        obtain ⟨s, hs, hc⟩ := ih st hst h
        exact ⟨s, List.mem_cons_of_mem _ hs, hc⟩
      next =>
        split at h
        next st₁ hv =>
          have hst₁ := (depthFirst_visiting succ circular depth w st st₁ hv).trans hst
          obtain ⟨s, hs, hc⟩ := ih st₁ hst₁ h
          exact ⟨s, List.mem_cons_of_mem _ hs, hc⟩
        next =>
          exact ⟨w, List.mem_cons_self ..,
            depthFirst_error succ circular depth w st e (by simp [hst]) h⟩
  exact hloop starts Walk.empty rfl herr

theorem order_total {succ : α → List α} (circular : α → ε) {U : Finset α}
    (hU : ∀ v, ∀ w ∈ succ v, w ∈ U) {depth : Nat} (hdepth : U.card < depth) {starts : List α}
    (hstarts : ∀ s ∈ starts, s ∈ U ∨ succ s = []) :
    ∃ r, order (depthFirst succ circular depth) starts = some r := by
  obtain ⟨r, hr⟩ := visitEach_total U depth (fun v => v ∈ U ∨ succ v = [])
    (depthFirst_visiting succ circular depth)
    (fun w st hw hlt => depthFirst_total circular hU depth w st hw hlt) starts Walk.empty hstarts
    (by simpa [Walk.empty] using hdepth)
  rw [order, hr]
  cases r with
  | error e => exact ⟨_, rfl⟩
  | ok st => exact ⟨_, rfl⟩

theorem order_mono {succ : α → List α} {circular : α → ε} {depth depth' : Nat}
    (hle : depth ≤ depth') {starts : List α} {r : Except ε (List α)}
    (h : order (depthFirst succ circular depth) starts = some r) :
    order (depthFirst succ circular depth') starts = some r := by
  unfold order at h ⊢
  cases hv : visitEach (depthFirst succ circular depth) starts Walk.empty with
  | none => rw [hv] at h; simp at h
  | some q =>
    rw [visitEach_mono (depthFirst_mono succ circular hle) _ _ hv]
    rw [hv] at h
    exact h

/-! ## Cycles of a subgraph -/

/-- The subgraph that `E` induces on `S` has a cycle, self-loops included. -/
def HasCycleIn (E : α → α → Prop) (S : α → Prop) : Prop :=
  ∃ c, TransGen (fun a b => S a ∧ S b ∧ E a b) c c

omit [DecidableEq α] in
/-- On a set closed under `E` every cycle through the set stays inside it. -/
theorem hasCycleIn_iff {E : α → α → Prop} {S : α → Prop} (hS : ∀ a b, S a → E a b → S b) :
    HasCycleIn E S ↔ ∃ c, S c ∧ TransGen E c c := by
  constructor
  · rintro ⟨c, hc⟩
    obtain ⟨b, ⟨hSc, _, _⟩, _⟩ := TransGen.head'_iff.mp hc
    exact ⟨c, hSc, TransGen.mono (fun _ _ h => h.2.2) _ _ hc⟩
  · rintro ⟨c, hSc, hc⟩
    have hin : ∀ x, TransGen E c x → S x ∧ TransGen (fun a b => S a ∧ S b ∧ E a b) c x := by
      intro x hx
      induction hx with
      | single h => exact ⟨hS _ _ hSc h, TransGen.single ⟨hSc, hS _ _ hSc h, h⟩⟩
      | tail _ h ih => exact ⟨hS _ _ ih.1 h, ih.2.tail ⟨ih.1, hS _ _ ih.1 h, h⟩⟩
    exact ⟨c, (hin c hc).2⟩

/-- **Cycle detection is exact**: the search fails if and only if the subgraph
below its starts has a cycle. -/
theorem order_error_iff {succ : α → List α} {circular : α → ε} {depth : Nat} {starts : List α}
    {r : Except ε (List α)} (h : order (depthFirst succ circular depth) starts = some r) :
    (∃ e, r = .error e) ↔
      HasCycleIn (Edge succ) (fun x => ∃ s ∈ starts, ReflTransGen (Edge succ) s x) := by
  rw [hasCycleIn_iff (fun a b ⟨s, hs, hr⟩ hab => ⟨s, hs, hr.tail hab⟩)]
  constructor
  · rintro ⟨e, rfl⟩
    obtain ⟨s, hs, c, _, hr, hc⟩ := order_error h
    exact ⟨c, ⟨s, hs, hr⟩, hc⟩
  · rintro ⟨c, hc, hcyc⟩
    cases r with
    | error e => exact ⟨e, rfl⟩
    | ok out => exact absurd hcyc (order_acyclic h (((order_spec h).2.1 c).mpr hc))

/-- The first start is finished right behind what lies below it. -/
theorem order_first {succ : α → List α} {circular : α → ε} {depth : Nat} {s : α}
    {starts out : List α}
    (h : order (depthFirst succ circular depth) (s :: starts) = some (.ok out)) :
    ∃ pre post, out = pre ++ s :: post ∧ ∀ x ∈ pre, TransGen (Edge succ) s x := by
  obtain ⟨st, hst, rfl⟩ := order_ok h
  rw [visitEach, if_neg (by simp [Walk.empty])] at hst
  split at hst
  next st₁ hv =>
    obtain ⟨hg₁, new, hres, hnew⟩ := depthFirst_spec succ circular depth s Walk.empty st₁
      (good_empty succ) (by simp [Walk.empty]) hv
    obtain ⟨_, ⟨more, hmore, _⟩, _⟩ :=
      visitEach_spec (depthFirst_spec succ circular depth) starts hg₁ hst
    refine ⟨new, more, ?_, hnew⟩
    rw [hmore, hres]
    simp [Walk.empty]
  next hstop => exact absurd hst (hstop st)

end GraphHarness.Traverse
