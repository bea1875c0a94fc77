import GraphHarness.ServiceRegistry.Concurrency
import GraphHarness.ServiceRegistry.Serializer

/-!
# Concurrent registrations

Any number of `register` calls, for any names, in any schedule. Two of them that both
look for a name before either stores it both store it, and both are told `Ok`. That is
the only way registration fails to be exclusive.

`Registering` says what each call has read and what is stored, `Unique` that no two calls have
registered one name. The second one is kept by a step on a fresh reading, and broken for good
by one on a stale reading (`registeredTwice_step`), which makes the condition exact over every
schedule.
-/

namespace GraphHarness.ServiceRegistry

open Trace (Progress Staged Calls Always run run_of_step run_invariant always_of_end)

variable {σ : Type} [RegistryBackend σ] [LawfulBackend σ]

/-- Registrations of the given entries, none of which has begun. -/
def registrations (r₀ : Registry σ) (entries : List (ServiceEntry × Timestamp)) :
    RegistryCalls σ :=
  Calls.start r₀ (entries.map fun e => .register e.1 e.2)

/-- The `i`th call has returned `Ok` for the entry. -/
def Registered (s : RegistryCalls σ) (i : Nat) (entry : ServiceEntry) : Prop :=
  ∃ now messages, s.call i = some (.register entry now, .done (.sent (.ok messages)))

/-- Registration is exclusive: whoever does not get an `Ok` is told that the service
exists, no name is registered twice, and what is stored is what was registered. -/
structure Exclusive (s : RegistryCalls σ) : Prop where
  answered : ∀ i entry now outcome, s.call i = some (.register entry now, .done outcome) →
    (∃ messages, outcome = .sent (.ok messages) ∧
      s.shared.directory.FansOut .serviceRegistered (.service entry.name now) messages) ∨
    outcome = .sent (.error (.serviceExists entry.name))
  once : ∀ i j entry entry', Registered s i entry → Registered s j entry' →
    entry.name = entry'.name → i = j
  stored : ∀ i entry, Registered s i entry → s.shared.stored entry.name = some entry

/-- How far a registration can be. -/
def RegisterProgress (r₀ : Registry σ) (entry : ServiceEntry) (now : Timestamp)
    (progress : Progress (Option ServiceEntry) Outcome) : Prop :=
  progress = .ready ∨
  (progress = .holding none ∧ r₀.stored entry.name = none) ∨
  progress =
    .done (.sent (.ok (r₀.emitEvent .serviceRegistered (.service entry.name now)))) ∨
  progress = .done (.sent (.error (.serviceExists entry.name)))

/-- What holds of registrations in every schedule. -/
structure Registering (r₀ : Registry σ) (s : RegistryCalls σ) : Prop where
  subscribers : s.shared.subscribers = r₀.subscribers
  progress : ∀ i op progress, s.call i = some (op, progress) →
    ∃ entry now, op = .register entry now ∧ RegisterProgress r₀ entry now progress
  grows : ∀ name, s.shared.stored name = none → r₀.stored name = none
  taken : ∀ name, r₀.stored name = none → s.shared.stored name ≠ none →
    ∃ i entry, Registered s i entry ∧ entry.name = name
  kept : ∀ i entry, Registered s i entry → s.shared.stored entry.name ≠ none

theorem registering_start (r₀ : Registry σ) (entries : List (ServiceEntry × Timestamp)) :
    Registering r₀ (registrations r₀ entries) where
  subscribers := rfl
  progress := by
    intro i op progress h
    obtain ⟨hop, rfl⟩ := Calls.call_start h
    obtain ⟨e, _, rfl⟩ := List.mem_map.mp (List.mem_of_getElem? hop)
    exact ⟨e.1, e.2, rfl, .inl rfl⟩
  grows := fun _ h => h
  taken := fun _ hnone hsome => absurd hnone hsome
  kept := by
    intro i entry hreg
    obtain ⟨now, messages, hreg⟩ := hreg
    exact absurd (Calls.call_start hreg).2 (by simp)

omit [LawfulBackend σ] in
theorem registered_step {s t : RegistryCalls σ} {i j : Nat} {entry : ServiceEntry}
    (hstep : Registry.staged.step s i = some t) (h : Registered s j entry) :
    Registered t j entry := by
  obtain ⟨now, messages, h⟩ := h
  exact ⟨now, messages, Staged.done_step hstep h⟩

section

variable {r₀ : Registry σ} {s t : RegistryCalls σ} {i : Nat}

/-- The steps of a registration: the name is found free, it is found taken, or the entry
is stored. -/
theorem register_step_cases (hs : Registering r₀ s) (h : Registry.staged.step s i = some t) :
    ∃ entry now,
      (s.call i = some (.register entry now, .ready) ∧ s.shared.stored entry.name = none ∧
        t = s.move i s.shared (.register entry now) (.holding none)) ∨
      (s.call i = some (.register entry now, .ready) ∧ s.shared.stored entry.name ≠ none ∧
        t = s.move i s.shared (.register entry now)
          (.done (.sent (.error (.serviceExists entry.name))))) ∨
      (s.call i = some (.register entry now, .holding none) ∧
        t = s.move i (s.shared.put entry) (.register entry now)
          (.done (.sent (.ok
            (r₀.emitEvent .serviceRegistered (.service entry.name now)))))) := by
  obtain ⟨op, hcases⟩ := Staged.step_cases h
  rcases hcases with ⟨held, hcall, hfirst, rfl⟩ | ⟨result, hcall, hfirst, rfl⟩ | ⟨held, hcall, rfl⟩
  · obtain ⟨entry, now, rfl, _⟩ := hs.progress i op _ hcall
    refine ⟨entry, now, .inl ?_⟩
    change (s.shared.first (.register entry now)).2 = _ at hfirst
    cases hstored : s.shared.stored entry.name with
    | none =>
      rw [Registry.first_register_absent hstored] at hfirst
      obtain rfl := Sum.inl.inj hfirst
      exact ⟨hcall, rfl, rfl⟩
    | some found =>
      rw [Registry.first_register_present hstored] at hfirst
      simp at hfirst
  · obtain ⟨entry, now, rfl, _⟩ := hs.progress i op _ hcall
    refine ⟨entry, now, .inr (.inl ?_)⟩
    change (s.shared.first (.register entry now)).2 = _ at hfirst
    cases hstored : s.shared.stored entry.name with
    | none =>
      rw [Registry.first_register_absent hstored] at hfirst
      simp at hfirst
    | some found =>
      have hstep := Registry.first_register_present hstored now
      rw [hstep] at hfirst
      obtain rfl := Sum.inr.inj hfirst
      refine ⟨hcall, by simp, ?_⟩
      show s.move i (s.shared.first (.register entry now)).1 _ _ = _
      rw [hstep]
  · obtain ⟨entry, now, rfl, hprogress⟩ := hs.progress i op _ hcall
    refine ⟨entry, now, .inr (.inr ?_)⟩
    obtain rfl : held = none := by
      rcases hprogress with h | ⟨h, _⟩ | h | h
      · simp at h
      · simpa using h
      · simp at h
      · simp at h
    refine ⟨hcall, ?_⟩
    show s.move i (s.shared.second (.register entry now) none).1 _
      (.done (s.shared.second (.register entry now) none).2) = _
    rw [Registry.second_register, Registry.emitEvent_congr hs.subscribers]

omit [RegistryBackend σ] [LawfulBackend σ] in
/-- A registration that has its answer, after the step that stored another entry. -/
theorem registered_move {entry : ServiceEntry} {now : Timestamp} {shared : Registry σ}
    {before after : Progress (Option ServiceEntry) Outcome}
    (hcall : s.call i = some (.register entry now, before)) {j : Nat} {entry' : ServiceEntry}
    (h : Registered (s.move i shared (.register entry now) after) j entry') :
    (j = i ∧ entry' = entry ∧ ∃ messages, after = .done (.sent (.ok messages))) ∨
      (j ≠ i ∧ Registered s j entry') := by
  obtain ⟨now', messages, h⟩ := h
  rcases Calls.call_move hcall h with ⟨rfl, he⟩ | ⟨hji, hj⟩
  · obtain ⟨hop, rfl⟩ := Prod.mk.inj he
    obtain ⟨rfl, _⟩ := Operation.register.inj hop
    exact .inl ⟨rfl, rfl, messages, rfl⟩
  · exact .inr ⟨hji, now', messages, hj⟩

/-- One step keeps the description of the registrations. -/
theorem registering_step (hs : Registering r₀ s) (h : Registry.staged.step s i = some t) :
    Registering r₀ t := by
  have hkeep : ∀ {j entry}, Registered s j entry → Registered t j entry := registered_step h
  -- where the call that takes the step gets to
  have hprogress : ∀ {entry now before after shared},
      s.call i = some (.register entry now, before) → RegisterProgress r₀ entry now after →
      ∀ j op progress, (s.move i shared (.register entry now) after).call j = some (op, progress) →
        ∃ entry now, op = .register entry now ∧ RegisterProgress r₀ entry now progress := by
    intro entry now before after shared hcall hafter j op progress hj
    rcases Calls.call_move hcall hj with ⟨_, he⟩ | ⟨_, hj⟩
    · obtain ⟨rfl, rfl⟩ := Prod.mk.inj he
      exact ⟨entry, now, rfl, hafter⟩
    · exact hs.progress j op progress hj
  -- the steps that leave the store as it is
  have hsame : ∀ {entry now before after}, s.call i = some (.register entry now, before) →
      RegisterProgress r₀ entry now after → (∀ messages, after ≠ .done (.sent (.ok messages))) →
      t = s.move i s.shared (.register entry now) after → Registering r₀ t := by
    rintro entry now before after hcall hafter hnot rfl
    refine ⟨hs.subscribers, hprogress hcall hafter, hs.grows, ?_, ?_⟩
    · intro name hnone hsome
      obtain ⟨j, entry', hreg, hname⟩ := hs.taken name hnone hsome
      exact ⟨j, entry', hkeep hreg, hname⟩
    · intro j entry' hreg
      rcases registered_move hcall hreg with ⟨_, _, messages, hdone⟩ | ⟨_, hreg⟩
      · exact absurd hdone (hnot messages)
      · exact hs.kept j entry' hreg
  obtain ⟨entry, now, ⟨hcall, hfree, ht⟩ | ⟨hcall, htaken, ht⟩ | ⟨hcall, rfl⟩⟩ :=
    register_step_cases hs h
  · exact hsame hcall (.inr (.inl ⟨rfl, hs.grows _ hfree⟩)) (by simp) ht
  · exact hsame hcall (.inr (.inr (.inr rfl))) (by simp) ht
  · refine ⟨hs.subscribers, hprogress hcall (.inr (.inr (.inl rfl))), ?_, ?_, ?_⟩
    · intro name hnone
      rw [Calls.move_shared, Registry.stored_put] at hnone
      by_cases hname : name = entry.name
      · subst hname
        simp at hnone
      · rw [Function.update_of_ne hname] at hnone
        exact hs.grows name hnone
    · intro name hnone hsome
      by_cases hname : name = entry.name
      · exact ⟨i, entry, ⟨now, _, Calls.call_move_self hcall _ _ _⟩, hname.symm⟩
      · rw [Calls.move_shared, Registry.stored_put, Function.update_of_ne hname] at hsome
        obtain ⟨j, entry', hreg, hname'⟩ := hs.taken name hnone hsome
        exact ⟨j, entry', hkeep hreg, hname'⟩
    · intro j entry' hreg
      rw [Calls.move_shared, Registry.stored_put]
      by_cases hname : entry'.name = entry.name
      · rw [hname]
        simp
      · rw [Function.update_of_ne hname]
        rcases registered_move hcall hreg with ⟨_, rfl, _⟩ | ⟨_, hreg⟩
        · exact absurd rfl hname
        · exact hs.kept j entry' hreg

/-- Two calls that both registered one name. -/
def RegisteredTwice (s : RegistryCalls σ) : Prop :=
  ∃ i j entry entry', i ≠ j ∧ Registered s i entry ∧ Registered s j entry' ∧
    entry.name = entry'.name

/-- A registration that finds its name taken when it stores the entry stores it all the
same. -/
theorem registeredTwice_of_stale (hs : Registering r₀ s) (hstale : ¬ Registry.staged.Fresh s i)
    (h : Registry.staged.step s i = some t) : RegisteredTwice t := by
  have hkeep : ∀ {j entry}, Registered s j entry → Registered t j entry := registered_step h
  unfold Staged.Fresh at hstale
  push Not at hstale
  obtain ⟨op, held, hcall, hfirst⟩ := hstale
  obtain ⟨entry, now, ⟨hcall', _⟩ | ⟨hcall', _⟩ | ⟨hcall', rfl⟩⟩ := register_step_cases hs h
  · rw [hcall] at hcall'
    simp at hcall'
  · rw [hcall] at hcall'
    simp at hcall'
  · rw [hcall] at hcall'
    obtain ⟨rfl, hheld⟩ := Prod.mk.inj (Option.some.inj hcall')
    obtain rfl := Progress.holding.inj hheld
    obtain ⟨entry', now', hop, hprogress⟩ := hs.progress i _ _ hcall
    obtain ⟨rfl, rfl⟩ := Operation.register.inj hop
    have hnone : r₀.stored entry.name = none := by
      rcases hprogress with h | ⟨_, h⟩ | h | h
      · simp at h
      · exact h
      · simp at h
      · simp at h
    have htaken : s.shared.stored entry.name ≠ none := by
      intro hfree
      apply hfirst
      show (s.shared.first (.register entry now)).2 = _
      rw [Registry.first_register_absent hfree]
    obtain ⟨j, entry', hreg, hname⟩ := hs.taken _ hnone htaken
    have hij : i ≠ j := by
      intro he
      obtain ⟨now', messages, hj⟩ := hreg
      rw [← he, hcall] at hj
      simp at hj
    exact ⟨i, j, entry, entry', hij, ⟨now, _, Calls.call_move_self hcall _ _ _⟩, hkeep hreg,
      hname.symm⟩

omit [LawfulBackend σ] in
theorem registeredTwice_step (hs : RegisteredTwice s) (h : Registry.staged.step s i = some t) :
    RegisteredTwice t := by
  obtain ⟨j, k, entry, entry', hjk, hj, hk, hname⟩ := hs
  exact ⟨j, k, entry, entry', hjk, registered_step h hj, registered_step h hk, hname⟩

/-- The two clauses of exclusiveness that a stale write breaks. -/
structure Unique (s : RegistryCalls σ) : Prop where
  once : ∀ i j entry entry', Registered s i entry → Registered s j entry' →
    entry.name = entry'.name → i = j
  stored : ∀ i entry, Registered s i entry → s.shared.stored entry.name = some entry

/-- A step on a fresh reading registers no name twice. -/
theorem unique_step (hs : Registering r₀ s) (hu : Unique s) (hfresh : Registry.staged.Fresh s i)
    (h : Registry.staged.step s i = some t) : Unique t := by
  -- the first steps register nothing
  have hreads : ∀ {entry now before after}, s.call i = some (.register entry now, before) →
      (∀ messages, after ≠ .done (.sent (.ok messages))) →
      Unique (s.move i s.shared (.register entry now) after) := by
    intro entry now before after hcall hafter
    have hback : ∀ {j entry'}, Registered (s.move i s.shared (.register entry now) after) j entry' →
        Registered s j entry' := by
      intro j entry' hreg
      rcases registered_move hcall hreg with ⟨_, _, messages, hdone⟩ | ⟨_, hreg⟩
      · exact absurd hdone (hafter messages)
      · exact hreg
    exact ⟨fun j k e e' hj hk => hu.once j k e e' (hback hj) (hback hk),
      fun j e hj => hu.stored j e (hback hj)⟩
  obtain ⟨entry, now, ⟨hcall, _, rfl⟩ | ⟨hcall, _, rfl⟩ | ⟨hcall, rfl⟩⟩ := register_step_cases hs h
  · exact hreads hcall (by simp)
  · exact hreads hcall (by simp)
  · -- the name is still free, so that nobody has registered it
    have hfree : s.shared.stored entry.name = none := by
      have hfirst := hfresh _ _ hcall
      change (s.shared.first (.register entry now)).2 = _ at hfirst
      cases hstored : s.shared.stored entry.name with
      | none => rfl
      | some found =>
        rw [Registry.first_register_present hstored] at hfirst
        simp at hfirst
    have hother : ∀ {j entry'}, Registered s j entry' → entry'.name ≠ entry.name := by
      intro j entry' hreg hname
      exact hs.kept j entry' hreg (hname ▸ hfree)
    refine ⟨?_, ?_⟩
    · intro j k e e' hj hk hname
      rcases registered_move hcall hj with ⟨rfl, rfl, _⟩ | ⟨_, hj'⟩
      · rcases registered_move hcall hk with ⟨rfl, _⟩ | ⟨_, hk'⟩
        · rfl
        · exact absurd hname.symm (hother hk')
      · rcases registered_move hcall hk with ⟨_, rfl, _⟩ | ⟨_, hk'⟩
        · exact absurd hname (hother hj')
        · exact hu.once j k e e' hj' hk' hname
    · intro j e hj
      rw [Calls.move_shared, Registry.stored_put]
      rcases registered_move hcall hj with ⟨_, rfl, _⟩ | ⟨_, hj'⟩
      · simp
      · rw [Function.update_of_ne (hother hj')]
        exact hu.stored j e hj'

end

/-- For any registrations in any schedule, registration is exclusive exactly if no call
stores its entry when the name is no longer free. -/
theorem register_exclusive_iff (r₀ : Registry σ) (entries : List (ServiceEntry × Timestamp))
    (schedule : List Nat) (t : RegistryCalls σ)
    (hrun : run Registry.staged.step (registrations r₀ entries) schedule = some t) :
    Exclusive t ↔ Always Registry.staged.step Registry.staged.Fresh
      (registrations r₀ entries) schedule := by
  have hstart := registering_start r₀ entries
  constructor
  · intro hexclusive
    refine always_of_end (fun s i t hs h => registering_step hs h)
      (fun s i t hs hstale h => registeredTwice_of_stale hs hstale h)
      (fun s i t hs h => registeredTwice_step hs h) hstart hrun ?_
    intro htwice
    obtain ⟨i, j, entry, entry', hij, hi, hj, hname⟩ := htwice
    exact hij (hexclusive.once i j entry entry' hi hj hname)
  · intro hfresh
    have hunique : Unique (registrations r₀ entries) := by
      have hnone : ∀ {i entry}, ¬ Registered (registrations r₀ entries) i entry := by
        intro i entry hreg
        obtain ⟨now, messages, hreg⟩ := hreg
        exact absurd (Calls.call_start hreg).2 (by simp)
      exact ⟨fun i j e e' hi _ _ => absurd hi hnone, fun i e hi => absurd hi hnone⟩
    have hstep : ∀ s i t, Registering r₀ s ∧ Unique s → Registry.staged.Fresh s i →
        Registry.staged.step s i = some t → Registering r₀ t ∧ Unique t := by
      intro s i t hs hfresh h
      exact ⟨registering_step hs.1 h, unique_step hs.1 hs.2 hfresh h⟩
    obtain ⟨ht, hu⟩ := run_invariant hstep ⟨hstart, hunique⟩ hfresh hrun
    refine ⟨?_, hu.once, hu.stored⟩
    intro i entry now outcome hcall
    obtain ⟨entry', now', hop, hprogress⟩ := ht.progress i _ _ hcall
    obtain ⟨rfl, rfl⟩ := Operation.register.inj hop
    rcases hprogress with h | ⟨h, _⟩ | h | h
    · simp at h
    · simp at h
    · left
      refine ⟨_, Progress.done.inj h, ?_⟩
      rw [← Registry.emitEvent_congr ht.subscribers]
      exact Registry.fansOut_emitEvent _ _ _
    · exact .inr (Progress.done.inj h)

/-- Two registrations of one free name that both look before either stores. -/
theorem register_race {r₀ : Registry σ} {entry entry' : ServiceEntry}
    (hname : entry'.name = entry.name) (hfree : r₀.stored entry.name = none)
    (now now' : Timestamp) :
    ∃ t, run Registry.staged.step (registrations r₀ [(entry, now), (entry', now')])
      [0, 1, 0, 1] = some t ∧ RegisteredTwice t := by
  let s₀ := registrations r₀ [(entry, now), (entry', now')]
  let s₁ := s₀.move 0 r₀ (.register entry now) (.holding none)
  let s₂ := s₁.move 1 r₀ (.register entry' now') (.holding none)
  let s₃ := s₂.move 0 (r₀.put entry) (.register entry now)
    (.done (.sent (.ok (r₀.emitEvent .serviceRegistered (.service entry.name now)))))
  let s₄ := s₃.move 1 ((r₀.put entry).put entry') (.register entry' now')
    (.done (.sent (.ok ((r₀.put entry).emitEvent .serviceRegistered (.service entry'.name now')))))
  have h₀ : Registry.staged.step s₀ 0 = some s₁ :=
    Staged.step_reads rfl (Registry.first_register_absent hfree now)
  have h₁ : Registry.staged.step s₁ 1 = some s₂ :=
    Staged.step_reads rfl (Registry.first_register_absent (hname ▸ hfree) now')
  have h₂ : Registry.staged.step s₂ 0 = some s₃ :=
    Staged.step_acts rfl (Registry.second_register r₀ entry now none)
  have h₃ : Registry.staged.step s₃ 1 = some s₄ :=
    Staged.step_acts rfl (Registry.second_register (r₀.put entry) entry' now' none)
  refine ⟨s₄, ?_, 0, 1, entry, entry', by simp, ⟨now, _, rfl⟩, ⟨now', _, rfl⟩, hname.symm⟩
  show run Registry.staged.step s₀ [0, 1, 0, 1] = some s₄
  rw [run_of_step h₀, run_of_step h₁, run_of_step h₂, run_of_step h₃, run]

/-- An entry of a process, as a client would register it. -/
def webEntry (version : String) : ServiceEntry where
  name := "web"
  version := version
  execution := .managedProcess none "web" []
  location := .local
  endpoints := []
  dependsOn := []
  state := .registered
  lastHealthCheck := none
  registeredAt := 0
  lastStateChange := 0

/-- On an empty registry, with nothing but two clients that register `web`. -/
theorem web_registered_twice : ∃ t, run Registry.staged.step
    (registrations (Registry.new Serde.numbered) [(webEntry "1.0.0", 0), (webEntry "2.0.0", 0)])
    [0, 1, 0, 1] = some t ∧ RegisteredTwice t := by
  have hname : (webEntry "2.0.0").name = (webEntry "1.0.0").name := rfl
  exact register_race hname (Registry.stored_new _ _) 0 0

theorem register_not_exclusive : ¬ ∀ (serde : Serde) (r₀ : Registry (SledStore serde))
    (entries : List (ServiceEntry × Timestamp)) (schedule : List Nat)
    (t : RegistryCalls (SledStore serde)),
    run Registry.staged.step (registrations r₀ entries) schedule = some t → Exclusive t := by
  intro h
  obtain ⟨t, hrun, i, j, entry, entry', hij, hi, hj, hname⟩ := web_registered_twice
  exact hij ((h _ _ _ _ t hrun).once i j entry entry' hi hj hname)

theorem register_exclusive_iff_web : ∃ t,
    run Registry.staged.step (registrations (Registry.new Serde.numbered)
      [(webEntry "1.0.0", 0), (webEntry "2.0.0", 0)]) [0, 1, 0, 1] = some t ∧
    (Exclusive t ↔ Always Registry.staged.step Registry.staged.Fresh
      (registrations (Registry.new Serde.numbered) [(webEntry "1.0.0", 0), (webEntry "2.0.0", 0)])
      [0, 1, 0, 1]) := by
  obtain ⟨t, hrun, _⟩ := web_registered_twice
  exact ⟨t, hrun, register_exclusive_iff _ _ _ t hrun⟩

end GraphHarness.ServiceRegistry
