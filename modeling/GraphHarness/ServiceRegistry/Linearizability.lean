import GraphHarness.ServiceRegistry.Transitions

/-!
# A state update, an endpoint update and a removal at once

One `update_state`, one `update_endpoints` and one `deregister` of the same service, in
any schedule. The two updates are treated alike: each reads the entry and stores it
with a change of its own. If everything that is stored was changed from the entry that
is there, the three calls could have run one after the other; if not, an update is lost
or the removed service is back, and no order explains that.

`Race` describes every state the three calls can be in, as long as each write was of a fresh
reading; `Spoiled` describes them from the first write of a stale one on. Both are kept by
every step, and each step leads from the first to itself or to the second. At the end the two
are told apart by the stored entry and the answers alone, which is what makes the condition
exact.

The writers are symmetric, so there is one lemma for both (`Writers`).
`web_back_after_removal` is the schedule in which a removed service comes back.
-/

namespace GraphHarness.ServiceRegistry

open Trace (Progress Staged Calls Always run run_of_step history after always_of_end always_at
  history_append after_append length_history)

variable {σ : Type} [RegistryBackend σ] [LawfulBackend σ]

/-- A call that reads the entry of a service and stores it with a change. It can refuse
the entry it reads. -/
structure Writer (σ : Type) [RegistryBackend σ] [LawfulBackend σ] (name : String) where
  op : Operation
  accepts : ServiceEntry → Bool
  change : ServiceEntry → ServiceEntry
  change_name : ∀ entry, (change entry).name = entry.name
  change_change : ∀ entry, change (change entry) = change entry
  first_absent : ∀ r : Registry σ, r.stored name = none →
    ∃ outcome, outcome.isErr = true ∧ r.first op = (r, .inr outcome)
  first_refused : ∀ (r : Registry σ) entry, r.stored name = some entry → accepts entry = false →
    ∃ outcome, outcome.isErr = true ∧ r.first op = (r, .inr outcome)
  first_accepted : ∀ (r : Registry σ) entry, r.stored name = some entry → accepts entry = true →
    r.first op = (r, .inl (some entry))
  second_accepted : ∀ (r : Registry σ) entry, ∃ outcome, outcome.isErr = false ∧
    r.second op (some entry) = (r.put (change entry), outcome)

/-- `update_state`. -/
def Writer.state (name : String) (u : StateUpdate) : Writer σ name where
  op := u.operation name
  accepts entry := isValidTransition entry.state u.newState
  change entry := entry.updateState u.newState u.changedAt
  change_name _ := rfl
  change_change _ := rfl
  first_absent _ h := ⟨_, rfl, Registry.first_updateState_absent h _ _ _⟩
  first_refused r entry h hrefused := by
    refine ⟨.stateChanged (.error (.invalidStateTransition entry.state u.newState)), rfl, ?_⟩
    unfold StateUpdate.operation
    rw [Registry.first_updateState_present h, hrefused]
    rfl
  first_accepted r entry h haccepted := by
    unfold StateUpdate.operation
    rw [Registry.first_updateState_present h, haccepted]
    rfl
  second_accepted r entry := ⟨_, rfl, Registry.second_updateState r name _ _ _ entry⟩

/-- `update_endpoints`. -/
def Writer.endpoints (name : String) (endpoints : List Endpoint) (now : Timestamp) :
    Writer σ name where
  op := .updateEndpoints name endpoints now
  accepts _ := true
  change entry := { entry with endpoints := endpoints }
  change_name _ := rfl
  change_change _ := rfl
  first_absent _ h := ⟨_, rfl, Registry.first_updateEndpoints_absent h _ _⟩
  first_refused _ _ _ h := Bool.noConfusion h
  first_accepted _ _ h _ := Registry.first_updateEndpoints_present h _ _
  second_accepted r entry := ⟨_, rfl, Registry.second_updateEndpoints r name _ _ entry⟩

/-- Two writers whose changes do not get in each other's way. -/
structure Writers (σ : Type) [RegistryBackend σ] [LawfulBackend σ] (name : String) where
  writer : Bool → Writer σ name
  comm : ∀ b entry, (writer b).change ((writer !b).change entry) =
    (writer !b).change ((writer b).change entry)
  cancel : ∀ b entry, (writer b).change entry = (writer b).change ((writer !b).change entry) →
    (writer !b).change entry = entry

/-- The state update is the call number 0, the endpoint update number 1. -/
def Writers.updates (name : String) (u : StateUpdate) (endpoints : List Endpoint)
    (now : Timestamp) : Writers σ name where
  writer b := bif b then .endpoints name endpoints now else .state name u
  comm b entry := by
    cases b with
    | true => rfl
    | false => rfl
  cancel b entry h := by
    cases b with
    | true =>
      have hstate : entry.state = u.newState := congrArg ServiceEntry.state h
      have hchanged : entry.lastStateChange = u.changedAt := congrArg ServiceEntry.lastStateChange h
      show entry.updateState u.newState u.changedAt = entry
      rw [← hstate, ← hchanged]
      rfl
    | false =>
      have hendpoints : entry.endpoints = endpoints := congrArg ServiceEntry.endpoints h
      show { entry with endpoints := endpoints } = entry
      rw [← hendpoints]

namespace Writers

variable {name : String} (w : Writers σ name)

/-- Both changes. -/
def both (entry : ServiceEntry) : ServiceEntry :=
  (w.writer false).change ((w.writer true).change entry)

/-- The two changes commute. -/
theorem both_eq (b : Bool) (entry : ServiceEntry) :
    w.both entry = (w.writer b).change ((w.writer !b).change entry) := by
  cases b with
  | false => rfl
  | true => exact w.comm false entry

/-- The two updates and the removal. -/
def calls (r₀ : Registry σ) (now : Timestamp) : RegistryCalls σ :=
  Calls.start r₀ [(w.writer false).op, (w.writer true).op, .deregister name now]

/-- The update has stored its entry. -/
def Written (s : RegistryCalls σ) (b : Bool) : Prop :=
  ∃ outcome, outcome.isErr = false ∧ s.call b.toNat = some ((w.writer b).op, .done outcome)

/-- The removal has not begun. -/
def Open (name : String) (now : Timestamp) (s : RegistryCalls σ) : Prop :=
  s.call 2 = some (.deregister name now, .ready)

/-- What holds of the three calls in every schedule. As long as nothing is removed, what
an update has read, and what is stored before it has written, is the entry of the
beginning, with or without the change of the other. -/
structure Race (now : Timestamp) (e₀ : ServiceEntry) (s : RegistryCalls σ) : Prop where
  length : s.calls.length = 3
  writers : ∀ b, ∃ progress, s.call b.toNat = some ((w.writer b).op, progress) ∧
    ∀ held, progress = .holding held →
      ∃ seen, held = some seen ∧ seen.name = name ∧ (w.writer b).accepts seen = true
  removal : Open name now s ∨ ∃ entry messages,
    s.call 2 = some (.deregister name now, .done (.removed (.ok (entry, messages))))
  present : Open name now s → ∃ entry, s.shared.stored name = some entry
  unwritten : Open name now s → ∀ b, ¬ w.Written s b →
    (¬ w.Written s (!b) → s.shared.stored name = some e₀) ∧
      (w.Written s (!b) → s.shared.stored name = some ((w.writer !b).change e₀))
  seen : Open name now s → ∀ b seen,
    s.call b.toNat = some ((w.writer b).op, .holding (some seen)) →
      seen = e₀ ∨ (w.Written s (!b) ∧ seen = (w.writer !b).change e₀)

section

variable {w} {now : Timestamp} {e₀ : ServiceEntry} {s t : RegistryCalls σ} {i : Nat}

/-- At the start no call has begun. -/
theorem race_start {r₀ : Registry σ} (h : r₀.stored name = some e₀) :
    w.Race now e₀ (w.calls r₀ now) := by
  have hcall : ∀ b, (w.calls r₀ now).call b.toNat = some ((w.writer b).op, .ready) := by
    intro b
    cases b with
    | false => rfl
    | true => rfl
  have hunwritten : ∀ b, ¬ w.Written (w.calls r₀ now) b := by
    intro b hb
    obtain ⟨outcome, _, hb⟩ := hb
    rw [hcall] at hb
    simp at hb
  refine ⟨rfl, ?_, .inl rfl, fun _ => ⟨e₀, h⟩, ?_, ?_⟩
  · intro b
    exact ⟨.ready, hcall b, fun held hheld => by simp at hheld⟩
  · intro _ b _
    exact ⟨fun _ => h, fun hb => absurd hb (hunwritten _)⟩
  · intro _ b seen hb
    rw [hcall] at hb
    simp at hb

/-- The steps: an update reads the entry or ends with an error, it stores what it has
read with its change, or the service is removed. -/
theorem race_step_cases (hs : w.Race now e₀ s) (h : Registry.staged.step s i = some t) :
    (∃ b progress, i = b.toNat ∧ s.call b.toNat = some ((w.writer b).op, .ready) ∧
      t = s.move b.toNat s.shared (w.writer b).op progress ∧
      ((∃ entry, s.shared.stored name = some entry ∧ (w.writer b).accepts entry = true ∧
          progress = .holding (some entry)) ∨
        ∃ outcome, outcome.isErr = true ∧ progress = .done outcome)) ∨
    (∃ b seen outcome, i = b.toNat ∧
      s.call b.toNat = some ((w.writer b).op, .holding (some seen)) ∧
      seen.name = name ∧ (w.writer b).accepts seen = true ∧ outcome.isErr = false ∧
      t = s.move b.toNat (s.shared.put ((w.writer b).change seen)) (w.writer b).op
        (.done outcome)) ∨
    (∃ entry messages, i = 2 ∧ Open name now s ∧ s.shared.stored name = some entry ∧
      t = s.move 2 (s.shared.remove name) (.deregister name now)
        (.done (.removed (.ok (entry, messages))))) := by
  -- only the three calls of the race can step: the two updates and the removal
  have hlt : i < 3 := by
    obtain ⟨op, hcases⟩ := Staged.step_cases h
    have hsome : ∃ call, s.call i = some call := by
      rcases hcases with ⟨_, hcall, _⟩ | ⟨_, hcall, _⟩ | ⟨_, hcall, _⟩
      · exact ⟨_, hcall⟩
      · exact ⟨_, hcall⟩
      · exact ⟨_, hcall⟩
    obtain ⟨call, hcall⟩ := hsome
    have hi := (List.getElem?_eq_some_iff.mp hcall).1
    rwa [hs.length] at hi
  have hi : (∃ b : Bool, i = b.toNat) ∨ i = 2 := by
    have hi : i = 0 ∨ i = 1 ∨ i = 2 := by omega
    rcases hi with rfl | rfl | rfl
    · exact .inl ⟨false, rfl⟩
    · exact .inl ⟨true, rfl⟩
    · exact .inr rfl
  rcases hi with ⟨b, rfl⟩ | rfl
  · obtain ⟨progress, hcall, hheld⟩ := hs.writers b
    cases progress with
    | ready =>
      left
      cases hstored : s.shared.stored name with
      | none =>
        obtain ⟨outcome, herr, hfirst⟩ := (w.writer b).first_absent s.shared hstored
        have hstep := Staged.step_ends (P := Registry.staged) hcall hfirst
        exact ⟨b, _, rfl, hcall, Option.some.inj (h.symm.trans hstep), .inr ⟨outcome, herr, rfl⟩⟩
      | some entry =>
        cases haccepts : (w.writer b).accepts entry with
        | true =>
          have hfirst := (w.writer b).first_accepted s.shared entry hstored haccepts
          have hstep := Staged.step_reads (P := Registry.staged) hcall hfirst
          exact ⟨b, _, rfl, hcall, Option.some.inj (h.symm.trans hstep),
            .inl ⟨entry, rfl, haccepts, rfl⟩⟩
        | false =>
          obtain ⟨outcome, herr, hfirst⟩ :=
            (w.writer b).first_refused s.shared entry hstored haccepts
          have hstep := Staged.step_ends (P := Registry.staged) hcall hfirst
          exact ⟨b, _, rfl, hcall, Option.some.inj (h.symm.trans hstep), .inr ⟨outcome, herr, rfl⟩⟩
    | holding held =>
      right
      left
      obtain ⟨seen, rfl, hname, haccepts⟩ := hheld held rfl
      obtain ⟨outcome, hok, hsecond⟩ := (w.writer b).second_accepted s.shared seen
      have hstep := Staged.step_acts (P := Registry.staged) hcall hsecond
      exact ⟨b, seen, outcome, rfl, hcall, hname, haccepts, hok,
        Option.some.inj (h.symm.trans hstep)⟩
    | done outcome =>
      unfold Staged.step at h
      rw [hcall] at h
      simp at h
  · rcases hs.removal with hopen | ⟨entry, messages, hdone⟩
    · right
      right
      obtain ⟨entry, hstored⟩ := hs.present hopen
      have hfirst : s.shared.first (.deregister name now) = (s.shared.remove name,
          .inr (.removed (.ok (entry, s.shared.emitEvent .serviceDeregistered
            (.service name now))))) := by
        show Prod.map id Sum.inr (s.shared.perform (.deregister name now)) = _
        rw [Registry.perform, Registry.deregister_present hstored]
        rfl
      have hstep := Staged.step_ends (P := Registry.staged) hopen hfirst
      exact ⟨entry, _, rfl, hopen, hstored, Option.some.inj (h.symm.trans hstep)⟩
    · unfold Staged.step at h
      rw [hdone] at h
      simp at h

/-- The third call is neither of the two writers. -/
theorem toNat_ne_two (b : Bool) : b.toNat ≠ 2 := by
  cases b with
  | false => simp
  | true => simp

/-- The two writers are two calls. -/
theorem toNat_ne_not (b : Bool) : b.toNat ≠ (!b).toNat := by
  cases b with
  | false => simp
  | true => simp

/-- Whether a writer has written is in its own call. -/
theorem written_congr {b : Bool} (h : t.call b.toNat = s.call b.toNat) :
    w.Written t b ↔ w.Written s b := by
  unfold Written
  rw [h]

/-- When a step of a writer is its write. -/
theorem written_move_self {b : Bool} {before progress : Progress (Option ServiceEntry) Outcome}
    {op : Operation} {shared : Registry σ} (hcall : s.call b.toNat = some (op, before)) :
    w.Written (s.move b.toNat shared (w.writer b).op progress) b ↔
      ∃ outcome, outcome.isErr = false ∧ progress = .done outcome := by
  unfold Written
  rw [Calls.call_move_self hcall]
  constructor
  · intro h
    obtain ⟨outcome, hok, h⟩ := h
    exact ⟨outcome, hok, (Prod.mk.inj (Option.some.inj h)).2⟩
  · intro h
    obtain ⟨outcome, hok, rfl⟩ := h
    exact ⟨outcome, hok, rfl⟩

/-- A call that is not over has not stored anything. -/
theorem not_written {b : Bool} {op : Operation}
    {progress : Progress (Option ServiceEntry) Outcome}
    (hcall : s.call b.toNat = some (op, progress)) (h : ∀ outcome, progress ≠ .done outcome) :
    ¬ w.Written s b := by
  intro hwritten
  obtain ⟨outcome, _, hdone⟩ := hwritten
  rw [hcall] at hdone
  exact h outcome (Prod.mk.inj (Option.some.inj hdone)).2

/-- The parts of the invariant that do not depend on what is stored. -/
theorem race_frame (hs : w.Race now e₀ s) {b : Bool} {op : Operation}
    {before : Progress (Option ServiceEntry) Outcome} (shared : Registry σ)
    (progress : Progress (Option ServiceEntry) Outcome)
    (hcall : s.call b.toNat = some (op, before))
    (hprogress : ∀ held, progress = .holding held →
      ∃ seen, held = some seen ∧ seen.name = name ∧ (w.writer b).accepts seen = true) :
    (s.move b.toNat shared (w.writer b).op progress).calls.length = 3 ∧
    (∀ b', ∃ progress', (s.move b.toNat shared (w.writer b).op progress).call b'.toNat =
        some ((w.writer b').op, progress') ∧
      ∀ held, progress' = .holding held →
        ∃ seen, held = some seen ∧ seen.name = name ∧ (w.writer b').accepts seen = true) ∧
    (s.move b.toNat shared (w.writer b).op progress).call 2 = s.call 2 ∧
    (s.move b.toNat shared (w.writer b).op progress).call (!b).toNat = s.call (!b).toNat := by
  refine ⟨?_, ?_, Calls.call_move_ne s (toNat_ne_two b) _ _ _,
    Calls.call_move_ne s (toNat_ne_not b) _ _ _⟩
  · show (s.calls.set b.toNat _).length = 3
    rw [List.length_set, hs.length]
  · intro b'
    by_cases hb : b' = b
    · subst hb
      exact ⟨progress, Calls.call_move_self hcall _ _ _, hprogress⟩
    · obtain rfl : b' = !b := Bool.eq_not_of_ne hb
      rw [Calls.call_move_ne s (toNat_ne_not b)]
      exact hs.writers (!b)

/-- A step in which an update reads or is refused: nothing is stored, and nobody has
stored anything that was not there. -/
theorem race_read (hs : w.Race now e₀ s) {b : Bool}
    {progress : Progress (Option ServiceEntry) Outcome}
    (hcall : s.call b.toNat = some ((w.writer b).op, .ready))
    (hprogress : (∃ entry, s.shared.stored name = some entry ∧
        (w.writer b).accepts entry = true ∧ progress = .holding (some entry)) ∨
      ∃ outcome, outcome.isErr = true ∧ progress = .done outcome) :
    w.Race now e₀ (s.move b.toNat s.shared (w.writer b).op progress) := by
  have hheld : ∀ held, progress = .holding held →
      ∃ seen, held = some seen ∧ seen.name = name ∧ (w.writer b).accepts seen = true := by
    intro held hheld
    rcases hprogress with ⟨entry, hstored, haccepts, rfl⟩ | ⟨outcome, _, rfl⟩
    · obtain rfl := Progress.holding.inj hheld
      exact ⟨entry, rfl, Registry.name_of_stored hstored, haccepts⟩
    · simp at hheld
  obtain ⟨hlength, hwriters, hcall₂, hother⟩ := race_frame hs s.shared progress hcall hheld
  have hopen : Open name now (s.move b.toNat s.shared (w.writer b).op progress) ↔
      Open name now s := by
    unfold Open
    rw [hcall₂]
  have hself : ¬ w.Written s b := not_written hcall (by simp)
  have hself' : ¬ w.Written (s.move b.toNat s.shared (w.writer b).op progress) b := by
    rw [written_move_self hcall]
    intro hdone
    obtain ⟨outcome, hok, hdone⟩ := hdone
    rcases hprogress with ⟨_, _, _, rfl⟩ | ⟨outcome', herr, rfl⟩
    · simp at hdone
    · obtain rfl := Progress.done.inj hdone
      rw [hok] at herr
      simp at herr
  have hwritten : ∀ b', w.Written (s.move b.toNat s.shared (w.writer b).op progress) b' ↔
      w.Written s b' := by
    intro b'
    by_cases hb : b' = b
    · subst hb
      exact ⟨fun h => absurd h hself', fun h => absurd h hself⟩
    · obtain rfl : b' = !b := Bool.eq_not_of_ne hb
      exact written_congr hother
  refine ⟨hlength, hwriters, ?_, ?_, ?_, ?_⟩
  · rw [hopen, hcall₂]
    exact hs.removal
  · rw [hopen]
    exact hs.present
  · intro ho b' hb'
    rw [hwritten] at hb' ⊢
    exact hs.unwritten (hopen.mp ho) b' hb'
  · intro ho b' seen hseen
    rw [hwritten]
    by_cases hb : b' = b
    · subst hb
      rw [Calls.call_move_self hcall] at hseen
      rcases hprogress with ⟨entry, hstored, _, rfl⟩ | ⟨outcome, _, rfl⟩
      · obtain rfl : entry = seen := by simpa using hseen
        -- what is read is what is stored
        obtain ⟨hbase, hchanged⟩ := hs.unwritten (hopen.mp ho) _ hself
        by_cases hw : w.Written s (!b')
        · rw [hchanged hw] at hstored
          exact .inr ⟨hw, (Option.some.inj hstored).symm⟩
        · rw [hbase hw] at hstored
          exact .inl (Option.some.inj hstored).symm
      · simp at hseen
    · obtain rfl : b' = !b := Bool.eq_not_of_ne hb
      rw [hother] at hseen
      exact hs.seen (hopen.mp ho) _ seen hseen

/-- A step in which an update stores what it has read, with its change. -/
theorem race_write (hs : w.Race now e₀ s) {b : Bool} {seen : ServiceEntry} {outcome : Outcome}
    (hcall : s.call b.toNat = some ((w.writer b).op, .holding (some seen)))
    (hname : seen.name = name) (hok : outcome.isErr = false) :
    w.Race now e₀ (s.move b.toNat (s.shared.put ((w.writer b).change seen)) (w.writer b).op
      (.done outcome)) := by
  obtain ⟨hlength, hwriters, hcall₂, hother⟩ := race_frame hs
    (s.shared.put ((w.writer b).change seen)) (.done outcome) hcall (by simp)
  have hopen : Open name now (s.move b.toNat
      (s.shared.put ((w.writer b).change seen)) (w.writer b).op (.done outcome)) ↔
      Open name now s := by
    unfold Open
    rw [hcall₂]
  have hself : ¬ w.Written s b := not_written hcall (by simp)
  have hstored : (s.shared.put ((w.writer b).change seen)).stored name =
      some ((w.writer b).change seen) := by
    rw [Registry.stored_put, (w.writer b).change_name, hname, Function.update_self]
  refine ⟨hlength, hwriters, ?_, fun _ => ⟨_, hstored⟩, ?_, ?_⟩
  · rw [hopen, hcall₂]
    exact hs.removal
  · intro ho b' hb'
    by_cases hb : b' = b
    · subst hb
      exact absurd ((written_move_self hcall).mpr ⟨outcome, hok, rfl⟩) hb'
    · obtain rfl : b' = !b := Bool.eq_not_of_ne hb
      rw [written_congr hother] at hb'
      rw [Bool.not_not]
      refine ⟨fun h => absurd ((written_move_self hcall).mpr ⟨outcome, hok, rfl⟩) h, fun _ => ?_⟩
      -- the other has not stored anything, so that this was read at the beginning
      rcases hs.seen (hopen.mp ho) b seen hcall with rfl | ⟨hw, _⟩
      · exact hstored
      · exact absurd hw hb'
  · intro ho b' seen' hseen'
    by_cases hb : b' = b
    · subst hb
      rw [Calls.call_move_self hcall] at hseen'
      simp at hseen'
    · obtain rfl : b' = !b := Bool.eq_not_of_ne hb
      rw [hother] at hseen'
      rcases hs.seen (hopen.mp ho) _ seen' hseen' with rfl | ⟨hw, _⟩
      · exact .inl rfl
      · rw [Bool.not_not] at hw
        exact absurd hw hself

/-- The removal, before any write. -/
theorem race_removal (hs : w.Race now e₀ s) (hopen : Open name now s) (entry : ServiceEntry)
    (messages : Messages) :
    w.Race now e₀ (s.move 2 (s.shared.remove name) (.deregister name now)
      (.done (.removed (.ok (entry, messages))))) := by
  have hclosed : ¬ Open name now (s.move 2 (s.shared.remove name)
      (.deregister name now) (.done (.removed (.ok (entry, messages))))) := by
    unfold Open
    rw [Calls.call_move_self hopen]
    simp
  refine ⟨?_, ?_, .inr ⟨entry, messages, Calls.call_move_self hopen _ _ _⟩,
    fun h => absurd h hclosed, fun h => absurd h hclosed, fun h => absurd h hclosed⟩
  · show (s.calls.set 2 _).length = 3
    rw [List.length_set, hs.length]
  · intro b
    rw [Calls.call_move_ne s (toNat_ne_two b).symm]
    exact hs.writers b

/-- One step keeps the description of the race. -/
theorem race_step (hs : w.Race now e₀ s) (h : Registry.staged.step s i = some t) :
    w.Race now e₀ t := by
  rcases race_step_cases hs h with
    ⟨b, progress, rfl, hcall, rfl, hprogress⟩ |
      ⟨b, seen, outcome, rfl, hcall, hname, _, hok, rfl⟩ |
      ⟨entry, messages, rfl, hopen, _, rfl⟩
  · exact race_read hs hcall hprogress
  · exact race_write hs hcall hname hok
  · exact race_removal hs hopen entry messages

/-- The service is there again although it was removed, or an update that was stored is
missing from the entry that is there or that the removal returned. -/
inductive Spoiled (w : Writers σ name) (now : Timestamp) (e₀ : ServiceEntry)
    (s : RegistryCalls σ) : Prop where
  | back (entry : ServiceEntry) (messages : Messages)
      (removed : s.call 2 = some (.deregister name now, .done (.removed (.ok (entry, messages)))))
      (present : s.shared.stored name ≠ none)
  | lost (written : ∀ b, w.Written s b) (opened : Open name now s)
      (missing : s.shared.stored name ≠ some (w.both e₀))
  | taken (written : ∀ b, w.Written s b) (entry : ServiceEntry) (messages : Messages)
      (removed : s.call 2 = some (.deregister name now, .done (.removed (.ok (entry, messages)))))
      (missing : entry ≠ w.both e₀)

/-- A write over a newer entry spoils the race. -/
theorem spoiled_of_stale (hs : w.Race now e₀ s) (hstale : ¬ Registry.staged.Fresh s i)
    (h : Registry.staged.step s i = some t) : w.Spoiled now e₀ t := by
  unfold Staged.Fresh at hstale
  push Not at hstale
  obtain ⟨op, held, hcall', hfirst⟩ := hstale
  rcases race_step_cases hs h with
    ⟨b, progress, rfl, hcall, rfl, hprogress⟩ |
      ⟨b, seen, outcome, rfl, hcall, hname, haccepts, hok, rfl⟩ |
      ⟨entry, messages, rfl, hopen, hstored, rfl⟩
  · rw [hcall] at hcall'
    simp at hcall'
  · rw [hcall] at hcall'
    obtain ⟨rfl, hheld⟩ := Prod.mk.inj (Option.some.inj hcall')
    obtain rfl := Progress.holding.inj hheld
    -- the write is stale, so that the store no longer holds what the update has read
    have hother : s.shared.stored name ≠ some seen := by
      intro hstored
      apply hfirst
      show (s.shared.first (w.writer b).op).2 = _
      rw [(w.writer b).first_accepted s.shared seen hstored haccepts]
    have hstored : (s.shared.put ((w.writer b).change seen)).stored name =
        some ((w.writer b).change seen) := by
      rw [Registry.stored_put, (w.writer b).change_name, hname, Function.update_self]
    rcases hs.removal with hopen | ⟨entry, messages, hremoved⟩
    · -- the other update has been stored since the entry was read
      obtain ⟨hbase, hchanged⟩ := hs.unwritten hopen b (not_written hcall (by simp))
      have hw : w.Written s (!b) := by
        by_contra hw
        rcases hs.seen hopen b seen hcall with rfl | ⟨hw', _⟩
        · exact hother (hbase hw)
        · exact hw hw'
      obtain rfl : seen = e₀ := by
        rcases hs.seen hopen b seen hcall with hseen | ⟨_, hseen⟩
        · exact hseen
        · exact absurd (hseen ▸ hchanged hw) hother
      refine .lost ?_ ?_ ?_
      · intro b'
        by_cases hb : b' = b
        · subst hb
          exact (written_move_self hcall).mpr ⟨outcome, hok, rfl⟩
        · obtain rfl : b' = !b := Bool.eq_not_of_ne hb
          rw [written_congr (Calls.call_move_ne s (toNat_ne_not b) _ _ _)]
          exact hw
      · unfold Open
        rw [Calls.call_move_ne s (toNat_ne_two b)]
        exact hopen
      · intro hboth
        rw [Calls.move_shared, hstored, w.both_eq b, Option.some.injEq] at hboth
        rw [hchanged hw, w.cancel b seen hboth] at hother
        exact hother rfl
    · refine .back entry messages ?_ ?_
      · rw [Calls.call_move_ne s (toNat_ne_two b)]
        exact hremoved
      · rw [Calls.move_shared, hstored]
        simp
  · rw [hopen] at hcall'
    simp at hcall'

/-- A race that is spoiled stays so. -/
theorem spoiled_step (hs : w.Race now e₀ s) (hspoiled : w.Spoiled now e₀ s)
    (h : Registry.staged.step s i = some t) : w.Spoiled now e₀ t := by
  have hwritten : ∀ {b}, w.Written s b → w.Written t b := by
    intro b hb
    obtain ⟨outcome, hok, hb⟩ := hb
    exact ⟨outcome, hok, Staged.done_step h hb⟩
  -- an update that has been stored takes no more steps
  have hover : ∀ {b progress}, w.Written s b →
      s.call b.toNat = some ((w.writer b).op, progress) → ∃ outcome, progress = .done outcome := by
    intro b progress hb hcall
    obtain ⟨outcome, _, hb⟩ := hb
    rw [hcall] at hb
    exact ⟨outcome, (Prod.mk.inj (Option.some.inj hb)).2⟩
  cases hspoiled with
  | back entry messages removed present =>
    refine .back entry messages (Staged.done_step h removed) ?_
    rcases race_step_cases hs h with
      ⟨b, progress, _, _, rfl, _⟩ | ⟨b, seen, outcome, _, _, hname, _, _, rfl⟩ |
        ⟨_, _, _, hopen, _, _⟩
    · exact present
    · rw [Calls.move_shared, Registry.stored_put, (w.writer b).change_name, hname]
      simp
    · rw [hopen] at removed
      simp at removed
  | lost written opened missing =>
    rcases race_step_cases hs h with
      ⟨b, _, _, hcall, _⟩ | ⟨b, _, _, _, hcall, _⟩ | ⟨entry, messages, _, _, hstored, rfl⟩
    · obtain ⟨outcome, hdone⟩ := hover (written b) hcall
      simp at hdone
    · obtain ⟨outcome, hdone⟩ := hover (written b) hcall
      simp at hdone
    · refine .taken (fun b => hwritten (written b)) entry messages
        (Calls.call_move_self opened _ _ _) ?_
      intro hentry
      rw [hstored, hentry] at missing
      exact missing rfl
  | taken written entry messages removed missing =>
    exact .taken (fun b => hwritten (written b)) entry messages (Staged.done_step h removed) missing

end

/-! ## One after the other -/

section

variable {r : Registry σ} {e : ServiceEntry} {b : Bool}

/-- An update of an absent entry fails. -/
theorem perform_absent (h : r.stored name = none) :
    ∃ outcome, outcome.isErr = true ∧ r.perform (w.writer b).op = (r, outcome) := by
  obtain ⟨outcome, herr, hfirst⟩ := (w.writer b).first_absent r h
  refine ⟨outcome, herr, ?_⟩
  have hsecond : (Registry.staged.first r (w.writer b).op).2 = .inr outcome := by
    show (r.first (w.writer b).op).2 = _
    rw [hfirst]
  rw [← Registry.alone_eq_perform, Staged.alone_of_first hsecond]
  show ((r.first (w.writer b).op).1, outcome) = _
  rw [hfirst]

/-- An update of an entry fails, or changes it. -/
theorem perform_present (h : r.stored name = some e) :
    ∃ outcome, (outcome.isErr = true ∧ r.perform (w.writer b).op = (r, outcome)) ∨
      (outcome.isErr = false ∧
        r.perform (w.writer b).op = (r.put ((w.writer b).change e), outcome)) := by
  cases haccepts : (w.writer b).accepts e with
  | false =>
    obtain ⟨outcome, herr, hfirst⟩ := (w.writer b).first_refused r e h haccepts
    refine ⟨outcome, .inl ⟨herr, ?_⟩⟩
    have hresult : (Registry.staged.first r (w.writer b).op).2 = .inr outcome := by
      show (r.first (w.writer b).op).2 = _
      rw [hfirst]
    rw [← Registry.alone_eq_perform, Staged.alone_of_first hresult]
    show ((r.first (w.writer b).op).1, outcome) = _
    rw [hfirst]
  | true =>
    obtain ⟨outcome, hok, hsecond⟩ := (w.writer b).second_accepted r e
    refine ⟨outcome, .inr ⟨hok, ?_⟩⟩
    have hheld : (Registry.staged.first r (w.writer b).op).2 = .inl (some e) := by
      show (r.first (w.writer b).op).2 = _
      rw [(w.writer b).first_accepted r e h haccepts]
    rw [← Registry.alone_eq_perform, Staged.alone_of_second hheld]
    exact hsecond

/-- The changes of the updates for which `a` holds. -/
def applied (a : Bool → Bool) (entry : ServiceEntry) : ServiceEntry :=
  let entry := if a true then (w.writer true).change entry else entry
  if a false then (w.writer false).change entry else entry

/-- The changes that are applied. -/
theorem applied_change (a : Bool → Bool) (b : Bool) (entry : ServiceEntry) :
    w.applied a ((w.writer b).change entry) = w.applied (fun c => c == b || a c) entry := by
  have hcomm : (w.writer true).change ((w.writer false).change entry) =
      (w.writer false).change ((w.writer true).change entry) := w.comm true entry
  unfold applied
  cases b with
  | true =>
    by_cases ht : a true = true
    · simp [ht, (w.writer true).change_change]
    · simp [ht]
  | false =>
    by_cases ht : a true = true
    · by_cases hf : a false = true
      · simp [ht, hf, hcomm, (w.writer false).change_change]
      · simp [ht, hf, hcomm]
    · by_cases hf : a false = true
      · simp [ht, hf, (w.writer false).change_change]
      · simp [ht, hf]

/-- The calls of an order, and those of them that are updates. -/
def IsUpdate (call : Nat × Operation × Outcome) : Prop :=
  ∃ b : Bool, call.1 = b.toNat ∧ call.2.1 = (w.writer b).op

/-- Updates of an absent entry, one after the other. -/
theorem absent_run : ∀ {order : List (Nat × Operation × Outcome)} {r : Registry σ},
    (∀ call ∈ order, w.IsUpdate call) → r.stored name = none →
    (after Registry.perform r (order.map fun call => call.2.1)).stored name = none ∧
      ∀ answer ∈ history Registry.perform r (order.map fun call => call.2.1),
        answer.2.isErr = true := by
  intro order
  induction order with
  | nil => intro r _ h; exact ⟨h, by simp [history]⟩
  | cons call order ih =>
    intro r hupdates h
    obtain ⟨b, _, hop⟩ := hupdates call (List.mem_cons_self ..)
    obtain ⟨outcome, herr, hperform⟩ := w.perform_absent (b := b) h
    obtain ⟨hafter, hhistory⟩ := ih (fun c hc => hupdates c (List.mem_cons_of_mem _ hc)) h
    rw [List.map_cons, hop, after, history, hperform]
    refine ⟨hafter, ?_⟩
    intro answer hanswer
    rcases List.mem_cons.mp hanswer with rfl | hanswer
    · exact herr
    · exact hhistory answer hanswer

/-- Updates of an entry, one after the other. -/
theorem present_run : ∀ {order : List (Nat × Operation × Outcome)} {r : Registry σ}
    {e : ServiceEntry}, (∀ call ∈ order, w.IsUpdate call) → r.stored name = some e →
    history Registry.perform r (order.map fun call => call.2.1) = order.map Prod.snd →
    ∃ a, (after Registry.perform r (order.map fun call => call.2.1)).stored name =
        some (w.applied a e) ∧
      ∀ call ∈ order, ∀ b : Bool, call.1 = b.toNat → call.2.2.isErr = false → a b = true := by
  intro order
  induction order with
  | nil =>
    intro r e _ h _
    exact ⟨fun _ => false, h, by simp⟩
  | cons call order ih =>
    intro r e hupdates h hhistory
    obtain ⟨b, hnumber, hop⟩ := hupdates call (List.mem_cons_self ..)
    have hrest : ∀ c ∈ order, w.IsUpdate c := fun c hc => hupdates c (List.mem_cons_of_mem _ hc)
    have hb : ∀ b' : Bool, call.1 = b'.toNat → b' = b := by
      intro b' hb'
      rw [hnumber] at hb'
      by_contra hne
      exact toNat_ne_not b (by rw [hb', Bool.eq_not_of_ne hne])
    rw [List.map_cons, List.map_cons, history] at hhistory
    obtain ⟨hanswer, hhistory⟩ := List.cons_eq_cons.mp hhistory
    obtain ⟨outcome, ⟨herr, hperform⟩ | ⟨hok, hperform⟩⟩ := w.perform_present (b := b) h
    · rw [hop, hperform] at hhistory hanswer
      obtain ⟨a, hafter, ha⟩ := ih hrest h hhistory
      rw [List.map_cons, hop, after, hperform]
      refine ⟨a, hafter, ?_⟩
      intro c hc b' hb' hok
      rcases List.mem_cons.mp hc with rfl | hc
      · rw [← hanswer, herr] at hok
        exact Bool.noConfusion hok
      · exact ha c hc b' hb' hok
    · rw [hop, hperform] at hhistory
      have hstored :
          (r.put ((w.writer b).change e)).stored name = some ((w.writer b).change e) := by
        rw [Registry.stored_put, (w.writer b).change_name, Registry.name_of_stored h,
          Function.update_self]
      obtain ⟨a, hafter, ha⟩ := ih hrest hstored hhistory
      rw [List.map_cons, hop, after, hperform]
      rw [w.applied_change] at hafter
      refine ⟨_, hafter, ?_⟩
      intro c hc b' hb' hok'
      rcases List.mem_cons.mp hc with rfl | hc
      · rw [hb b' hb']
        simp
      · rw [ha c hc b' hb' hok']
        simp

end

end Writers

/-- The calls that are over could have run one after the other: an order of them gives
each of them its result, and leaves the entry that is stored. -/
def Serializable (r₀ : Registry σ) (name : String) (s : RegistryCalls σ) : Prop :=
  ∃ order : List (Nat × Operation × Outcome), (order.map Prod.fst).Nodup ∧
    (∀ i op outcome, (i, op, outcome) ∈ order ↔ s.call i = some (op, .done outcome)) ∧
    history Registry.perform r₀ (order.map fun call => call.2.1) = order.map Prod.snd ∧
    (after Registry.perform r₀ (order.map fun call => call.2.1)).stored name =
      s.shared.stored name

/-- A serial run is serializable. -/
theorem Staged.Serial.serializable {r₀ : Registry σ} {order : List (Nat × Operation × Outcome)}
    {s : RegistryCalls σ} (h : Registry.staged.Serial r₀ order s) (name : String) :
    Serializable r₀ name s := by
  have halone : Registry.staged.alone = (Registry.perform : Registry σ → _) := by
    funext r op
    exact Registry.alone_eq_perform r op
  have hhistory := h.history_eq
  have hafter := h.after_eq
  rw [halone] at hhistory hafter
  exact ⟨order, h.nodup, h.mem, hhistory, by rw [hafter]⟩

namespace Writers

variable {name : String} {w : Writers σ name} {now : Timestamp} {e₀ : ServiceEntry}
  {r₀ : Registry σ} {s : RegistryCalls σ}

/-- A call other than the removal is one of the updates. -/
theorem isUpdate_of_call (hs : w.Race now e₀ s) {i : Nat} {op : Operation} {outcome : Outcome}
    (hcall : s.call i = some (op, .done outcome)) (hne : i ≠ 2) : w.IsUpdate (i, op, outcome) := by
  have hlt := (List.getElem?_eq_some_iff.mp hcall).1
  rw [hs.length] at hlt
  obtain ⟨b, rfl⟩ : ∃ b : Bool, i = b.toNat := by
    have hi : i = 0 ∨ i = 1 := by omega
    rcases hi with rfl | rfl
    · exact ⟨false, rfl⟩
    · exact ⟨true, rfl⟩
  obtain ⟨progress, hprogress, _⟩ := hs.writers b
  rw [hprogress] at hcall
  exact ⟨b, rfl, (Prod.mk.inj (Option.some.inj hcall)).1.symm⟩

/-- Around the removal, an order of the calls holds updates only. -/
theorem isUpdate_of_order (hs : w.Race now e₀ s) {before rest : List (Nat × Operation × Outcome)}
    {removal : Operation × Outcome}
    (hnodup : ((before ++ (2, removal) :: rest).map Prod.fst).Nodup)
    (hmem : ∀ i op outcome, (i, op, outcome) ∈ before ++ (2, removal) :: rest →
      s.call i = some (op, .done outcome)) :
    ∀ call ∈ before ++ rest, w.IsUpdate call := by
  intro call hcall
  obtain ⟨i, op, outcome⟩ := call
  have hin : (i, op, outcome) ∈ before ++ (2, removal) :: rest := by
    rw [List.mem_append, List.mem_cons]
    rw [List.mem_append] at hcall
    exact hcall.imp id .inr
  refine isUpdate_of_call hs (hmem i op outcome hin) ?_
  rintro rfl
  -- no call has two places in the order
  rw [List.map_append, List.map_cons, List.nodup_middle, ← List.map_append,
    List.nodup_cons] at hnodup
  exact hnodup.1 (List.mem_map.mpr ⟨_, hcall, rfl⟩)

/-- An order is cut at the removal. What comes before it finds the service, what comes
after it does not. -/
theorem not_serializable_of_spoiled (hs : w.Race now e₀ s) (hstored : r₀.stored name = some e₀)
    (hdone : ∀ i < 3, ∃ op outcome, s.call i = some (op, .done outcome))
    (hspoiled : w.Spoiled now e₀ s) : ¬ Serializable r₀ name s := by
  intro hserial
  obtain ⟨order, hnodup, hmem, hhistory, hafter⟩ := hserial
  obtain ⟨entry, messages, hremoved⟩ : ∃ entry messages,
      s.call 2 = some (.deregister name now, .done (.removed (.ok (entry, messages)))) := by
    rcases hs.removal with hopen | hremoved
    · obtain ⟨op, outcome, hcall⟩ := hdone 2 (by omega)
      rw [show s.call 2 = _ from hopen] at hcall
      simp at hcall
    · exact hremoved
  obtain ⟨before, rest, rfl⟩ := List.append_of_mem ((hmem 2 _ _).mpr hremoved)
  have hupdate : ∀ call ∈ before ++ rest, w.IsUpdate call :=
    isUpdate_of_order hs hnodup fun i op outcome hin => (hmem i op outcome).mp hin
  have hbefore : ∀ call ∈ before, w.IsUpdate call :=
    fun call hcall => hupdate call (List.mem_append_left _ hcall)
  have hrest : ∀ call ∈ rest, w.IsUpdate call :=
    fun call hcall => hupdate call (List.mem_append_right _ hcall)
  rw [List.map_append, List.map_append, history_append, List.map_cons, List.map_cons,
    history] at hhistory
  obtain ⟨hfirst, hlater⟩ := List.append_inj hhistory (by rw [length_history]; simp)
  obtain ⟨a, hfound, ha⟩ := w.present_run hbefore hstored hfirst
  -- the removal returns the entry as the updates before it have left it
  have hperform := Registry.deregister_present hfound now
  obtain ⟨hanswer, hrestHistory⟩ := List.cons_eq_cons.mp hlater
  rw [Registry.perform, hperform] at hanswer hrestHistory
  have hreturned : w.applied a e₀ = entry := by
    have hresult := congrArg Prod.snd hanswer
    simp only [Prod.map, Outcome.removed.injEq, Except.ok.injEq, Prod.mk.injEq] at hresult
    exact hresult.1
  rw [List.map_append, List.map_cons, after_append, after, Registry.perform, hperform] at hafter
  have habsent : ((after Registry.perform r₀ (before.map fun call => call.2.1)).remove name).stored
      name = none := by
    rw [Registry.stored_remove, Function.update_self]
  obtain ⟨hnone, herrors⟩ := w.absent_run hrest habsent
  -- each way of being spoiled contradicts what such an order leaves or answers
  cases hspoiled with
  | back _ _ _ present => exact present (hafter.symm.trans hnone)
  | lost _ opened _ =>
    rw [show s.call 2 = _ from opened] at hremoved
    simp at hremoved
  | taken written entry' messages' removed missing =>
    -- both updates have succeeded, so that they come before the removal
    have hall : ∀ b, a b = true := by
      intro b
      obtain ⟨outcome, hok, hcall⟩ := written b
      have hin := (hmem _ _ _).mpr hcall
      rw [List.mem_append, List.mem_cons] at hin
      rcases hin with hin | hin | hin
      · exact ha _ hin b rfl hok
      · exact absurd (congrArg Prod.fst hin) (toNat_ne_two b)
      · have herr := herrors ((w.writer b).op, outcome)
          (hrestHistory ▸ List.mem_map.mpr ⟨_, hin, rfl⟩)
        rw [hok] at herr
        exact Bool.noConfusion herr
    rw [hremoved] at removed
    obtain ⟨rfl, _⟩ : entry = entry' ∧ messages = messages' := by simpa using removed
    apply missing
    rw [← hreturned]
    unfold applied both
    simp [hall]

end Writers

/-- One state update, one endpoint update and one removal, none of which has begun. -/
def threeCalls (r₀ : Registry σ) (name : String) (u : StateUpdate) (endpoints : List Endpoint)
    (now now' : Timestamp) : RegistryCalls σ :=
  Calls.start r₀ [u.operation name, .updateEndpoints name endpoints now, .deregister name now']

/-- Where an order explains everything, no update has stored an entry over one it had not
read. -/
theorem fresh_of_serializable {r₀ : Registry σ} {name : String} {u : StateUpdate}
    {endpoints : List Endpoint} {now now' : Timestamp} {schedule : List Nat} {t : RegistryCalls σ}
    (hpresent : r₀.stored name ≠ none)
    (hrun : run Registry.staged.step (threeCalls r₀ name u endpoints now now') schedule = some t)
    (hdone : ∀ i < 3, ∃ op outcome, t.call i = some (op, .done outcome))
    (hserial : Serializable r₀ name t) : Always Registry.staged.step Registry.staged.Fresh
      (threeCalls r₀ name u endpoints now now') schedule := by
  obtain ⟨e₀, hstored⟩ := Option.ne_none_iff_exists'.mp hpresent
  let w : Writers σ name := .updates name u endpoints now
  have hstart : w.Race now' e₀ (threeCalls r₀ name u endpoints now now') :=
    Writers.race_start hstored
  have hinv : ∀ s i t, w.Race now' e₀ s → Registry.staged.step s i = some t → w.Race now' e₀ t :=
    fun s i t hs h => Writers.race_step hs h
  have hbad : ∀ s i t, w.Race now' e₀ s ∧ w.Spoiled now' e₀ s →
      Registry.staged.step s i = some t → w.Race now' e₀ t ∧ w.Spoiled now' e₀ t :=
    fun s i t hs h => ⟨Writers.race_step hs.1 h, Writers.spoiled_step hs.1 hs.2 h⟩
  refine always_of_end hinv ?_ hbad hstart hrun ?_
  · intro s i t hs hstale h
    exact ⟨Writers.race_step hs h, Writers.spoiled_of_stale hs hstale h⟩
  · intro hspoiled
    exact Writers.not_serializable_of_spoiled hspoiled.1 hstored hdone hspoiled.2 hserial

/-- For one state update, one endpoint update and one removal of a registered service in
any schedule in which all of them end: they could have run one after the other exactly
if each update that stores an entry still finds the entry it has read. -/
theorem three_calls_serializable_iff (r₀ : Registry σ) (name : String) (u : StateUpdate)
    (endpoints : List Endpoint) (now now' : Timestamp) (schedule : List Nat)
    (t : RegistryCalls σ) (hpresent : r₀.stored name ≠ none)
    (hrun : run Registry.staged.step (threeCalls r₀ name u endpoints now now') schedule = some t)
    (hdone : ∀ i < 3, ∃ op outcome, t.call i = some (op, .done outcome)) :
    Serializable r₀ name t ↔ Always Registry.staged.step Registry.staged.Fresh
      (threeCalls r₀ name u endpoints now now') schedule := by
  constructor
  · exact fresh_of_serializable hpresent hrun hdone
  · intro hfresh
    obtain ⟨order, horder⟩ := Staged.serial_of_fresh hfresh hrun
    exact Staged.Serial.serializable horder name

/-- The endpoints are updated first. Then the state update reads the entry, the service
is removed, and the state update stores what it has read. -/
theorem removal_race {r₀ : Registry σ} {name : String} {entry : ServiceEntry}
    (hentry : r₀.stored name = some entry) (u : StateUpdate) (endpoints : List Endpoint)
    (now now' : Timestamp) (hvalid : isValidTransition entry.state u.newState = true) :
    ∃ t, run Registry.staged.step (threeCalls r₀ name u endpoints now now') [1, 1, 0, 2, 0] =
        some t ∧
      (∀ i < 3, ∃ op outcome, t.call i = some (op, .done outcome)) ∧
      ¬ Serializable r₀ name t := by
  have hname := Registry.name_of_stored hentry
  let entry₁ : ServiceEntry := { entry with endpoints := endpoints }
  let entry₂ := entry₁.updateState u.newState u.changedAt
  let r₁ := r₀.put entry₁
  let r₂ := r₁.remove name
  let r₃ := r₂.put entry₂
  have hstored₁ : r₁.stored name = some entry₁ := by
    rw [Registry.stored_put, show entry₁.name = name from hname, Function.update_self]
  have hstored₂ : r₂.stored name = none := by
    rw [Registry.stored_remove, Function.update_self]
  have hfirst : r₁.first (u.operation name) = (r₁, .inl (some entry₁)) := by
    rw [StateUpdate.operation, Registry.first_updateState_present hstored₁,
      show isValidTransition entry₁.state u.newState = true from hvalid]
    rfl
  have hremove : r₁.first (.deregister name now') = (r₂, .inr (.removed (.ok (entry₁,
      r₁.emitEvent .serviceDeregistered (.service name now'))))) := by
    show Prod.map id Sum.inr (r₁.perform (.deregister name now')) = _
    rw [Registry.perform, Registry.deregister_present hstored₁]
    rfl
  -- the states between the five steps of the run
  let s₀ := threeCalls r₀ name u endpoints now now'
  let s₁ := s₀.move 1 r₀ (.updateEndpoints name endpoints now) (.holding (some entry))
  let s₂ := s₁.move 1 r₁ (.updateEndpoints name endpoints now)
    (.done (.sent (.ok (r₀.emitEvent .endpointUpdated (.endpoints name endpoints now)))))
  let s₃ := s₂.move 0 r₁ (u.operation name) (.holding (some entry₁))
  let s₄ := s₃.move 2 r₂ (.deregister name now')
    (.done (.removed (.ok (entry₁, r₁.emitEvent .serviceDeregistered (.service name now')))))
  let s₅ := s₄.move 0 r₃ (u.operation name)
    (.done (.stateChanged (.ok (entry₁.state, r₂.emitEvent .serviceStateChanged
      (.stateChange name entry₁.state u.newState u.now)))))
  have h₀ : Registry.staged.step s₀ 1 = some s₁ :=
    Staged.step_reads rfl (Registry.first_updateEndpoints_present hentry endpoints now)
  have h₁ : Registry.staged.step s₁ 1 = some s₂ :=
    Staged.step_acts rfl (Registry.second_updateEndpoints r₀ name endpoints now entry)
  have h₂ : Registry.staged.step s₂ 0 = some s₃ := Staged.step_reads rfl hfirst
  have h₃ : Registry.staged.step s₃ 2 = some s₄ := Staged.step_ends rfl hremove
  have h₄ : Registry.staged.step s₄ 0 = some s₅ :=
    Staged.step_acts rfl (Registry.second_updateState r₂ name _ _ _ entry₁)
  have hrun : run Registry.staged.step s₀ [1, 1, 0, 2, 0] = some s₅ := by
    rw [run_of_step h₀, run_of_step h₁, run_of_step h₂, run_of_step h₃, run_of_step h₄, run]
  have hdone : ∀ i < 3, ∃ op outcome, s₅.call i = some (op, .done outcome) := by
    intro i hi
    have hi : i = 0 ∨ i = 1 ∨ i = 2 := by omega
    rcases hi with rfl | rfl | rfl
    · exact ⟨_, _, rfl⟩
    · exact ⟨_, _, rfl⟩
    · exact ⟨_, _, rfl⟩
  refine ⟨s₅, hrun, hdone, ?_⟩
  intro hserial
  have hfresh := fresh_of_serializable (by rw [hentry]; simp) hrun hdone hserial
  have hrun₄ : run Registry.staged.step s₀ [1, 1, 0, 2] = some s₄ := by
    rw [run_of_step h₀, run_of_step h₁, run_of_step h₂, run_of_step h₃, run]
  have hread := @always_at _ _ _ _ [1, 1, 0, 2] 0 [] _ _ hfresh hrun₄ (u.operation name)
    (some entry₁) rfl
  change (r₂.first (u.operation name)).2 = _ at hread
  rw [StateUpdate.operation, Registry.first_updateState_absent hstored₂] at hread
  simp at hread

/-- `web` is removed while its state is updated, and is there again. -/
theorem web_back_after_removal : ¬ ∀ (serde : Serde) (r₀ : Registry (SledStore serde))
    (name : String) (u : StateUpdate) (endpoints : List Endpoint) (now now' : Timestamp)
    (schedule : List Nat) (t : RegistryCalls (SledStore serde)), r₀.stored name ≠ none →
    run Registry.staged.step (threeCalls r₀ name u endpoints now now') schedule = some t →
    (∀ i < 3, ∃ op outcome, t.call i = some (op, .done outcome)) →
    Serializable r₀ name t := by
  intro h
  obtain ⟨t, hrun, hdone, hnot⟩ := removal_race webStarting_stored ⟨.running, 1, 1⟩ [] 2 3 rfl
  exact hnot (h _ _ _ _ _ _ _ _ t (by rw [webStarting_stored]; simp) hrun hdone)

/-- A state change and new endpoints at once. -/
theorem three_calls_serializable_iff_web : ∃ t,
    run Registry.staged.step (threeCalls webStarting "web" ⟨.running, 1, 1⟩ [] 2 3)
      [1, 1, 0, 2, 0] = some t ∧
    (Serializable webStarting "web" t ↔ Always Registry.staged.step Registry.staged.Fresh
      (threeCalls webStarting "web" ⟨.running, 1, 1⟩ [] 2 3) [1, 1, 0, 2, 0]) := by
  obtain ⟨t, hrun, hdone, _⟩ := removal_race webStarting_stored ⟨.running, 1, 1⟩ [] 2 3 rfl
  exact ⟨t, hrun, three_calls_serializable_iff webStarting "web" _ _ _ _ _ t
    (by rw [webStarting_stored]; simp) hrun hdone⟩

end GraphHarness.ServiceRegistry
