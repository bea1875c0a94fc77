import GraphHarness.ServiceRegistry.Concurrency
import GraphHarness.ServiceRegistry.Registration

/-!
# Concurrent state updates

Any number of `update_state` calls on one service, in any schedule. A call checks the
transition from the state it has read, and reports that state. Whether the transition
made is the one it checked depends on nobody else having moved the state in between.

`Updating` is the invariant of the run, and says of each call what it has read and of the
stored entry that it is there. A write is legal exactly if the state it has read is the stored
one (`legal_of_undisturbed`, `undisturbed_of_legal`), so the condition on the schedule is
about the write alone.
-/

namespace GraphHarness.ServiceRegistry

open Trace (Progress Staged Calls Always run run_of_step run_preserves always_imp always_at)

/-- What one `update_state` call is asked for, with its readings of the clock. -/
structure StateUpdate where
  newState : ServiceState
  changedAt : Timestamp
  now : Timestamp

/-- The operation of an update. -/
def StateUpdate.operation (name : String) (u : StateUpdate) : Operation :=
  .updateState name u.newState u.changedAt u.now

variable {σ : Type} [RegistryBackend σ] [LawfulBackend σ]

/-- State updates of one service, none of which has begun. -/
def stateUpdates (r₀ : Registry σ) (name : String) (updates : List StateUpdate) :
    RegistryCalls σ :=
  Calls.start r₀ (updates.map (StateUpdate.operation name))

/-- The state that is stored for a service. -/
def Registry.storedState (registry : Registry σ) (name : String) : Option ServiceState :=
  (registry.stored name).map ServiceEntry.state

/-- The step keeps to the state machine: what is stored moves along a valid transition,
if it moves, and a call that succeeds with the step returns the state that was stored
before it and puts it into the event. -/
def Legal (name : String) (s : RegistryCalls σ) (i : Nat) : Prop :=
  ∀ t, Registry.staged.step s i = some t → ∃ old new,
    s.shared.storedState name = some old ∧ t.shared.storedState name = some new ∧
    (new ≠ old → isValidTransition old new = true) ∧
    ∀ u oldState messages,
      t.call i = some (StateUpdate.operation name u, .done (.stateChanged (.ok (oldState, messages)))) →
      oldState = old ∧ t.shared.directory.FansOut .serviceStateChanged
        (.stateChange name old u.newState u.now) messages

/-- When the call stores its entry, the stored state is still the one it has read. -/
def Undisturbed (name : String) (s : RegistryCalls σ) (i : Nat) : Prop :=
  ∀ op seen, s.call i = some (op, .holding (some seen)) →
    s.shared.storedState name = some seen.state

/-- What holds of state updates in every schedule. -/
structure Updating (r₀ : Registry σ) (name : String) (s : RegistryCalls σ) : Prop where
  subscribers : s.shared.subscribers = r₀.subscribers
  present : ∃ entry, s.shared.stored name = some entry
  progress : ∀ i op progress, s.call i = some (op, progress) →
    ∃ u, op = StateUpdate.operation name u ∧
      (progress = .ready ∨ (∃ outcome, progress = .done outcome) ∨
        ∃ seen, progress = .holding (some seen) ∧ seen.name = name ∧
          isValidTransition seen.state u.newState = true)

section

variable {r₀ : Registry σ} {name : String} {s t : RegistryCalls σ} {i : Nat}

theorem updating_start {r₀ : Registry σ} {name : String} (h : r₀.stored name ≠ none)
    (updates : List StateUpdate) : Updating r₀ name (stateUpdates r₀ name updates) where
  subscribers := rfl
  present := Option.ne_none_iff_exists'.mp h
  progress := by
    intro i op progress h
    obtain ⟨hop, rfl⟩ := Calls.call_start h
    obtain ⟨u, _, rfl⟩ := List.mem_map.mp (List.mem_of_getElem? hop)
    exact ⟨u, rfl, .inl rfl⟩

/-- The steps of a state update: the transition is found valid, it is refused, or the
entry that was read is stored with the new state. -/
theorem update_step_cases (hs : Updating r₀ name s) (h : Registry.staged.step s i = some t) :
    ∃ u,
      (∃ seen, s.call i = some (StateUpdate.operation name u, .ready) ∧
        seen.name = name ∧ isValidTransition seen.state u.newState = true ∧
        t = s.move i s.shared (StateUpdate.operation name u) (.holding (some seen))) ∨
      (∃ e, s.call i = some (StateUpdate.operation name u, .ready) ∧
        t = s.move i s.shared (StateUpdate.operation name u)
          (.done (.stateChanged (.error e)))) ∨
      (∃ seen, s.call i = some (StateUpdate.operation name u, .holding (some seen)) ∧
        seen.name = name ∧ isValidTransition seen.state u.newState = true ∧
        t = s.move i (s.shared.put (seen.updateState u.newState u.changedAt))
          (StateUpdate.operation name u)
          (.done (.stateChanged (.ok (seen.state, r₀.emitEvent .serviceStateChanged
            (.stateChange name seen.state u.newState u.now)))))) := by
  obtain ⟨entry, hentry⟩ := hs.present
  obtain ⟨op, hcases⟩ := Staged.step_cases h
  rcases hcases with ⟨held, hcall, hfirst, rfl⟩ | ⟨result, hcall, hfirst, rfl⟩ | ⟨held, hcall, rfl⟩
  · obtain ⟨u, rfl, _⟩ := hs.progress i op _ hcall
    refine ⟨u, .inl ⟨entry, hcall, Registry.name_of_stored hentry, ?_⟩⟩
    change (s.shared.first (.updateState name u.newState u.changedAt u.now)).2 = _ at hfirst
    rw [Registry.first_updateState_present hentry] at hfirst
    by_cases hvalid : isValidTransition entry.state u.newState = true
    · simp only [hvalid, if_true] at hfirst
      obtain rfl := Sum.inl.inj hfirst
      exact ⟨hvalid, rfl⟩
    · simp [hvalid] at hfirst
  · obtain ⟨u, rfl, _⟩ := hs.progress i op _ hcall
    refine ⟨u, .inr (.inl ⟨.invalidStateTransition entry.state u.newState, hcall, ?_⟩)⟩
    have hstep := Registry.first_updateState_present hentry u.newState u.changedAt u.now
    change (s.shared.first (.updateState name u.newState u.changedAt u.now)).2 = _ at hfirst
    rw [hstep] at hfirst
    by_cases hvalid : isValidTransition entry.state u.newState = true
    · simp [hvalid] at hfirst
    · simp only [hvalid] at hfirst
      obtain rfl := Sum.inr.inj hfirst
      show s.move i (s.shared.first (.updateState name u.newState u.changedAt u.now)).1 _ _ = _
      rw [hstep]
  · obtain ⟨u, rfl, hprogress⟩ := hs.progress i op _ hcall
    rcases hprogress with h | ⟨outcome, h⟩ | ⟨seen, hheld, hname, hvalid⟩
    · simp at h
    · simp at h
    · obtain rfl := Progress.holding.inj hheld
      refine ⟨u, .inr (.inr ⟨seen, hcall, hname, hvalid, ?_⟩)⟩
      show s.move i
        (s.shared.second (.updateState name u.newState u.changedAt u.now) (some seen)).1 _
        (.done (s.shared.second (.updateState name u.newState u.changedAt u.now) (some seen)).2) =
          _
      rw [Registry.second_updateState, Registry.emitEvent_congr hs.subscribers]

/-- One step keeps the description of the updates. -/
theorem updating_step (hs : Updating r₀ name s) (h : Registry.staged.step s i = some t) :
    Updating r₀ name t := by
  have hprogress : ∀ {u before after shared},
      s.call i = some (StateUpdate.operation name u, before) →
      (after = .ready ∨ (∃ outcome, after = .done outcome) ∨
        ∃ seen, after = .holding (some seen) ∧ seen.name = name ∧
          isValidTransition seen.state u.newState = true) →
      ∀ j op progress,
        (s.move i shared (StateUpdate.operation name u) after).call j = some (op, progress) →
        ∃ u, op = StateUpdate.operation name u ∧
          (progress = .ready ∨ (∃ outcome, progress = .done outcome) ∨
            ∃ seen, progress = .holding (some seen) ∧ seen.name = name ∧
              isValidTransition seen.state u.newState = true) := by
    intro u before after shared hcall hafter j op progress hj
    rcases Calls.call_move hcall hj with ⟨_, he⟩ | ⟨_, hj⟩
    · obtain ⟨rfl, rfl⟩ := Prod.mk.inj he
      exact ⟨u, rfl, hafter⟩
    · exact hs.progress j op progress hj
  obtain ⟨u, ⟨seen, hcall, hname, hvalid, rfl⟩ | ⟨e, hcall, rfl⟩ |
    ⟨seen, hcall, hname, hvalid, rfl⟩⟩ := update_step_cases hs h
  · exact ⟨hs.subscribers, hs.present,
      hprogress hcall (.inr (.inr ⟨seen, rfl, hname, hvalid⟩))⟩
  · exact ⟨hs.subscribers, hs.present, hprogress hcall (.inr (.inl ⟨_, rfl⟩))⟩
  · refine ⟨hs.subscribers, ⟨seen.updateState u.newState u.changedAt, ?_⟩,
      hprogress hcall (.inr (.inl ⟨_, rfl⟩))⟩
    rw [Calls.move_shared, Registry.stored_put, ServiceEntry.updateState_name, hname]
    exact Function.update_self ..

/-- A step that only reads changes no state and reports none. -/
theorem legal_read {u : StateUpdate} {before after : Progress (Option ServiceEntry) Outcome}
    (hs : Updating r₀ name s) (hcall : s.call i = some (StateUpdate.operation name u, before))
    (hafter : ∀ result, after ≠ .done (.stateChanged (.ok result)))
    (h : Registry.staged.step s i = some (s.move i s.shared (StateUpdate.operation name u) after)) :
    Legal name s i := by
  intro t ht
  obtain rfl := Option.some.inj (h.symm.trans ht)
  obtain ⟨entry, hentry⟩ := hs.present
  have hstate : s.shared.storedState name = some entry.state := by
    unfold Registry.storedState
    rw [hentry]
    rfl
  refine ⟨entry.state, entry.state, hstate, hstate, fun hne => absurd rfl hne, ?_⟩
  intro u' oldState messages hdone
  rw [Calls.call_move_self hcall] at hdone
  exact absurd (Prod.mk.inj (Option.some.inj hdone)).2 (hafter _)

theorem legal_of_undisturbed (hs : Updating r₀ name s) (hu : Undisturbed name s i) :
    Legal name s i := by
  intro t ht
  obtain ⟨u, ⟨seen, hcall, _, _, rfl⟩ | ⟨e, hcall, rfl⟩ | ⟨seen, hcall, hname, hvalid, rfl⟩⟩ :=
    update_step_cases hs ht
  · exact legal_read hs hcall (by simp) ht _ ht
  · exact legal_read hs hcall (by simp) ht _ ht
  · have hnew : (s.shared.put (seen.updateState u.newState u.changedAt)).storedState name =
        some u.newState := by
      unfold Registry.storedState
      rw [Registry.stored_put, ServiceEntry.updateState_name, hname, Function.update_self]
      rfl
    refine ⟨seen.state, u.newState, hu _ _ hcall, hnew, fun _ => hvalid, ?_⟩
    intro u' oldState messages hdone
    rw [Calls.call_move_self hcall] at hdone
    obtain ⟨hop, hresult⟩ := Prod.mk.inj (Option.some.inj hdone)
    obtain ⟨_, hstate, _, hnow⟩ := Operation.updateState.inj hop
    obtain ⟨rfl, rfl⟩ : seen.state = oldState ∧ _ = messages := by simpa using hresult
    refine ⟨rfl, ?_⟩
    have hemit := Registry.emitEvent_congr hs.subscribers
    rw [← hstate, ← hnow, ← hemit]
    exact Registry.fansOut_emitEvent (s.shared.put (seen.updateState u.newState u.changedAt)) _ _

theorem undisturbed_of_legal (hs : Updating r₀ name s) (hl : Legal name s i) :
    Undisturbed name s i := by
  intro op seen hcall
  obtain ⟨u, rfl, _⟩ := hs.progress i op _ hcall
  -- the call can store its entry, and reports the state it has read
  have hsecond := Registry.second_updateState s.shared name u.newState u.changedAt u.now seen
  obtain ⟨old, new, hold, _, _, hreport⟩ := hl _ (Staged.step_acts hcall hsecond)
  obtain ⟨hseen, _⟩ := hreport u seen.state _ (Calls.call_move_self hcall _ _ _)
  rw [hold, hseen]

end

/-- For any state updates of a registered service in any schedule: every step keeps to
the state machine exactly if no call stores its entry after somebody else has moved the
state it read. -/
theorem updates_legal_iff (r₀ : Registry σ) (name : String) (updates : List StateUpdate)
    (schedule : List Nat) (hpresent : r₀.stored name ≠ none) :
    Always Registry.staged.step (Legal name) (stateUpdates r₀ name updates) schedule ↔
      Always Registry.staged.step (Undisturbed name) (stateUpdates r₀ name updates) schedule := by
  have hstart := updating_start hpresent updates
  have hstep : ∀ {C : RegistryCalls σ → Nat → Prop} s i t, Updating r₀ name s → C s i →
      Registry.staged.step s i = some t → Updating r₀ name t := by
    intro C s i t hs _ h
    exact updating_step hs h
  constructor
  · exact always_imp hstep (fun s i hs hl => undisturbed_of_legal hs hl) hstart
  · exact always_imp hstep (fun s i hs hu => legal_of_undisturbed hs hu) hstart

/-- Two updates that both read the state before either stores a new one: the second
transition is not from the state that is stored, if the first has moved it. -/
theorem update_race {r₀ : Registry σ} {name : String} {entry : ServiceEntry}
    (hentry : r₀.stored name = some entry) {u u' : StateUpdate}
    (hvalid : isValidTransition entry.state u.newState = true)
    (hvalid' : isValidTransition entry.state u'.newState = true)
    (hmoved : u.newState ≠ entry.state) :
    ¬ Always Registry.staged.step (Legal name) (stateUpdates r₀ name [u, u']) [0, 1, 0, 1] := by
  have hname := Registry.name_of_stored hentry
  let op := StateUpdate.operation name u
  let op' := StateUpdate.operation name u'
  let s₀ := stateUpdates r₀ name [u, u']
  let s₁ := s₀.move 0 r₀ op (.holding (some entry))
  let s₂ := s₁.move 1 r₀ op' (.holding (some entry))
  let s₃ := s₂.move 0 (r₀.put (entry.updateState u.newState u.changedAt)) op
    (.done (.stateChanged (.ok (entry.state, r₀.emitEvent .serviceStateChanged
      (.stateChange name entry.state u.newState u.now)))))
  have hfirst : ∀ {v : StateUpdate}, isValidTransition entry.state v.newState = true →
      r₀.first (StateUpdate.operation name v) = (r₀, .inl (some entry)) := by
    intro v hv
    unfold StateUpdate.operation
    rw [Registry.first_updateState_present hentry, hv]
    rfl
  have h₀ : Registry.staged.step s₀ 0 = some s₁ := Staged.step_reads rfl (hfirst hvalid)
  have h₁ : Registry.staged.step s₁ 1 = some s₂ := Staged.step_reads rfl (hfirst hvalid')
  have h₂ : Registry.staged.step s₂ 0 = some s₃ :=
    Staged.step_acts rfl (Registry.second_updateState r₀ name _ _ _ entry)
  have hrun : run Registry.staged.step s₀ [0, 1, 0] = some s₃ := by
    rw [run_of_step h₀, run_of_step h₁, run_of_step h₂, run]
  intro hlegal
  have hstart : Updating r₀ name s₀ := updating_start (by rw [hentry]; simp) [u, u']
  have hs₃ : Updating r₀ name s₃ := run_preserves (fun s i t hs h => updating_step hs h) hstart hrun
  have hlegal₃ : Legal name s₃ 1 := @always_at _ _ _ _ [0, 1, 0] 1 [] _ _ hlegal hrun
  have hread := undisturbed_of_legal hs₃ hlegal₃ op' entry rfl
  rw [Registry.storedState, show s₃.shared = r₀.put _ from rfl, Registry.stored_put,
    ServiceEntry.updateState_name, hname, Function.update_self] at hread
  exact hmoved (Option.some.inj hread)

/-- A registry in which `web` is starting. -/
def webStarting : Registry (SledStore Serde.numbered) :=
  (Registry.new Serde.numbered).put { webEntry "1.0.0" with state := .starting }

theorem webStarting_stored :
    webStarting.stored "web" = some { webEntry "1.0.0" with state := .starting } := by
  unfold webStarting
  exact Registry.stored_put_self ..

/-- One client stops `web` while it starts, the other reports it running. -/
theorem web_stopping_then_running : ¬ ∀ (serde : Serde) (r₀ : Registry (SledStore serde))
    (name : String) (updates : List StateUpdate) (schedule : List Nat), r₀.stored name ≠ none →
    Always Registry.staged.step (Legal name) (stateUpdates r₀ name updates) schedule := by
  intro h
  have hrace := @update_race _ _ _ _ _ _ webStarting_stored ⟨.stopping, 1, 1⟩ ⟨.running, 2, 2⟩
    rfl rfl (by simp)
  exact hrace (h _ _ _ _ _ (by rw [webStarting_stored]; simp))

theorem updates_legal_iff_web :
    Always Registry.staged.step (Legal "web")
        (stateUpdates webStarting "web" [⟨.stopping, 1, 1⟩, ⟨.running, 2, 2⟩]) [0, 1, 0, 1] ↔
      Always Registry.staged.step (Undisturbed "web")
        (stateUpdates webStarting "web" [⟨.stopping, 1, 1⟩, ⟨.running, 2, 2⟩]) [0, 1, 0, 1] :=
  updates_legal_iff _ _ _ _ (by rw [webStarting_stored]; simp)

end GraphHarness.ServiceRegistry
