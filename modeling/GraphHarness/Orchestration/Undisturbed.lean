import GraphHarness.Orchestration.Accounts

/-!
# Calls that leave each other's names alone

What a client has to see to, as the manager does not: no start finds a name free that
another start or a stop is still busy with. Calls for different names may run at once in any
way, and so may stops.

> `undisturbed_safe`: then no service is replaced, every active service with a health check
> has its monitor, and whenever no call is going on the handles are those of the active
> processes.

`occupied` counts what is going on under a name: a start from its check to its entry, a stop
from its taking the service to its end, and the entry itself. While a client keeps its calls
apart this is never more than one (`Apart`), and everything follows from that together with
the account of `Orchestration.Accounts`.

The condition `Undisturbed` is about the step that finds a name free, and about nothing that
happens later; `separateCalls` has calls for two names between each other's steps.
-/

namespace GraphHarness.Orchestration

open Trace

/-- Between taking the service and removing its monitor. -/
def StopPhase.underway : StopPhase → Bool
  | .find _ | .untrack _ | .terminate | .kill | .stopContainer _ | .unmonitor => true
  | _ => false

/-- Whether the call is busy with the name. -/
def Call.busy (name : String) (call : Call) : Nat :=
  if call.name = name ∧ call.phase.starting = true then 1 else 0

/-- The stop has taken its service and is not done. -/
def StopCall.busy (name : String) (call : StopCall) : Nat :=
  if call.name = name ∧ call.phase.underway = true then 1 else 0

namespace Calls

/-- One if the name is active, else none. -/
def entries (name : String) (s : Calls) : Nat := if name ∈ s.manager.activeServices then 1 else 0

/-- How many calls are busy with a name, and whether it has an entry. -/
def occupied (name : String) (s : Calls) : Nat :=
  (s.starts.map (Call.busy name)).sum + (s.stops.map (StopCall.busy name)).sum + entries name s

/-- A start that finds its name free is the only one that is busy with it. -/
def Undisturbed (s : Calls) : CallEvent → Prop
  | .advanceStart i _ => ∀ call ∈ s.starts[i]?, call.phase.checking = true →
      call.name ∉ s.manager.activeServices → occupied call.name s = 0
  | _ => True

instance (s : Calls) : ∀ e, Decidable (s.Undisturbed e)
  | .advanceStart _ _ => inferInstanceAs (Decidable (∀ call ∈ _, _))
  | .start _ _ | .stop _ | .advanceStop _ _ => isTrue trivial

/-- Who is about to store a service with a health check has put its monitor there, and it is
still there once the service is stored. -/
structure Monitored (s : Calls) : Prop where
  active : ∀ name service, s.manager.activeServices.lookup name = some service →
    service.config.healthCheck ≠ none → name ∈ s.manager.healthMonitors
  storing : ∀ call ∈ s.starts, ∀ service, call.phase = .store service →
    call.config.healthCheck ≠ none → call.name ∈ s.manager.healthMonitors

/-- Nothing happens twice under one name, and monitors belong to active services. -/
structure Apart (s : Calls) : Prop where
  alone : ∀ name, occupied name s ≤ 1
  monitored : s.Monitored

/-! ## One call at a time -/

section Start

variable {manager manager' : Manager} {call : Call} {answer : Answer} {phase : Phase}

/-- A start is busy with its name from the check on, until the name has its entry. -/
theorem busy_advance (h : Orchestration.advance manager call answer = some (manager', phase))
    (name : String) :
    (({ call with phase := phase } : Call).busy name +
        (if name ∈ manager'.activeServices then 1 else 0) ≤
      call.busy name + if name ∈ manager.activeServices then 1 else 0) ∨
    (call.phase = .check ∧ call.name ∉ manager.activeServices ∧ name = call.name ∧
      manager'.activeServices = manager.activeServices) := by
  unfold Call.busy
  dsimp only
  by_cases hname : call.name = name
  · subst hname
    rcases advance_cases h with
      ⟨hactive, _, _, _, _, _, hstarting⟩ | ⟨_, hactive, _, _, _, _, _, _, hstarting⟩ |
      ⟨_, _, hactive, _, _, hphase, rfl⟩ | ⟨placed, hactive, _, _, hphase, hplaced⟩
    · rw [hactive]
      cases hafter : phase.starting with
      | false => exact .inl (by simp)
      | true =>
        rcases hstarting hafter with hbefore | ⟨hcheck, hfree⟩
        · exact .inl (by simp [hbefore])
        · exact .inr ⟨hcheck, hfree, rfl, rfl⟩
    · rw [hactive, hstarting]
      refine .inl (Nat.add_le_add_right ?_ _)
      split <;> simp
    · rw [hactive, hphase]
      exact .inl (le_refl _)
    · have hafter : phase.starting = false := by
        rcases hplaced with rfl | ⟨_, _, hnot⟩
        · rfl
        · exact hnot
      rw [hactive, hphase, hafter]
      left
      simp [Phase.starting]
  · left
    simp only [hname, false_and, if_false, zero_add]
    rcases advance_cases h with
      ⟨hactive, _⟩ | ⟨_, hactive, _⟩ | ⟨_, _, hactive, _⟩ | ⟨placed, hactive, _⟩
    · rw [hactive]
    · rw [hactive]
    · rw [hactive]
    · simp [hactive, AList.mem_insert, Ne.symm hname]

/-- A start puts its monitor there before its service, and removes none. -/
theorem advance_monitors (h : Orchestration.advance manager call answer = some (manager', phase)) :
    (∀ name ∈ manager.healthMonitors, name ∈ manager'.healthMonitors) ∧
      (∀ service, phase = .store service → call.config.healthCheck ≠ none →
        call.name ∈ manager'.healthMonitors) ∧
      (manager'.activeServices = manager.activeServices ∨ ∃ placed, call.phase = .store placed ∧
        manager'.activeServices = manager.activeServices.insert call.name placed) := by
  rcases advance_moves h with
    ⟨rfl, _, hafter, _⟩ | ⟨_, _, _, _, _, _, rfl, rfl⟩ | ⟨_, _, _, _, rfl, rfl⟩ |
    ⟨_, _, _, _, rfl, rfl⟩ | ⟨_, _, _, rfl, rfl⟩ | ⟨placed, hstore, _, rfl, hafter, _⟩
  · refine ⟨fun _ hname => hname, ?_, .inl rfl⟩
    rintro service rfl
    simp [Phase.carried] at hafter
  · exact ⟨fun _ hname => hname, by simp, .inl rfl⟩
  · exact ⟨fun _ hname => hname, by simp, .inl rfl⟩
  · exact ⟨fun _ hname => hname, by simp, .inl rfl⟩
  · cases hcheck : call.config.healthCheck with
    | none => exact ⟨fun _ hname => hname, by simp, .inl rfl⟩
    | some healthCheck =>
      refine ⟨fun name hname => (AList.mem_insert _).mpr (.inr hname), ?_, .inl rfl⟩
      intro _ _ _
      exact (AList.mem_insert _).mpr (.inl rfl)
  · refine ⟨fun _ hname => hname, ?_, .inr ⟨placed, hstore, rfl⟩⟩
    rintro service rfl
    simp [Phase.carried] at hafter

end Start

section Stop

variable {manager manager' : Manager} {call : StopCall} {answer : StopAnswer} {phase : StopPhase}

/-- A stop that goes on has taken an active service. -/
theorem underway_take (h : call.advance manager answer = some (manager', phase))
    (htake : call.phase = .take) (hunderway : phase.underway = true) :
    call.name ∈ manager.activeServices := by
  have hadvances := call.advances_of_advance h
  rw [htake] at hadvances
  cases hadvances with
  | taken service hlookup => exact AList.lookup_isSome.mp (by simp [hlookup])
  | absent => cases hunderway

/-- A stop that is busy with its name has been so since it took the entry. -/
theorem underway_advance (h : call.advance manager answer = some (manager', phase))
    (htake : call.phase ≠ .take) (hunderway : phase.underway = true) :
    call.phase.underway = true := by
  have hadvances := call.advances_of_advance h
  obtain ⟨name, before⟩ := call
  cases hadvances with
  | taken | absent => exact absurd rfl htake
  | updated => cases hunderway
  | _ => rfl

/-- A stop is busy with its name once it has taken the entry. -/
theorem busy_advanceStop (h : call.advance manager answer = some (manager', phase))
    (hfits : call.phase.Fits) (name : String) :
    ({ call with phase := phase } : StopCall).busy name +
        (if name ∈ manager'.activeServices then 1 else 0) ≤
      call.busy name + if name ∈ manager.activeServices then 1 else 0 := by
  unfold StopCall.busy
  dsimp only
  by_cases htake : call.phase = .take
  · rcases advanceStop_moves h hfits with ⟨_, rfl, _⟩ | ⟨_, huntrack, _⟩ | ⟨hnot, _⟩
    · by_cases hname : call.name = name
      · subst hname
        have htaken := underway_take h htake
        cases hafter : phase.underway with
        | false => simp
        | true => simp [htaken hafter]
      · simp [hname, AList.mem_erase, Ne.symm hname]
    · rw [htake] at huntrack
      cases huntrack
    · exact absurd htake hnot
  · have hactive : manager'.activeServices = manager.activeServices := by
      rcases advanceStop_moves h hfits with
        ⟨htake', _⟩ | ⟨_, _, _, rfl, _⟩ | ⟨_, hmanager, _⟩
      · exact absurd htake' htake
      · rfl
      · rcases hmanager with rfl | ⟨_, rfl⟩
        · rfl
        · rfl
    rw [hactive]
    refine Nat.add_le_add_right ?_ _
    cases hafter : phase.underway with
    | false => simp
    | true => rw [underway_advance h htake hafter]

end Stop

/-! ## What holds along the run -/

section Step

variable {s : Calls} {i : Nat} {manager : Manager}

/-- A start and the entry are among what occupies the name. -/
theorem busy_start {call : Call} (hcall : s.starts[i]? = some call) (name : String) :
    call.busy name + entries name s ≤ occupied name s := by
  unfold occupied
  rw [sum_eq_eraseIdx _ hcall]
  omega

/-- So are a stop and the entry. -/
theorem busy_stop {stop : StopCall} (hstop : s.stops[i]? = some stop) (name : String) :
    stop.busy name + entries name s ≤ occupied name s := by
  unfold occupied
  rw [sum_eq_eraseIdx _ hstop]
  omega

/-- So are a start and a stop. -/
theorem busy_both {stop : StopCall} (hstop : s.stops[i]? = some stop) {start : Call}
    (hstart : start ∈ s.starts) (name : String) :
    start.busy name + stop.busy name ≤ occupied name s := by
  obtain ⟨j, hj⟩ := List.getElem?_of_mem hstart
  unfold occupied
  rw [sum_eq_eraseIdx _ hstop, sum_eq_eraseIdx _ hj]
  omega

/-- With no call busy and no entry before it, one call is busy with the name. -/
theorem alone_start {call : Call} {answer : Answer} {phase : Phase}
    (hcall : s.starts[i]? = some call)
    (hadvance : Orchestration.advance s.manager call answer = some (manager, phase))
    (hundisturbed : call.phase.checking = true → call.name ∉ s.manager.activeServices →
      occupied call.name s = 0) (h : ∀ name, occupied name s ≤ 1) (name : String) :
    occupied name
      { s with manager := manager, starts := s.starts.set i { call with phase := phase } } ≤ 1 := by
  have hbefore := h name
  have hafter : ({ call with phase := phase } : Call).busy name ≤ 1 := by
    unfold Call.busy
    split <;> simp
  rcases busy_advance hadvance name with hle | ⟨hcheck, hfree, rfl, hactive⟩
  · unfold occupied entries at hbefore ⊢
    rw [sum_eq_eraseIdx _ hcall] at hbefore
    rw [sum_set _ hcall]
    dsimp only at hle ⊢
    omega
  · have hnone := hundisturbed (by rw [hcheck]; rfl) hfree
    unfold occupied entries at hnone ⊢
    rw [sum_eq_eraseIdx _ hcall] at hnone
    rw [sum_set _ hcall, hactive]
    dsimp only
    omega

/-- A step of a stop keeps the name to one. -/
theorem alone_stop {call : StopCall} {answer : StopAnswer} {phase : StopPhase}
    (hcall : s.stops[i]? = some call) (hfits : call.phase.Fits)
    (hadvance : call.advance s.manager answer = some (manager, phase))
    (h : ∀ name, occupied name s ≤ 1) (name : String) :
    occupied name
      { s with manager := manager, stops := s.stops.set i { call with phase := phase } } ≤ 1 := by
  have hbefore := h name
  have hle := busy_advanceStop hadvance hfits name
  unfold occupied entries at hbefore ⊢
  rw [sum_eq_eraseIdx _ hcall] at hbefore
  rw [sum_set _ hcall]
  dsimp only at hle ⊢
  omega

/-- A step of a start keeps the monitors in order. -/
theorem monitored_start {call : Call} {answer : Answer} {phase : Phase}
    (hcall : s.starts[i]? = some call) (hfits : call.phase.Fits call.config)
    (hadvance : Orchestration.advance s.manager call answer = some (manager, phase))
    (h : s.Monitored) :
    Monitored { s with manager := manager, starts := s.starts.set i { call with phase := phase } } := by
  obtain ⟨hmonitors, hstores, hactive⟩ := advance_monitors hadvance
  refine ⟨?_, ?_⟩
  · intro name service hlookup hcheck
    have hlookup' : manager.activeServices.lookup name = some service := hlookup
    rcases hactive with hsame | ⟨placed, hstore, hinsert⟩
    · rw [hsame] at hlookup'
      exact hmonitors name (h.active name service hlookup' hcheck)
    · rw [hinsert] at hlookup'
      by_cases hname : name = call.name
      · subst hname
        obtain rfl : placed = service := by simpa using hlookup'
        rw [hstore] at hfits
        exact hmonitors call.name
          (h.storing call (List.mem_of_getElem? hcall) placed hstore (hfits ▸ hcheck))
      · rw [AList.lookup_insert_ne hname] at hlookup'
        exact hmonitors name (h.active name service hlookup' hcheck)
  · intro other hother service hstoring hcheck
    rcases List.mem_or_eq_of_mem_set hother with hold | rfl
    · exact hmonitors other.name (h.storing other hold service hstoring hcheck)
    · exact hstores service hstoring hcheck

/-- A monitor is removed while nobody else is busy with its name, and there is no entry. -/
theorem monitored_stop {call : StopCall} {answer : StopAnswer} {phase : StopPhase}
    (hcall : s.stops[i]? = some call) (hfits : call.phase.Fits)
    (hadvance : call.advance s.manager answer = some (manager, phase))
    (halone : ∀ name, occupied name s ≤ 1) (h : s.Monitored) :
    Monitored { s with manager := manager, stops := s.stops.set i { call with phase := phase } } := by
  rcases advanceStop_moves hadvance hfits with
    ⟨_, rfl, _⟩ | ⟨_, _, _, rfl, _⟩ | ⟨_, rfl | ⟨hunmonitor, rfl⟩, _⟩
  · refine ⟨?_, h.storing⟩
    intro name service hlookup
    by_cases hname : name = call.name
    · subst hname
      rw [AList.lookup_erase] at hlookup
      cases hlookup
    · exact h.active name service ((AList.lookup_erase_ne hname).symm.trans hlookup)
  · exact ⟨h.active, h.storing⟩
  · exact ⟨h.active, h.storing⟩
  · have hbusy : call.busy call.name = 1 := by
      simp [StopCall.busy, hunmonitor, StopPhase.underway]
    refine ⟨?_, ?_⟩
    · intro name service hlookup hcheck
      refine AList.mem_erase.mpr ⟨?_, h.active name service hlookup hcheck⟩
      rintro rfl
      have hentry : entries call.name s = 1 := if_pos (AList.lookup_isSome.mp (by simp [hlookup]))
      have hle := (busy_stop hcall call.name).trans (halone call.name)
      omega
    · intro start hstart service hstoring hcheck
      refine AList.mem_erase.mpr ⟨?_, h.storing start hstart service hstoring hcheck⟩
      intro hname
      have hstarting : start.busy call.name = 1 := by
        simp [Call.busy, hname, hstoring, Phase.starting]
      have hle := (busy_both hcall hstart call.name).trans (halone call.name)
      omega

/-- At the start nothing happens. -/
theorem apart_new : Apart new := by
  refine ⟨fun _ => Nat.zero_le _, ?_, ?_⟩
  · simp [new, Manager.new]
  · simp [new]

/-- One step that disturbs nothing keeps that. -/
theorem apart_step {account : Way → Multiset RunningService} {e : CallEvent} {t : Calls}
    (haccount : Accounted s account) (h : Apart s) (hundisturbed : s.Undisturbed e)
    (hstep : s.step e = some t) : Apart t := by
  rcases step_cases hstep with
    ⟨name, config, rfl, rfl⟩ | ⟨i, answer, call, manager, phase, rfl, hcall, hadvance, rfl⟩ |
    ⟨name, rfl, rfl⟩ | ⟨i, answer, call, manager, phase, rfl, hcall, hadvance, rfl⟩
  · refine ⟨?_, h.monitored.active, ?_⟩
    · intro other
      have halone := h.alone other
      unfold occupied at halone ⊢
      simpa [Call.busy, Phase.starting, entries] using halone
    · intro call hcall service hstoring
      rcases List.mem_append.mp hcall with hold | hnew
      · exact h.monitored.storing call hold service hstoring
      · rw [List.mem_singleton.mp hnew] at hstoring
        cases hstoring
  · have hfits := haccount.starts call (List.mem_of_getElem? hcall)
    exact ⟨alone_start hcall hadvance (hundisturbed call hcall) h.alone,
      monitored_start hcall hfits hadvance h.monitored⟩
  · refine ⟨?_, h.monitored.active, h.monitored.storing⟩
    intro other
    have halone := h.alone other
    unfold occupied at halone ⊢
    simpa [StopCall.busy, StopPhase.underway, entries] using halone
  · have hfits := (haccount.stops call (List.mem_of_getElem? hcall)).1
    exact ⟨alone_stop hcall hfits hadvance h.alone,
      monitored_stop hcall hfits hadvance h.alone h.monitored⟩

/-- A start that stores its service is alone with the name, and so the name is free. -/
theorem replaced_apart (s : Calls) (e : CallEvent) (h : Apart s) : s.replaced e = 0 := by
  cases e with
  | advanceStart i answer =>
    show (s.starts[i]?).elim 0 (·.replaced s.manager) = 0
    cases hcall : s.starts[i]? with
    | none => rfl
    | some call =>
      rw [Option.elim_some]
      cases hphase : call.phase with
      | store service =>
        have hbusy : call.busy call.name = 1 := by
          simp [Call.busy, hphase, Phase.starting]
        have hfree : call.name ∉ s.manager.activeServices := by
          intro hentry
          have hle := (busy_start hcall call.name).trans (h.alone call.name)
          simp [hbusy, entries, hentry] at hle
        simp [Call.replaced, hphase, HashMap.valueAt, AList.lookup_eq_none.mpr hfree]
      | check | inject | launch | track | startContainer | monitor | register | done =>
        exact call.replaced_of_ne (by simp [hphase]) _
  | start | stop | advanceStop => rfl

end Step

/-- No call is going on. -/
structure Quiet (s : Calls) : Prop where
  starts : ∀ call ∈ s.starts, call.phase.inProgress = false
  stops : ∀ call ∈ s.stops, ∃ result, call.phase = .done result

section Runs

variable {events : List CallEvent} {s : Calls}

/-- With no call on its way all services are active. -/
theorem Quiet.places (h : s.Quiet) : s.starting = 0 ∧ s.tracking = 0 ∧ s.stopping = 0 := by
  have hstarts : ∀ call ∈ s.starts, call.phase.carried = 0 ∧ call.phase.tracking = 0 := by
    intro call hcall
    have hdone := h.starts call hcall
    cases hphase : call.phase with
    | done result => exact ⟨rfl, rfl⟩
    | check | inject | launch | track | startContainer | monitor | store | register =>
      rw [hphase] at hdone
      cases hdone
  refine ⟨List.sum_eq_zero ?_, List.sum_eq_zero ?_, List.sum_eq_zero ?_⟩
  · rintro _ hmem
    obtain ⟨call, hcall, rfl⟩ := List.mem_map.mp hmem
    exact (hstarts call hcall).1
  · rintro _ hmem
    obtain ⟨call, hcall, rfl⟩ := List.mem_map.mp hmem
    exact (hstarts call hcall).2
  · rintro _ hmem
    obtain ⟨call, hcall, rfl⟩ := List.mem_map.mp hmem
    obtain ⟨result, hdone⟩ := h.stops call hcall
    rw [hdone]
    rfl

/-- As long as no start finds a name free that another call is busy with: no service is
replaced, so that no two starts of a name succeed without a stop between them; no active
service with a health check is without its monitor, whatever stops run besides; and when all
calls have ended the handles are those of the active processes, none lost and none left. -/
theorem undisturbed_safe (hrun : run step new events = some s)
    (hundisturbed : Always step Undisturbed new events) :
    moved .replaced events = 0 ∧ s.Monitored ∧
      (s.Quiet → ↑s.manager.runningProcesses.keys = handles s.active) := by
  have hinv : ∀ (s : Calls) (e : CallEvent) (t : Calls), (∃ account, Accounted s account) ∧ s.Apart →
      s.Undisturbed e → s.step e = some t → (∃ account, Accounted t account) ∧ t.Apart := by
    rintro s e t ⟨⟨account, haccount⟩, hapart⟩ hstep hs
    exact ⟨⟨_, accounted_step s e t account haccount hs⟩, apart_step haccount hapart hstep hs⟩
  have hnew : (∃ account, Accounted new account) ∧ new.Apart := ⟨⟨0, accounted_new⟩, apart_new⟩
  have hreplaced : moved .replaced events = 0 :=
    total_eq_zero hinv (fun s e h _ => replaced_apart s e h.2) hnew hundisturbed
  refine ⟨hreplaced, (run_invariant hinv hnew hundisturbed hrun).2.monitored, ?_⟩
  intro hquiet
  obtain ⟨hstarting, htracking, hstopping⟩ := hquiet.places
  have hhandles := (accounted_run hrun).handles
  rwa [hstarting, htracking, hstopping, hreplaced, ids_zero, add_zero, add_zero, zero_add,
    add_zero] at hhandles

/-- Two services start at once, and one of them is stopped meanwhile. -/
def separateCalls : List CallEvent :=
  [.start "db" sleepConfig, .start "api" sleepConfig, .advanceStart 0 .nothing,
    .advanceStart 1 .nothing, .advanceStart 1 .nothing, .advanceStart 0 .nothing,
    .advanceStart 1 (.launched (.ok (some 11))), .advanceStart 0 (.launched (.ok (some 12))),
    .advanceStart 0 .nothing, .advanceStart 0 .nothing, .advanceStart 0 .nothing,
    .stop "db", .advanceStop 0 .nothing, .advanceStart 1 .nothing, .advanceStop 0 .nothing,
    .advanceStop 0 .nothing, .advanceStart 1 .nothing, .advanceStop 0 (.halted (.ok ())),
    .advanceStart 0 .nothing, .advanceStart 1 .nothing, .advanceStop 0 .nothing,
    .advanceStop 0 .nothing, .advanceStart 1 .nothing]

/-- Calls of two names at once. -/
theorem undisturbed_safe_separate : ∃ s, run step new separateCalls = some s ∧
    moved .replaced separateCalls = 0 ∧ s.Monitored ∧
      ↑s.manager.runningProcesses.keys = handles s.active := by
  have hrun : run step new separateCalls = some _ := rfl
  obtain ⟨hreplaced, hmonitored, hquiet⟩ := undisturbed_safe hrun (by decide)
  refine ⟨_, hrun, hreplaced, hmonitored, hquiet ⟨by decide, ?_⟩⟩
  intro call hcall
  rw [List.mem_singleton.mp hcall]
  exact ⟨_, rfl⟩

end Runs

end Calls

end GraphHarness.Orchestration
