import GraphHarness.Orchestration.Manager

/-!
# At most one start for each service

The check of a start and its entry in `active_services` are two steps, and another
call can come in between. Where that happens both calls store a service under the
name; the process of the first one is then still tracked, but no name leads to it.

> `startService_safe` — **as long as no call stores a service under a name that has
> one**, at most one call for each name succeeds, and every tracked process is the
> one of the service stored under its name, or of a call that is still going on. No
> call does so if no call finds a name free that another one is just starting.

A step changes one call and the shared manager, and `Advances` is the inversion of it, with a
constructor for each of the things a step can do; nothing after it unfolds `advance`. The
invariant `Inv` has four parts: no two calls have launched one service, what a call has stored
and not lost is still there, what has been built fits its configuration, and each handle has
an owner. A step keeps it if it overwrites nothing (`inv_step`), and `Exclusion` is the reason
why it overwrites nothing if no call finds a name free that another one is starting.

What the model leaves out of the source: locks are held for one step and never over two, as
the guards are dropped at the end of their statements; the tasks that drain the output of a
process do not touch the manager; and a call that is cancelled is one that takes no more
steps. `race_not_safe` is a run of two starts in which both succeed and the handle of the
first process has no owner.
-/

namespace GraphHarness.Orchestration

open Trace

/-! ## What is said of a state -/

/-- The service a call has started. -/
def Phase.service : Phase → Option RunningService
  | .track service _ | .monitor service | .store service | .register service => some service
  | .done (.ok service) => some service
  | _ => none

/-- The service a call has stored, and has not failed with since. -/
def Phase.stored : Phase → Option RunningService
  | .register service => some service
  | .done (.ok service) => some service
  | _ => none

/-- The call has not returned. -/
def Phase.inProgress : Phase → Bool
  | .done _ => false
  | _ => true

/-- Between the check and the entry. -/
def Phase.starting : Phase → Bool
  | .inject | .launch | .track .. | .startContainer | .monitor .. | .store .. => true
  | _ => false

/-- The next step is the check. -/
def Phase.checking : Phase → Bool
  | .check => true
  | _ => false

/-- The next step is the entry into the map. -/
def Phase.storing : Phase → Bool
  | .store _ => true
  | _ => false

/-- At most one call for each name returns a service. -/
def AtMostOneOk (s : State) : Prop :=
  ∀ (i j : Nat) (ci cj : Call) (ri rj : RunningService), s.calls[i]? = some ci →
    s.calls[j]? = some cj → ci.name = cj.name → ci.phase = .done (.ok ri) →
    cj.phase = .done (.ok rj) → i = j

/-- The process is the one of a service that a call has started: it is stored under the
name of the call, or the call is in progress. -/
def OwnedProcess (s : State) (id : Nat) : Prop :=
  ∃ (i : Nat) (call : Call) (service : RunningService), s.calls[i]? = some call ∧
    service.id = id ∧ service.name = call.config.name ∧ service.config = call.config ∧
    (s.manager.activeServices.lookup call.name = some service ∨
      (call.phase.inProgress = true ∧ call.phase.service = some service))

/-- Each handle is that of an active service, or of a call on its way there. -/
def Owned (s : State) : Prop := ∀ id ∈ s.manager.runningProcesses, OwnedProcess s id

/-- The step stores no service under a name that has one. -/
def NoOverwrite (s : State) : Event → Prop
  | .request _ _ => True
  | .advance i _ => ∀ call ∈ s.calls[i]?, call.phase.storing = true →
      call.name ∉ s.manager.activeServices

/-- The step finds no name free that another call is starting. -/
def Exclusive (s : State) : Event → Prop
  | .request _ _ => True
  | .advance i _ => ∀ call ∈ s.calls[i]?, call.phase.checking = true →
      call.name ∉ s.manager.activeServices →
      ∀ other ∈ s.calls, other.name = call.name → other.phase.starting = false

instance (s : State) : ∀ e, Decidable (NoOverwrite s e)
  | .request _ _ => isTrue trivial
  | .advance _ _ => inferInstanceAs (Decidable (∀ call ∈ _, _))

instance (s : State) : ∀ e, Decidable (Exclusive s e)
  | .request _ _ => isTrue trivial
  | .advance _ _ => inferInstanceAs (Decidable (∀ call ∈ _, _))

/-- A service whose process is not tracked yet has been built from the configuration. -/
def Phase.Built (config : ServiceConfig) : Phase → Prop
  | .track service _ => service.name = config.name ∧ service.config = config
  | _ => True

/-! ## What a step can do -/

/-- The steps of a start of `config` under `name`, one for each way out of a phase: what the
call learns, and the manager and the phase after it. -/
inductive Advances (manager : Manager) (name : String) (config : ServiceConfig) :
    Phase → Answer → Manager × Phase → Prop where
  | taken (h : name ∈ manager.activeServices) :
      Advances manager name config .check .nothing (manager, .done (.error (.serviceExists name)))
  | free (h : name ∉ manager.activeServices) :
      Advances manager name config .check .nothing (manager, .inject)
  | process (h : findExecutor config = .ok .process) :
      Advances manager name config .inject .nothing (manager, .launch)
  | docker (h : findExecutor config = .ok .docker) :
      Advances manager name config .inject .nothing (manager, .startContainer)
  | noExecutor {e : Error} (h : findExecutor config = .error e) :
      Advances manager name config .inject .nothing (manager, .done (.error e))
  | launched (pid : Option UInt32) :
      Advances manager name config .launch (.launched (.ok pid))
        ({ manager with issued := manager.issued + 1 },
          .track (((RunningService.new manager.issued config.name config).withPid
            (pid.getD 0)).withMetadata "executor_type" "process") ⟨pid⟩)
  | notLaunched (message : String) :
      Advances manager name config .launch (.launched (.error message))
        (manager, .done (.error (.commandExecutor message)))
  | tracked (service : RunningService) (info : ProcessInfo) :
      Advances manager name config (.track service info) .nothing
        ({ manager with runningProcesses := manager.runningProcesses.insert service.id info },
          .monitor service)
  | container (service : RunningService) :
      Advances manager name config .startContainer (.container (.ok service))
        ({ manager with issued := manager.issued + 1 },
          .monitor { service with id := manager.issued })
  | noContainer (e : Error) :
      Advances manager name config .startContainer (.container (.error e))
        (manager, .done (.error e))
  | monitored (service : RunningService) {healthCheck : HealthCheck}
      (h : config.healthCheck = some healthCheck) :
      Advances manager name config (.monitor service) .nothing
        ({ manager with healthMonitors := manager.healthMonitors.insert name healthCheck },
          .store service)
  | unmonitored (service : RunningService) (h : config.healthCheck = none) :
      Advances manager name config (.monitor service) .nothing (manager, .store service)
  | blank (service : RunningService) (h : isBlankName name = true) :
      Advances manager name config (.store service) .nothing
        ({ manager with activeServices := manager.activeServices.insert name service },
          .done (.error (.registry "Service name cannot be empty")))
  | stored (service : RunningService) (h : ¬ isBlankName name = true) :
      Advances manager name config (.store service) .nothing
        ({ manager with activeServices := manager.activeServices.insert name service },
          .register service)
  | registered (service : RunningService) :
      Advances manager name config (.register service) .nothing (manager, .done (.ok service))

/-- A step of a call is one of these. Everything that is said of a step below is a case
analysis of them. -/
theorem advances_of_advance {manager : Manager} {call : Call} {answer : Answer}
    {result : Manager × Phase} (h : advance manager call answer = some result) :
    Advances manager call.name call.config call.phase answer result := by
  revert h
  -- one case for each branch of `advance`, in its order
  fun_cases advance manager call answer with
  | case1 hphase hname =>
    intro h
    rw [hphase, ← Option.some.inj h]
    exact .taken hname
  | case2 hphase hname =>
    intro h
    rw [hphase, ← Option.some.inj h]
    exact .free hname
  | case3 hphase hexecutor =>
    intro h
    rw [hphase, ← Option.some.inj h]
    exact .process hexecutor
  | case4 hphase hexecutor =>
    intro h
    rw [hphase, ← Option.some.inj h]
    exact .docker hexecutor
  | case5 hphase e hexecutor =>
    intro h
    rw [hphase, ← Option.some.inj h]
    exact .noExecutor hexecutor
  | case6 pid hphase service =>
    intro h
    rw [hphase, ← Option.some.inj h]
    exact .launched pid
  | case7 message hphase =>
    intro h
    rw [hphase, ← Option.some.inj h]
    exact .notLaunched message
  | case8 service info hphase =>
    intro h
    rw [hphase, ← Option.some.inj h]
    exact .tracked service info
  | case9 service hphase =>
    intro h
    rw [hphase, ← Option.some.inj h]
    exact .container service
  | case10 e hphase =>
    intro h
    rw [hphase, ← Option.some.inj h]
    exact .noContainer e
  | case11 service hphase healthCheck hcheck =>
    intro h
    rw [hphase, ← Option.some.inj h]
    exact .monitored service hcheck
  | case12 service hphase hcheck =>
    intro h
    rw [hphase, ← Option.some.inj h]
    exact .unmonitored service hcheck
  | case13 service hphase manager' hblank =>
    intro h
    rw [hphase, ← Option.some.inj h]
    exact .blank service hblank
  | case14 service hphase manager' hblank =>
    intro h
    rw [hphase, ← Option.some.inj h]
    exact .stored service hblank
  | case15 service hphase =>
    intro h
    rw [hphase, ← Option.some.inj h]
    exact .registered service
  | case16 =>
    intro h
    cases h

/-- One step of a call: it goes on and shares nothing, it starts a service, it tracks
its process, or it stores it. -/
theorem advance_cases {manager manager' : Manager} {call : Call} {answer : Answer} {phase : Phase}
    (h : advance manager call answer = some (manager', phase)) :
    (manager'.activeServices = manager.activeServices ∧
      manager'.runningProcesses = manager.runningProcesses ∧ manager'.issued = manager.issued ∧
      phase.service = call.phase.service ∧ phase.stored = call.phase.stored ∧
      (phase.service = none ∨ phase.inProgress = true ∨ phase.stored = phase.service) ∧
      (phase.starting = true → call.phase.starting = true ∨
        (call.phase = .check ∧ call.name ∉ manager.activeServices))) ∨
    (∃ service, manager'.activeServices = manager.activeServices ∧
      manager'.runningProcesses = manager.runningProcesses ∧
      manager'.issued = manager.issued + 1 ∧ service.id = manager.issued ∧
      call.phase.service = none ∧ phase.service = some service ∧ phase.stored = none ∧
      call.phase.starting = true) ∨
    (∃ service info, manager'.activeServices = manager.activeServices ∧
      manager'.runningProcesses = manager.runningProcesses.insert service.id info ∧
      manager'.issued = manager.issued ∧ call.phase = .track service info ∧
      phase = .monitor service) ∨
    (∃ service, manager'.activeServices = manager.activeServices.insert call.name service ∧
      manager'.runningProcesses = manager.runningProcesses ∧ manager'.issued = manager.issued ∧
      call.phase = .store service ∧
      (phase = .register service ∨ phase.service = none ∧ phase.stored = none ∧
        phase.starting = false)) := by
  have hadvances := advances_of_advance h
  obtain ⟨name, config, before⟩ := call
  cases hadvances with
  | free hname =>
    exact .inl ⟨rfl, rfl, rfl, rfl, rfl, .inl rfl, fun _ => .inr ⟨rfl, hname⟩⟩
  | taken | noExecutor | notLaunched | noContainer =>
    exact .inl ⟨rfl, rfl, rfl, rfl, rfl, .inl rfl, fun hstarting => nomatch hstarting⟩
  | process | docker =>
    exact .inl ⟨rfl, rfl, rfl, rfl, rfl, .inl rfl, fun _ => .inl rfl⟩
  | monitored | unmonitored =>
    exact .inl ⟨rfl, rfl, rfl, rfl, rfl, .inr (.inl rfl), fun _ => .inl rfl⟩
  | registered service =>
    exact .inl ⟨rfl, rfl, rfl, rfl, rfl, .inr (.inr rfl), fun hstarting => nomatch hstarting⟩
  | launched | container => exact .inr (.inl ⟨_, rfl, rfl, rfl, rfl, rfl, rfl, rfl, rfl⟩)
  | tracked service info =>
    exact .inr (.inr (.inl ⟨service, info, rfl, rfl, rfl, rfl, rfl⟩))
  | blank service =>
    exact .inr (.inr (.inr ⟨service, rfl, rfl, rfl, rfl, .inr ⟨rfl, rfl, rfl⟩⟩))
  | stored service => exact .inr (.inr (.inr ⟨service, rfl, rfl, rfl, rfl, .inl rfl⟩))

/-- The service is built when its process is launched. -/
theorem advance_built {manager manager' : Manager} {call : Call} {answer : Answer} {phase : Phase}
    (h : advance manager call answer = some (manager', phase)) : phase.Built call.config := by
  have hadvances := advances_of_advance h
  obtain ⟨name, config, before⟩ := call
  cases hadvances with
  | launched pid => exact ⟨rfl, rfl⟩
  | _ => trivial

/-- What one event can do. -/
theorem step_cases {s t : State} {e : Event} (h : step s e = some t) :
    (∃ name config, e = .request name config ∧
      t = { s with calls := s.calls ++ [⟨name, config, .check⟩] }) ∨
    ∃ i answer call manager phase, e = .advance i answer ∧ s.calls[i]? = some call ∧
      advance s.manager call answer = some (manager, phase) ∧
      t = ⟨manager, s.calls.set i { call with phase := phase }⟩ := by
  cases e with
  | request name config => exact Or.inl ⟨name, config, rfl, by simpa [step] using h.symm⟩
  | advance i answer =>
    rw [step] at h
    split at h
    next call hcall =>
      split at h
      next manager phase hadvance =>
        exact Or.inr ⟨i, answer, call, manager, phase, rfl, hcall, hadvance,
          (Option.some.inj h).symm⟩
      next => simp at h
    next => simp at h

/-- A call after a request: an old one, or the new one. -/
theorem getElem?_request {calls : List Call} {new call : Call} {j : Nat}
    (h : (calls ++ [new])[j]? = some call) : calls[j]? = some call ∨ call = new := by
  rcases Nat.lt_or_ge j calls.length with hj | hj
  · exact Or.inl (by rwa [List.getElem?_append_left hj] at h)
  · rw [List.getElem?_append_right hj] at h
    exact Or.inr (by simpa using List.mem_of_getElem? h)

/-- A call after a step of another one, or of itself. -/
theorem getElem?_advance {calls : List Call} {i j : Nat} {new call : Call}
    (h : (calls.set i new)[j]? = some call) :
    (j = i ∧ call = new) ∨ (j ≠ i ∧ calls[j]? = some call) := by
  by_cases hj : j = i
  · subst hj
    rw [List.getElem?_set_self'] at h
    obtain ⟨_, _, rfl⟩ := Option.map_eq_some_iff.mp h
    exact Or.inl ⟨rfl, rfl⟩
  · rw [List.getElem?_set_ne (fun he => hj he.symm)] at h
    exact Or.inr ⟨hj, h⟩

/-! ## The invariant -/

/-- No two calls have one service, and every identifier has been given. -/
structure Identified (s : State) : Prop where
  issued : ∀ (i : Nat) (call : Call) (service : RunningService), s.calls[i]? = some call →
    call.phase.service = some service → service.id < s.manager.issued
  distinct : ∀ (i j : Nat) (ci cj : Call) (si sj : RunningService), s.calls[i]? = some ci →
    s.calls[j]? = some cj → ci.phase.service = some si → cj.phase.service = some sj →
    si.id = sj.id → i = j

/-- What a call has stored is still there. -/
def StoredKept (s : State) : Prop :=
  ∀ (i : Nat) (call : Call) (service : RunningService), s.calls[i]? = some call →
    call.phase.stored = some service → s.manager.activeServices.lookup call.name = some service

/-- A call that is about to track a process has built the service for it. -/
def AllBuilt (s : State) : Prop :=
  ∀ (i : Nat) (call : Call), s.calls[i]? = some call → call.phase.Built call.config

/-- The invariant of the runs in which nothing is overwritten. -/
structure Inv (s : State) : Prop where
  identified : Identified s
  stored : StoredKept s
  built : AllBuilt s
  owned : Owned s

/-- It holds at the start. -/
theorem inv_new : Inv State.new := by
  refine ⟨⟨?_, ?_⟩, ?_, ?_, ?_⟩
  · intro i call service hcall
    simp [State.new] at hcall
  · intro i j ci cj si sj hcall
    simp [State.new] at hcall
  · intro i call service hcall
    simp [State.new] at hcall
  · intro i call hcall
    simp [State.new] at hcall
  · intro id hid
    simp [State.new, Manager.new] at hid

/-- A new call has started nothing. -/
theorem inv_request {s : State} (h : Inv s) (name : String) (config : ServiceConfig) :
    Inv { s with calls := s.calls ++ [⟨name, config, .check⟩] } := by
  refine ⟨⟨?_, ?_⟩, ?_, ?_, ?_⟩
  · intro i call service hcall hservice
    rcases getElem?_request hcall with hold | rfl
    · exact h.identified.issued i call service hold hservice
    · simp [Phase.service] at hservice
  · intro i j ci cj si sj hi hj hsi hsj hid
    rcases getElem?_request hi with holdi | rfl
    · rcases getElem?_request hj with holdj | rfl
      · exact h.identified.distinct i j ci cj si sj holdi holdj hsi hsj hid
      · simp [Phase.service] at hsj
    · simp [Phase.service] at hsi
  · intro i call service hcall hstored
    rcases getElem?_request hcall with hold | rfl
    · exact h.stored i call service hold hstored
    · simp [Phase.stored] at hstored
  · intro i call hcall
    rcases getElem?_request hcall with hold | rfl
    · exact h.built i call hold
    · trivial
  · intro id hid
    obtain ⟨i, call, service, hcall, hrest⟩ := h.owned id hid
    refine ⟨i, call, service, ?_, hrest⟩
    rw [List.getElem?_append_left (List.getElem?_eq_some_iff.mp hcall).1]
    exact hcall

/-- A call that goes on with the service it has, or without. -/
theorem identified_kept {s : State} (h : Identified s) {i : Nat} {call : Call} {manager : Manager}
    {phase : Phase} (hcall : s.calls[i]? = some call) (hissued : manager.issued = s.manager.issued)
    (hservice : ∀ service, phase.service = some service → call.phase.service = some service) :
    Identified ⟨manager, s.calls.set i { call with phase := phase }⟩ := by
  -- every call has a service it had before
  have hold : ∀ (j : Nat) (c : Call) (service : RunningService),
      (s.calls.set i { call with phase := phase })[j]? = some c → c.phase.service = some service →
        ∃ c', s.calls[j]? = some c' ∧ c'.phase.service = some service := by
    intro j c service hj hc
    rcases getElem?_advance hj with ⟨rfl, rfl⟩ | ⟨_, hj⟩
    · exact ⟨call, hcall, hservice service hc⟩
    · exact ⟨c, hj, hc⟩
  refine ⟨?_, ?_⟩
  · intro j c service hj hc
    obtain ⟨c', hj', hc'⟩ := hold j c service hj hc
    show service.id < manager.issued
    rw [hissued]
    exact h.issued j c' service hj' hc'
  · intro j k cj ck sj sk hj hk hsj hsk hid
    obtain ⟨cj', hj', hsj'⟩ := hold j cj sj hj hsj
    obtain ⟨ck', hk', hsk'⟩ := hold k ck sk hk hsk
    exact h.distinct j k cj' ck' sj sk hj' hk' hsj' hsk' hid

/-- A call that gets a service of its own. -/
theorem identified_fresh {s : State} (h : Identified s) {i : Nat} {call : Call} {manager : Manager}
    {phase : Phase} {new : RunningService} (hissued : manager.issued = s.manager.issued + 1)
    (hid : new.id = s.manager.issued) (hnew : phase.service = some new) :
    Identified ⟨manager, s.calls.set i { call with phase := phase }⟩ := by
  -- the new service has a number none of the old ones has
  have hold : ∀ (j : Nat) (c : Call) (service : RunningService),
      (s.calls.set i { call with phase := phase })[j]? = some c → c.phase.service = some service →
        (j = i ∧ service = new) ∨
          (j ≠ i ∧ s.calls[j]? = some c ∧ service.id < s.manager.issued) := by
    intro j c service hj hc
    rcases getElem?_advance hj with ⟨rfl, rfl⟩ | ⟨hne, hj⟩
    · exact Or.inl ⟨rfl, Option.some.inj (hc.symm.trans hnew)⟩
    · exact Or.inr ⟨hne, hj, h.issued j c service hj hc⟩
  refine ⟨?_, ?_⟩
  · intro j c service hj hc
    show service.id < manager.issued
    rcases hold j c service hj hc with ⟨_, rfl⟩ | ⟨_, _, hlt⟩
    · omega
    · omega
  · intro j k cj ck sj sk hj hk hsj hsk heq
    rcases hold j cj sj hj hsj with ⟨rfl, rfl⟩ | ⟨_, hj', hltj⟩
    · rcases hold k ck sk hk hsk with ⟨rfl, _⟩ | ⟨_, _, hltk⟩
      · rfl
      · omega
    · rcases hold k ck sk hk hsk with ⟨_, rfl⟩ | ⟨_, hk', _⟩
      · omega
      · exact h.distinct j k cj ck sj sk hj' hk' hsj hsk heq

/-- What the other calls have stored stays where it is. -/
theorem stored_kept {s : State} (h : StoredKept s) {i : Nat} {call : Call} {manager : Manager}
    {phase : Phase}
    (hothers : ∀ name service, s.manager.activeServices.lookup name = some service →
      manager.activeServices.lookup name = some service)
    (hself : ∀ service, phase.stored = some service →
      manager.activeServices.lookup call.name = some service) :
    StoredKept ⟨manager, s.calls.set i { call with phase := phase }⟩ := by
  intro j c service hj hc
  rcases getElem?_advance hj with ⟨_, rfl⟩ | ⟨_, hj⟩
  · exact hself service hc
  · exact hothers c.name service (h j c service hj hc)

/-- A step of one call keeps what the others have built. -/
theorem built_kept {s : State} (h : AllBuilt s) {i : Nat} {call : Call} {manager : Manager}
    {phase : Phase} (hphase : phase.Built call.config) :
    AllBuilt ⟨manager, s.calls.set i { call with phase := phase }⟩ := by
  intro j c hj
  rcases getElem?_advance hj with ⟨_, rfl⟩ | ⟨_, hj⟩
  · exact hphase
  · exact h j c hj

/-- A process that was owned is owned, if its entry stays or its call does. -/
theorem owned_kept {s : State} {i : Nat} {call : Call} {manager : Manager} {phase : Phase}
    (hcall : s.calls[i]? = some call)
    (hothers : ∀ name service, s.manager.activeServices.lookup name = some service →
      manager.activeServices.lookup name = some service)
    (hself : ∀ service, call.phase.inProgress = true → call.phase.service = some service →
      manager.activeServices.lookup call.name = some service ∨
        (phase.inProgress = true ∧ phase.service = some service)) {id : Nat}
    (h : OwnedProcess s id) :
    OwnedProcess ⟨manager, s.calls.set i { call with phase := phase }⟩ id := by
  obtain ⟨j, c, service, hj, hid, hname, hconfig, hwhere⟩ := h
  by_cases hji : j = i
  · -- the step is of the call that has started it
    subst hji
    obtain rfl : call = c := Option.some.inj (hcall.symm.trans hj)
    refine ⟨j, { call with phase := phase }, service, ?_, hid, hname, hconfig, ?_⟩
    · rw [List.getElem?_set_self (List.getElem?_eq_some_iff.mp hcall).1]
    · rcases hwhere with hentry | ⟨hprogress, hservice⟩
      · exact Or.inl (hothers call.name service hentry)
      · exact hself service hprogress hservice
  · refine ⟨j, c, service, ?_, hid, hname, hconfig, hwhere.imp_left (hothers c.name service)⟩
    rw [List.getElem?_set_ne (fun he => hji he.symm)]
    exact hj

/-- A step that changes nothing the calls share. -/
theorem inv_unshared {s : State} (h : Inv s) {i : Nat} {call : Call} {manager : Manager}
    {phase : Phase} (hcall : s.calls[i]? = some call)
    (hactive : manager.activeServices = s.manager.activeServices)
    (hrunning : manager.runningProcesses = s.manager.runningProcesses)
    (hissued : manager.issued = s.manager.issued)
    (hservice : phase.service = call.phase.service) (hstored : phase.stored = call.phase.stored)
    (hkept : phase.service = none ∨ phase.inProgress = true ∨ phase.stored = phase.service)
    (hbuilt : phase.Built call.config) :
    Inv ⟨manager, s.calls.set i { call with phase := phase }⟩ := by
  have hentry : ∀ service, phase.stored = some service →
      manager.activeServices.lookup call.name = some service := by
    intro service hs
    rw [hactive]
    exact h.stored i call service hcall (hstored ▸ hs)
  refine ⟨identified_kept h.identified hcall hissued (fun service hs => hservice ▸ hs),
    stored_kept h.stored (fun _ _ hl => by rw [hactive, hl]) hentry,
    built_kept h.built hbuilt, ?_⟩
  intro id hid
  refine owned_kept hcall (fun _ _ hl => by rw [hactive, hl]) ?_ (h.owned id (by rwa [← hrunning]))
  intro service _ hs
  rw [← hservice] at hs
  rcases hkept with hnone | hprogress | hdone
  · rw [hnone] at hs
    simp at hs
  · exact Or.inr ⟨hprogress, hs⟩
  · exact Or.inl (hentry service (hdone.trans hs))

/-- A step that starts a service nobody else has. -/
theorem inv_fresh {s : State} (h : Inv s) {i : Nat} {call : Call} {manager : Manager}
    {phase : Phase} {new : RunningService} (hcall : s.calls[i]? = some call)
    (hactive : manager.activeServices = s.manager.activeServices)
    (hrunning : manager.runningProcesses = s.manager.runningProcesses)
    (hissued : manager.issued = s.manager.issued + 1) (hid : new.id = s.manager.issued)
    (hnone : call.phase.service = none) (hnew : phase.service = some new)
    (hstored : phase.stored = none) (hbuilt : phase.Built call.config) :
    Inv ⟨manager, s.calls.set i { call with phase := phase }⟩ := by
  refine ⟨identified_fresh h.identified hissued hid hnew,
    stored_kept h.stored (fun _ _ hl => by rw [hactive, hl]) (fun service hs => ?_),
    built_kept h.built hbuilt, ?_⟩
  · rw [hstored] at hs
    simp at hs
  · intro id hid
    refine owned_kept hcall (fun _ _ hl => by rw [hactive, hl]) ?_
      (h.owned id (by rwa [← hrunning]))
    intro service _ hs
    rw [hnone] at hs
    simp at hs

/-- A step that tracks the process of the service the call has started. -/
theorem inv_tracked {s : State} (h : Inv s) {i : Nat} {call : Call} {manager : Manager}
    {tracked : RunningService} {info : ProcessInfo} (hcall : s.calls[i]? = some call)
    (hactive : manager.activeServices = s.manager.activeServices)
    (hrunning : manager.runningProcesses = s.manager.runningProcesses.insert tracked.id info)
    (hissued : manager.issued = s.manager.issued) (hphase : call.phase = .track tracked info) :
    Inv ⟨manager, s.calls.set i { call with phase := .monitor tracked }⟩ := by
  have hservice : call.phase.service = some tracked := by rw [hphase]; rfl
  refine ⟨identified_kept h.identified hcall hissued (fun service hs => hservice.trans hs),
    stored_kept h.stored (fun _ _ hl => by rw [hactive, hl]) (fun service hs => ?_),
    built_kept h.built trivial, ?_⟩
  · simp [Phase.stored] at hs
  · intro id hid
    have hmem : id = tracked.id ∨ id ∈ s.manager.runningProcesses := by
      have hid' : id ∈ manager.runningProcesses := hid
      rwa [hrunning, AList.mem_insert] at hid'
    rcases hmem with rfl | hold
    · -- the call itself is still on its way
      obtain ⟨hname, hconfig⟩ : tracked.name = call.config.name ∧ tracked.config = call.config := by
        have hbuilt := h.built i call hcall
        rwa [hphase] at hbuilt
      refine ⟨i, { call with phase := .monitor tracked }, tracked, ?_, rfl, hname, hconfig,
        Or.inr ⟨rfl, rfl⟩⟩
      exact List.getElem?_set_self (List.getElem?_eq_some_iff.mp hcall).1
    · refine owned_kept hcall (fun _ _ hl => by rw [hactive, hl]) ?_ (h.owned id hold)
      intro service _ hs
      exact Or.inr ⟨rfl, hservice.symm.trans hs⟩

/-- A step that puts the service under a name that was free. -/
theorem inv_placed {s : State} (h : Inv s) {i : Nat} {call : Call} {manager : Manager}
    {phase : Phase} {placed : RunningService} (hcall : s.calls[i]? = some call)
    (hactive : manager.activeServices = s.manager.activeServices.insert call.name placed)
    (hrunning : manager.runningProcesses = s.manager.runningProcesses)
    (hissued : manager.issued = s.manager.issued) (hservice : call.phase.service = some placed)
    (hplaced : phase = .register placed ∨ phase.service = none ∧ phase.stored = none)
    (hbuilt : phase.Built call.config) (hfree : call.name ∉ s.manager.activeServices) :
    Inv ⟨manager, s.calls.set i { call with phase := phase }⟩ := by
  have hothers : ∀ name service, s.manager.activeServices.lookup name = some service →
      manager.activeServices.lookup name = some service := by
    intro name service hlookup
    have hne : name ≠ call.name := by
      intro he
      exact hfree (AList.lookup_isSome.mp (by rw [← he, hlookup]; rfl))
    rw [hactive, AList.lookup_insert_ne hne, hlookup]
  have hself : manager.activeServices.lookup call.name = some placed := by
    rw [hactive, AList.lookup_insert]
  refine ⟨identified_kept h.identified hcall hissued (fun service hs => ?_),
    stored_kept h.stored hothers (fun service hs => ?_), built_kept h.built hbuilt, ?_⟩
  · rcases hplaced with rfl | ⟨hnone, _⟩
    · exact hservice.trans hs
    · rw [hnone] at hs
      simp at hs
  · rcases hplaced with rfl | ⟨_, hnone⟩
    · exact hself.trans hs
    · rw [hnone] at hs
      simp at hs
  · intro id hid
    refine owned_kept hcall hothers ?_ (h.owned id (by rwa [← hrunning]))
    intro service _ hs
    exact Or.inl (hself.trans (hservice.symm.trans hs))

/-- **One step of one call keeps the invariant**, unless it replaces an entry. -/
theorem inv_advance {s : State} (h : Inv s) {i : Nat} {call : Call} {answer : Answer}
    {manager : Manager} {phase : Phase} (hcall : s.calls[i]? = some call)
    (hstep : advance s.manager call answer = some (manager, phase))
    (hfree : ∀ service, call.phase = .store service → call.name ∉ s.manager.activeServices) :
    Inv ⟨manager, s.calls.set i { call with phase := phase }⟩ := by
  have hbuilt := advance_built hstep
  rcases advance_cases hstep with
    ⟨hactive, hrunning, hissued, hservice, hstored, hkept, _⟩ |
    ⟨new, hactive, hrunning, hissued, hid, hnone, hnew, hnotStored, _⟩ |
    ⟨tracked, info, hactive, hrunning, hissued, hphase, rfl⟩ |
    ⟨placed, hactive, hrunning, hissued, hphase, hplaced⟩
  · exact inv_unshared h hcall hactive hrunning hissued hservice hstored hkept hbuilt
  · exact inv_fresh h hcall hactive hrunning hissued hid hnone hnew hnotStored hbuilt
  · exact inv_tracked h hcall hactive hrunning hissued hphase
  · refine inv_placed h hcall hactive hrunning hissued (by rw [hphase]; rfl) ?_ hbuilt
      (hfree placed hphase)
    exact hplaced.imp id (fun hdone => ⟨hdone.1, hdone.2.1⟩)

/-- One step keeps it, if it overwrites nothing. -/
theorem inv_step (s : State) (e : Event) (t : State) (h : Inv s) (hfree : NoOverwrite s e)
    (hstep : step s e = some t) : Inv t := by
  rcases step_cases hstep with
    ⟨name, config, rfl, rfl⟩ | ⟨i, answer, call, manager, phase, rfl, hcall, hadvance, rfl⟩
  · exact inv_request h name config
  · exact inv_advance h hcall hadvance
      (fun service hphase => hfree call hcall (by rw [hphase]; rfl))

/-- Under it no two calls of one name return a service. -/
theorem atMostOneOk_of_inv {s : State} (h : Inv s) : AtMostOneOk s := by
  intro i j ci cj ri rj hi hj hname hri hrj
  have hentry := h.stored i ci ri hi (by rw [hri]; rfl)
  have hentry' := h.stored j cj rj hj (by rw [hrj]; rfl)
  -- one name has one entry, and one service has one call
  rw [hname, hentry'] at hentry
  obtain rfl := Option.some.inj hentry
  exact h.identified.distinct i j ci cj rj rj hi hj (by rw [hri]; rfl) (by rw [hrj]; rfl) rfl

/-! ## Starts that exclude each other -/

/-- One call at most is starting a service of a name, and the name is free then. -/
structure Exclusion (s : State) : Prop where
  alone : ∀ (i j : Nat) (ci cj : Call), s.calls[i]? = some ci → s.calls[j]? = some cj →
    ci.name = cj.name → ci.phase.starting = true → cj.phase.starting = true → i = j
  free : ∀ (i : Nat) (call : Call), s.calls[i]? = some call → call.phase.starting = true →
    call.name ∉ s.manager.activeServices

/-- At the start there is nothing to exclude. -/
theorem exclusion_new : Exclusion State.new := by
  refine ⟨?_, ?_⟩
  · intro i j ci cj hi
    simp [State.new] at hi
  · intro i call hi
    simp [State.new] at hi

/-- A request adds a call that has not checked yet. -/
theorem exclusion_request {s : State} (h : Exclusion s) (name : String) (config : ServiceConfig) :
    Exclusion { s with calls := s.calls ++ [⟨name, config, .check⟩] } := by
  refine ⟨?_, ?_⟩
  · intro i j ci cj hi hj hname hsi hsj
    rcases getElem?_request hi with hi | rfl
    · rcases getElem?_request hj with hj | rfl
      · exact h.alone i j ci cj hi hj hname hsi hsj
      · simp [Phase.starting] at hsj
    · simp [Phase.starting] at hsi
  · intro i call hi hstarting
    rcases getElem?_request hi with hi | rfl
    · exact h.free i call hi hstarting
    · simp [Phase.starting] at hstarting

/-- A call that finds the name free, or goes on with its start. -/
theorem exclusion_kept {s : State} (h : Exclusion s) {i : Nat} {call : Call} {manager : Manager}
    {phase : Phase} (hcall : s.calls[i]? = some call)
    (hactive : manager.activeServices = s.manager.activeServices)
    (hstarting : phase.starting = true → call.name ∉ s.manager.activeServices ∧
      ∀ (j : Nat) (other : Call), j ≠ i → s.calls[j]? = some other → other.name = call.name →
        other.phase.starting = false) :
    Exclusion ⟨manager, s.calls.set i { call with phase := phase }⟩ := by
  refine ⟨?_, ?_⟩
  · intro j k cj ck hj hk hname hsj hsk
    rcases getElem?_advance hj with ⟨rfl, rfl⟩ | ⟨hne, hj'⟩
    · rcases getElem?_advance hk with ⟨rfl, _⟩ | ⟨hne, hk⟩
      · rfl
      · rw [(hstarting hsj).2 k ck hne hk hname.symm] at hsk
        simp at hsk
    · rcases getElem?_advance hk with ⟨rfl, rfl⟩ | ⟨_, hk⟩
      · rw [(hstarting hsk).2 j cj hne hj' hname] at hsj
        simp at hsj
      · exact h.alone j k cj ck hj' hk hname hsj hsk
  · intro j c hj hsc
    show c.name ∉ manager.activeServices
    rw [hactive]
    rcases getElem?_advance hj with ⟨_, rfl⟩ | ⟨_, hj⟩
    · exact (hstarting hsc).1
    · exact h.free j c hj hsc

/-- A call that puts its service under the name has finished its start. -/
theorem exclusion_placed {s : State} (h : Exclusion s) {i : Nat} {call : Call} {manager : Manager}
    {phase : Phase} {placed : RunningService}
    (hactive : manager.activeServices = s.manager.activeServices.insert call.name placed)
    (hfinished : phase.starting = false)
    (halone : ∀ (j : Nat) (other : Call), j ≠ i → s.calls[j]? = some other →
      other.name = call.name → other.phase.starting = false) :
    Exclusion ⟨manager, s.calls.set i { call with phase := phase }⟩ := by
  refine ⟨?_, ?_⟩
  · intro j k cj ck hj hk hname hsj hsk
    rcases getElem?_advance hj with ⟨_, rfl⟩ | ⟨_, hj⟩
    · rw [hfinished] at hsj
      simp at hsj
    · rcases getElem?_advance hk with ⟨_, rfl⟩ | ⟨_, hk⟩
      · rw [hfinished] at hsk
        simp at hsk
      · exact h.alone j k cj ck hj hk hname hsj hsk
  · intro j c hj hsc
    show c.name ∉ manager.activeServices
    rcases getElem?_advance hj with ⟨_, rfl⟩ | ⟨hne, hj⟩
    · rw [hfinished] at hsc
      simp at hsc
    · -- a call that is starting has another name than the entry that is new
      rw [hactive, AList.mem_insert, not_or]
      refine ⟨?_, h.free j c hj hsc⟩
      intro hname
      rw [halone j c hne hj hname] at hsc
      simp at hsc

/-- One step keeps the exclusion. -/
theorem exclusion_step (s : State) (e : Event) (t : State) (h : Exclusion s)
    (hexclusive : Exclusive s e) (hstep : step s e = some t) : Exclusion t := by
  rcases step_cases hstep with
    ⟨name, config, rfl, rfl⟩ | ⟨i, answer, call, manager, phase, rfl, hcall, hadvance, rfl⟩
  · exact exclusion_request h name config
  · -- a call that was starting is the only one that was
    have hgoesOn : call.phase.starting = true → call.name ∉ s.manager.activeServices ∧
        ∀ (j : Nat) (other : Call), j ≠ i → s.calls[j]? = some other → other.name = call.name →
          other.phase.starting = false := by
      intro hstarting
      refine ⟨h.free i call hcall hstarting, ?_⟩
      intro j other hne hj hname
      cases hother : other.phase.starting with
      | false => rfl
      | true => exact absurd (h.alone j i other call hj hcall hname hother hstarting) hne
    rcases advance_cases hadvance with
      ⟨hactive, _, _, _, _, _, hstarting⟩ | ⟨_, hactive, _, _, _, _, _, _, hstarting⟩ |
      ⟨_, _, hactive, _, _, hphase, _⟩ | ⟨placed, hactive, _, _, hphase, hplaced⟩
    · refine exclusion_kept h hcall hactive ?_
      intro hphase
      rcases hstarting hphase with hbefore | ⟨hcheck, hfree⟩
      · exact hgoesOn hbefore
      · -- the check: by the condition nobody else is starting the name
        exact ⟨hfree, fun j other _ hj hname =>
          hexclusive call hcall (by rw [hcheck]; rfl) hfree other (List.mem_of_getElem? hj) hname⟩
    · exact exclusion_kept h hcall hactive (fun _ => hgoesOn hstarting)
    · exact exclusion_kept h hcall hactive (fun _ => hgoesOn (by rw [hphase]; rfl))
    · have hfinished : phase.starting = false := by
        rcases hplaced with rfl | ⟨_, _, hnot⟩
        · rfl
        · exact hnot
      exact exclusion_placed h hactive hfinished (hgoesOn (by rw [hphase]; rfl)).2

/-- A call that stores a service has been starting it. -/
theorem noOverwrite_of_exclusion (s : State) (e : Event) (h : Exclusion s) (_ : Exclusive s e) :
    NoOverwrite s e := by
  cases e with
  | request name config => trivial
  | advance i answer =>
    intro call hcall hstoring
    refine h.free i call hcall ?_
    cases hphase : call.phase with
    | store service => rfl
    | check | inject | launch | track | startContainer | monitor | register | done =>
      rw [hphase] at hstoring
      simp [Phase.storing] at hstoring

/-- **Concurrent starts are safe as long as no entry is replaced**, and none is when no
call finds a name free that another one is starting. -/
theorem startService_safe {events : List Event} {s : State}
    (hrun : run step State.new events = some s) :
    (Always step NoOverwrite State.new events → AtMostOneOk s ∧ Owned s) ∧
      (Always step Exclusive State.new events → Always step NoOverwrite State.new events) := by
  refine ⟨?_, always_imp exclusion_step noOverwrite_of_exclusion exclusion_new⟩
  intro hfree
  have hinv := run_invariant inv_step inv_new hfree hrun
  exact ⟨atMostOneOk_of_inv hinv, hinv.owned⟩

/-- A process that sleeps. -/
def sleepConfig : ServiceConfig := ⟨"db", .process "sleep" ["100"] ∅ none, [], none⟩

/-- A call on its way from the check to its result. -/
def startSteps (i : Nat) (pid : UInt32) : List Event :=
  [.advance i .nothing, .advance i (.launched (.ok (some pid))), .advance i .nothing,
    .advance i .nothing, .advance i .nothing, .advance i .nothing]

/-- That process, once launched. -/
def sleepService (id : Nat) (pid : UInt32) : RunningService :=
  ((RunningService.new id "db" sleepConfig).withPid pid).withMetadata "executor_type" "process"

/-- The map with that service. -/
def firstEntry : HashMap String RunningService := AList.insert "db" (sleepService 0 11) ∅

/-- Two calls one after the other: the second one is refused. -/
def sequentialEvents : List Event :=
  [.request "db" sleepConfig, .advance 0 .nothing] ++ startSteps 0 11 ++
    [.request "db" sleepConfig, .advance 1 .nothing]

/-- The state after two starts, one after the other. -/
def sequentialState : State where
  manager :=
    { activeServices := firstEntry
      healthMonitors := ∅
      runningProcesses := AList.insert 0 ⟨some 11⟩ ∅
      issued := 1 }
  calls := [⟨"db", sleepConfig, .done (.ok (sleepService 0 11))⟩,
    ⟨"db", sleepConfig, .done (.error (.serviceExists "db"))⟩]

/-- There the second start is refused. -/
theorem sequential_safe : AtMostOneOk sequentialState ∧ Owned sequentialState := by
  have hrun : run step State.new sequentialEvents = some sequentialState := rfl
  have hexclusive : Always step Exclusive State.new sequentialEvents := by decide
  exact (startService_safe hrun).1 ((startService_safe hrun).2 hexclusive)

/-- Two calls that both find the name free. -/
def raceEvents : List Event :=
  [.request "db" sleepConfig, .request "db" sleepConfig, .advance 0 .nothing, .advance 1 .nothing] ++
    startSteps 0 11 ++ startSteps 1 12

/-- The state after two starts at once. -/
def raceState : State where
  manager :=
    { activeServices := firstEntry.insert "db" (sleepService 1 12)
      healthMonitors := ∅
      runningProcesses := AList.insert 1 ⟨some 12⟩ (AList.insert 0 ⟨some 11⟩ ∅)
      issued := 2 }
  calls := [⟨"db", sleepConfig, .done (.ok (sleepService 0 11))⟩,
    ⟨"db", sleepConfig, .done (.ok (sleepService 1 12))⟩]

/-- **Both calls succeed, and no name leads to the first process.** -/
theorem race_not_safe : run step State.new raceEvents = some raceState ∧
    ¬AtMostOneOk raceState ∧ ¬Owned raceState := by
  refine ⟨rfl, ?_, ?_⟩
  · intro h
    exact absurd (h 0 1 _ _ _ _ rfl rfl rfl rfl rfl) (by decide)
  · intro h
    obtain ⟨i, call, service, hi, hid, _, _, hwhere⟩ := h 0 (by decide)
    have hmem := List.mem_of_getElem? hi
    rcases hwhere with hlookup | ⟨hprogress, _⟩
    · -- the entry is the one of the second call
      have hname : ∀ c ∈ raceState.calls, c.name = "db" := by simp [raceState]
      have hsecond : some (sleepService 1 12) = some service := by
        rw [← hlookup, hname call hmem]
        exact (firstEntry.lookup_insert).symm
      rw [← Option.some.inj hsecond] at hid
      exact absurd hid (by decide)
    · have hdone : ∀ c ∈ raceState.calls, c.phase.inProgress = false := by
        simp [raceState, Phase.inProgress]
      rw [hdone call hmem] at hprogress
      simp at hprogress

end GraphHarness.Orchestration
