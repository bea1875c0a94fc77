import GraphHarness.Orchestration.Alone
import GraphHarness.Orchestration.Tracking

/-!
# Starts and stops at once (`service-orchestration/src/manager.rs`, `executors/process.rs`)

Any number of `start_service` and `stop_service` calls on one manager. A start goes on as
it does among other starts; a stop is taken apart in the same way, at its locks and its
awaits. How a `kill` or a `docker stop` has ended comes with the event.

> `stopService_finishes`: the steps of a stop that runs alone end in what the whole call
> returns, and leave the manager as it does.

`StopAdvances` is the inversion of one step of a stop, with a constructor for each of the
things it can do; every invariant is proved over it, as over `Advances` for the steps of a
start. Answers from outside are part of the event: what a kill has ended with is not known to
the manager before.

The executors' maps and the manager's are behind locks of their own in the source, and no step
holds two of them. Where the source holds a lock over an await, the step goes to the end of
that await. The health checks and the registry are left out, as no start and no stop depends
on what they say.
-/

namespace GraphHarness.Orchestration

open ServiceRegistry (RegistryBackend)
open Trace

/-- Where a stop is. -/
inductive StopPhase where
  | take
  | find (service : RunningService)
  | untrack (service : RunningService)
  | terminate
  | kill
  | stopContainer (service : RunningService)
  | unmonitor
  | update
  | done (result : Except Error Unit)

/-- A call of `stop_service`. -/
structure StopCall where
  name : String
  phase : StopPhase

/-- What a step of a stop learns from outside. -/
inductive StopAnswer where
  | nothing
  | halted (result : Except Error Unit)

/-- One step of a stop. -/
def StopCall.advance (manager : Manager) (call : StopCall) (answer : StopAnswer) :
    Option (Manager × StopPhase) :=
  match call.phase, answer with
  | .take, .nothing =>
    match manager.activeServices.lookup call.name with
    | some service =>
      some ({ manager with activeServices := manager.activeServices.erase call.name },
        .find service)
    | none => some (manager, .done (.error (.serviceNotFound call.name)))
  | .find service, .nothing =>
    match findExecutor service.config with
    | .ok .process => some (manager, .untrack service)
    | .ok .docker => some (manager, .stopContainer service)
    | .error e => some (manager, .done (.error e))
  | .untrack service, .nothing =>
    let remaining :=
      { manager with runningProcesses := manager.runningProcesses.erase service.id }
    match manager.runningProcesses.lookup service.id with
    | some _ => some (remaining, .terminate)
    | none =>
      match service.pid with
      | some _ => some (remaining, .kill)
      | none => some (remaining, .unmonitor)
  -- with a handle an error is only logged
  | .terminate, .halted _ => some (manager, .unmonitor)
  | .kill, .halted (.ok ()) => some (manager, .unmonitor)
  | .kill, .halted (.error e) => some (manager, .done (.error e))
  | .stopContainer _, .halted (.ok ()) => some (manager, .unmonitor)
  | .stopContainer _, .halted (.error e) => some (manager, .done (.error e))
  | .unmonitor, .nothing =>
    -- whoever has put it there
    some ({ manager with healthMonitors := manager.healthMonitors.erase call.name }, .update)
  | .update, .nothing => some (manager, .done (.ok ()))
  | _, _ => none

/-- What a stop does next once the handle, if there is one, is not tracked any more. -/
def StopPhase.untracked (handle : Option ProcessInfo) (pid : Option UInt32) : StopPhase :=
  match handle, pid with
  | some _, _ => .terminate
  | none, some _ => .kill
  | none, none => .unmonitor

/-- The steps of a stop of `name`, one for each way out of a phase. -/
inductive StopAdvances (manager : Manager) (name : String) :
    StopPhase → StopAnswer → Manager × StopPhase → Prop where
  | taken (service : RunningService) (h : manager.activeServices.lookup name = some service) :
      StopAdvances manager name .take .nothing
        ({ manager with activeServices := manager.activeServices.erase name }, .find service)
  | absent (h : manager.activeServices.lookup name = none) :
      StopAdvances manager name .take .nothing (manager, .done (.error (.serviceNotFound name)))
  | process (service : RunningService) (h : findExecutor service.config = .ok .process) :
      StopAdvances manager name (.find service) .nothing (manager, .untrack service)
  | docker (service : RunningService) (h : findExecutor service.config = .ok .docker) :
      StopAdvances manager name (.find service) .nothing (manager, .stopContainer service)
  | noExecutor (service : RunningService) {e : Error} (h : findExecutor service.config = .error e) :
      StopAdvances manager name (.find service) .nothing (manager, .done (.error e))
  | untracked (service : RunningService) :
      StopAdvances manager name (.untrack service) .nothing
        ({ manager with runningProcesses := manager.runningProcesses.erase service.id },
          .untracked (manager.runningProcesses.lookup service.id) service.pid)
  | terminated (result : Except Error Unit) :
      StopAdvances manager name .terminate (.halted result) (manager, .unmonitor)
  | killed : StopAdvances manager name .kill (.halted (.ok ())) (manager, .unmonitor)
  | notKilled (e : Error) :
      StopAdvances manager name .kill (.halted (.error e)) (manager, .done (.error e))
  | containerStopped (service : RunningService) :
      StopAdvances manager name (.stopContainer service) (.halted (.ok ())) (manager, .unmonitor)
  | containerNotStopped (service : RunningService) (e : Error) :
      StopAdvances manager name (.stopContainer service) (.halted (.error e))
        (manager, .done (.error e))
  | unmonitored :
      StopAdvances manager name .unmonitor .nothing
        ({ manager with healthMonitors := manager.healthMonitors.erase name }, .update)
  | updated : StopAdvances manager name .update .nothing (manager, .done (.ok ()))

/-- A step of a stop is one of these. -/
theorem StopCall.advances_of_advance {manager : Manager} {call : StopCall} {answer : StopAnswer}
    {result : Manager × StopPhase} (h : call.advance manager answer = some result) :
    StopAdvances manager call.name call.phase answer result := by
  -- one case for each branch of the step, in the order of the source
  revert h
  fun_cases StopCall.advance manager call answer with
  | case1 hphase service hlookup =>
    intro h
    rw [hphase, ← Option.some.inj h]
    exact .taken service hlookup
  | case2 hphase hlookup =>
    intro h
    rw [hphase, ← Option.some.inj h]
    exact .absent hlookup
  | case3 service hphase hexecutor =>
    intro h
    rw [hphase, ← Option.some.inj h]
    exact .process service hexecutor
  | case4 service hphase hexecutor =>
    intro h
    rw [hphase, ← Option.some.inj h]
    exact .docker service hexecutor
  | case5 service hphase e hexecutor =>
    intro h
    rw [hphase, ← Option.some.inj h]
    exact .noExecutor service hexecutor
  -- the three ways on from the handle are one step
  | case6 service hphase remaining handle hlookup =>
    intro h
    have huntracked : StopAdvances manager call.name (.untrack service) .nothing _ :=
      .untracked service
    rw [hlookup] at huntracked
    rw [hphase, ← Option.some.inj h]
    exact huntracked
  | case7 service hphase remaining hlookup pid hpid =>
    intro h
    have huntracked : StopAdvances manager call.name (.untrack service) .nothing _ :=
      .untracked service
    rw [hlookup, hpid] at huntracked
    rw [hphase, ← Option.some.inj h]
    exact huntracked
  | case8 service hphase remaining hlookup hpid =>
    intro h
    have huntracked : StopAdvances manager call.name (.untrack service) .nothing _ :=
      .untracked service
    rw [hlookup, hpid] at huntracked
    rw [hphase, ← Option.some.inj h]
    exact huntracked
  | case9 result hphase =>
    intro h
    rw [hphase, ← Option.some.inj h]
    exact .terminated result
  | case10 hphase =>
    intro h
    rw [hphase, ← Option.some.inj h]
    exact .killed
  | case11 e hphase =>
    intro h
    rw [hphase, ← Option.some.inj h]
    exact .notKilled e
  | case12 service hphase =>
    intro h
    rw [hphase, ← Option.some.inj h]
    exact .containerStopped service
  | case13 service e hphase =>
    intro h
    rw [hphase, ← Option.some.inj h]
    exact .containerNotStopped service e
  | case14 hphase =>
    intro h
    rw [hphase, ← Option.some.inj h]
    exact .unmonitored
  | case15 hphase =>
    intro h
    rw [hphase, ← Option.some.inj h]
    exact .updated
  | case16 =>
    intro h
    cases h

/-- A container is started with the configuration it is asked for with. -/
def Answer.about (config : ServiceConfig) : Answer → Answer
  | .container (.ok service) => .container (.ok { service with config := config })
  | answer => answer

/-- The manager and all calls there have been. -/
structure Calls where
  manager : Manager
  starts : List Call
  stops : List StopCall

/-- What happens: a call is made, or takes a step on an answer. -/
inductive CallEvent where
  | start (name : String) (config : ServiceConfig)
  | advanceStart (i : Nat) (answer : Answer)
  | stop (name : String)
  | advanceStop (i : Nat) (answer : StopAnswer)

namespace Calls

/-- No calls, and a new manager. -/
def new : Calls := ⟨Manager.new, [], []⟩

/-- One event. -/
def step (s : Calls) : CallEvent → Option Calls
  | .start name config => some { s with starts := s.starts ++ [⟨name, config, .check⟩] }
  | .advanceStart i answer =>
    match s.starts[i]? with
    | some call =>
      match Orchestration.advance s.manager call (answer.about call.config) with
      | some (manager, phase) =>
        some { s with manager := manager, starts := s.starts.set i { call with phase := phase } }
      | none => none
    | none => none
  | .stop name => some { s with stops := s.stops ++ [⟨name, .take⟩] }
  | .advanceStop i answer =>
    match s.stops[i]? with
    | some call =>
      match call.advance s.manager answer with
      | some (manager, phase) =>
        some { s with manager := manager, stops := s.stops.set i { call with phase := phase } }
      | none => none
    | none => none

/-- What a step can be. -/
theorem step_cases {s t : Calls} {e : CallEvent} (h : s.step e = some t) :
    (∃ name config, e = .start name config ∧
      t = { s with starts := s.starts ++ [⟨name, config, .check⟩] }) ∨
    (∃ i answer call manager phase, e = .advanceStart i answer ∧ s.starts[i]? = some call ∧
      Orchestration.advance s.manager call (answer.about call.config) = some (manager, phase) ∧
      t = { s with manager := manager, starts := s.starts.set i { call with phase := phase } }) ∨
    (∃ name, e = .stop name ∧ t = { s with stops := s.stops ++ [⟨name, .take⟩] }) ∨
    ∃ i answer call manager phase, e = .advanceStop i answer ∧ s.stops[i]? = some call ∧
      call.advance s.manager answer = some (manager, phase) ∧
      t = { s with manager := manager, stops := s.stops.set i { call with phase := phase } } := by
  cases e with
  | start name config => exact .inl ⟨name, config, rfl, by simpa [step] using h.symm⟩
  | advanceStart i answer =>
    rw [step] at h
    split at h
    next call hcall =>
      split at h
      next manager phase hadvance =>
        exact .inr (.inl ⟨i, answer, call, manager, phase, rfl, hcall, hadvance,
          (Option.some.inj h).symm⟩)
      next => cases h
    next => cases h
  | stop name => exact .inr (.inr (.inl ⟨name, rfl, by simpa [step] using h.symm⟩))
  | advanceStop i answer =>
    rw [step] at h
    split at h
    next call hcall =>
      split at h
      next manager phase hadvance =>
        exact .inr (.inr (.inr ⟨i, answer, call, manager, phase, rfl, hcall, hadvance,
          (Option.some.inj h).symm⟩))
      next => cases h
    next => cases h

end Calls

/-! ## A stop that runs alone -/

/-- The steps of the one stop there is can end as the whole call has ended. -/
def StopFinishes {σ : Type} (manager : Manager) (call : StopCall)
    (ended : ServiceManager σ × Except Error Unit) : Prop :=
  ∃ (answers : List StopAnswer) (manager' : Manager), Views ended.1 manager' ∧
    run Calls.step ⟨manager, [], [call]⟩ (answers.map (.advanceStop 0)) =
      some ⟨manager', [], [{ call with phase := .done ended.2 }]⟩

section Steps

variable {σ : Type} {manager manager' : Manager} {name : String} {phase phase' : StopPhase}
  {ended : ServiceManager σ × Except Error Unit}

/-- A stop that has ended. -/
theorem stopFinishes_done (h : Views ended.1 manager) :
    StopFinishes manager ⟨name, .done ended.2⟩ ended :=
  ⟨[], manager, h, rfl⟩

/-- One step, and the rest of the stop. -/
theorem stopFinishes_advance (answer : StopAnswer)
    (h : StopCall.advance manager ⟨name, phase⟩ answer = some (manager', phase'))
    (hrest : StopFinishes manager' ⟨name, phase'⟩ ended) :
    StopFinishes manager ⟨name, phase⟩ ended := by
  obtain ⟨answers, last, hviews, hrun⟩ := hrest
  refine ⟨answer :: answers, last, hviews, ?_⟩
  have hstep : Calls.step ⟨manager, [], [⟨name, phase⟩]⟩ (.advanceStop 0 answer) =
      some ⟨manager', [], [⟨name, phase'⟩]⟩ := by
    simp [Calls.step, h]
  rw [List.map_cons, run, hstep]
  exact hrun

/-- The step that takes the handle. -/
theorem advance_untrack (name : String) (manager : Manager) (service : RunningService) :
    StopCall.advance manager ⟨name, .untrack service⟩ .nothing =
      some ({ manager with runningProcesses := manager.runningProcesses.erase service.id },
        .untracked (manager.runningProcesses.lookup service.id) service.pid) := by
  unfold StopCall.advance StopPhase.untracked
  dsimp only
  cases manager.runningProcesses.lookup service.id with
  | some handle => rfl
  | none =>
    cases service.pid with
    | some pid => rfl
    | none => rfl

/-- The end of a stop whose executor has stopped the service. -/
theorem stopFinishes_unmonitor (name : String) {stopped : ServiceManager σ}
    (h : Views stopped manager) (registry : ServiceRegistry.Registry σ) :
    StopFinishes manager ⟨name, .unmonitor⟩
      ({ stopped with
          healthMonitors := stopped.healthMonitors.erase name
          registry := registry }, .ok ()) := by
  refine stopFinishes_advance .nothing rfl (stopFinishes_advance .nothing rfl ?_)
  refine stopFinishes_done ⟨h.activeServices, h.runningProcesses, h.issued, ?_⟩
  intro other
  dsimp only
  by_cases hother : other = name
  · subst hother
    simp
  · rw [AList.lookup_erase_ne hother, AList.lookup_erase_ne hother]
    exact h.healthMonitors other

end Steps

variable {σ : Type} [RegistryBackend σ] {whole : ServiceManager σ} {manager : Manager}
  {name : String} {service : RunningService}

/-- What is left of a stop once the executor is known. -/
theorem ServiceManager.stopService_found (hlookup : whole.activeServices.lookup name = some service)
    {executor : ExecutorKind} (hexecutor : findExecutor service.config = .ok executor)
    (env : Environment) :
    let stopped := (whole.deactivate name).halt env.toOutside service executor
    (∃ e, stopped.2 = .error e ∧ whole.stopService env name = (stopped.1, .error e)) ∨
    ∃ registry, stopped.2 = .ok () ∧ whole.stopService env name =
      ({ stopped.1 with
          healthMonitors := stopped.1.healthMonitors.erase name
          registry := registry }, .ok ()) := by
  dsimp only
  cases hresult : ((whole.deactivate name).halt env.toOutside service executor).2 with
  | error e =>
    refine .inl ⟨e, rfl, ?_⟩
    simp only [stopService, hlookup, hexecutor, hresult]
  | ok done =>
    refine .inr ⟨?_, rfl, ?_⟩
    rotate_left
    · simp only [stopService, hlookup, hexecutor, hresult]
      rfl

section Halt

variable (h : Views (whole.deactivate name) manager)
  (hlookup : whole.activeServices.lookup name = some service) (env : Environment)
include h hlookup

/-- A stop of a process, step by step. -/
theorem stopFinishes_process (hexecutor : findExecutor service.config = .ok .process) :
    StopFinishes manager ⟨name, .untrack service⟩ (whole.stopService env name) := by
  have hremaining : Views ((whole.deactivate name).halt env.toOutside service .process).1
      { manager with runningProcesses := manager.runningProcesses.erase service.id } := by
    refine ⟨h.activeServices, ?_, h.issued, h.healthMonitors⟩
    rw [h.runningProcesses]
    exact (ProcessExecutor.stop_processes _ env.toOutside service).symm
  have hok := ProcessExecutor.stop_ok (whole.deactivate name).runningProcesses env.toOutside service
  rw [← h.runningProcesses] at hok
  rcases whole.stopService_found hlookup hexecutor env with
    ⟨e, herror, hstop⟩ | ⟨registry, _, hstop⟩
  · -- only without a handle, and with a process to kill
    have hfails : ¬ (service.id ∈ manager.runningProcesses ∨
        ∀ pid, service.pid = some pid → ProcessExecutor.Kills env.run pid) := by
      rw [← hok, h.runningProcesses]
      intro hstopped
      exact absurd (herror.symm.trans hstopped) (by simp)
    push Not at hfails
    obtain ⟨hhandle, pid, hpid, _⟩ := hfails
    have huntrack := advance_untrack name manager service
    rw [AList.lookup_eq_none.mpr hhandle, hpid] at huntrack
    rw [hstop]
    exact stopFinishes_advance .nothing huntrack
      (stopFinishes_advance (.halted (.error e)) rfl (stopFinishes_done hremaining))
  · rw [hstop]
    refine stopFinishes_advance .nothing (advance_untrack name manager service) ?_
    have hrest := stopFinishes_unmonitor name hremaining registry
    cases manager.runningProcesses.lookup service.id with
    | some handle => exact stopFinishes_advance (.halted (.ok ())) rfl hrest
    | none =>
      cases service.pid with
      | some pid => exact stopFinishes_advance (.halted (.ok ())) rfl hrest
      | none => exact hrest

/-- A stop of a container, step by step. -/
theorem stopFinishes_docker (hexecutor : findExecutor service.config = .ok .docker) :
    StopFinishes manager ⟨name, .stopContainer service⟩ (whole.stopService env name) := by
  have hhalted : Views ((whole.deactivate name).halt env.toOutside service .docker).1 manager :=
    ⟨h.activeServices, h.runningProcesses, h.issued, h.healthMonitors⟩
  rcases whole.stopService_found hlookup hexecutor env with ⟨e, _, hstop⟩ | ⟨registry, _, hstop⟩
  · rw [hstop]
    exact stopFinishes_advance (.halted (.error e)) rfl (stopFinishes_done hhalted)
  · rw [hstop]
    exact stopFinishes_advance (.halted (.ok ())) rfl (stopFinishes_unmonitor name hhalted registry)

end Halt

/-- A stop can be taken step by step, with what it learns from outside, and ends in the
same way. -/
theorem stopService_finishes (h : Views whole manager) (env : Environment) (name : String) :
    StopFinishes manager ⟨name, .take⟩ (whole.stopService env name) := by
  cases hlookup : whole.activeServices.lookup name with
  | none =>
    have htake : StopCall.advance manager ⟨name, .take⟩ .nothing =
        some (manager, .done (.error (.serviceNotFound name))) := by
      simp [StopCall.advance, h.activeServices, hlookup]
    rw [ServiceManager.stopService_absent hlookup]
    refine stopFinishes_advance .nothing htake (stopFinishes_done ?_)
    have hnone : whole.activeServices.erase name = whole.activeServices :=
      HashMap.erase_absent (by rw [← AList.lookup_eq_none, hlookup])
    exact ⟨h.activeServices.trans hnone.symm, h.runningProcesses, h.issued, h.healthMonitors⟩
  | some service =>
    have htake : StopCall.advance manager ⟨name, .take⟩ .nothing =
        some ({ manager with activeServices := manager.activeServices.erase name },
          .find service) := by
      simp [StopCall.advance, h.activeServices, hlookup]
    refine stopFinishes_advance .nothing htake ?_
    have hviews : Views (whole.deactivate name)
        { manager with activeServices := manager.activeServices.erase name } :=
      ⟨congrArg (AList.erase name) h.activeServices, h.runningProcesses, h.issued,
        h.healthMonitors⟩
    cases hexecutor : findExecutor service.config with
    | error e =>
      rw [show whole.stopService env name = (whole.deactivate name, .error e) by
        simp [ServiceManager.stopService, hlookup, hexecutor]]
      refine stopFinishes_advance .nothing ?_ (stopFinishes_done hviews)
      simp [StopCall.advance, hexecutor]
    | ok executor =>
      cases executor with
      | process =>
        refine stopFinishes_advance .nothing ?_ (stopFinishes_process hviews hlookup env hexecutor)
        simp [StopCall.advance, hexecutor]
      | docker =>
        refine stopFinishes_advance .nothing ?_ (stopFinishes_docker hviews hlookup env hexecutor)
        simp [StopCall.advance, hexecutor]

end GraphHarness.Orchestration
