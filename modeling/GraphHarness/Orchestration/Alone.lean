import GraphHarness.Orchestration.Answers

/-!
# A start that runs alone

The two readings of `start_service`: as steps between which other calls come in, and as
one call. Where no other call comes in the steps end in what the call returns, and leave
the manager as the call does.

The steps are those of `Orchestration.Manager`, the one call is `startService` of
`Orchestration.Lifecycle`. `Finishes` says that some answers take a call from its phase to its
end, and it is put together from the end backwards, one phase after the other; `Views` is what
the steps see of the manager, which is all but the registry and the failures that a monitor
counts.

So what is proved of the calls among others is about the same function as what is proved of it
alone.
-/

namespace GraphHarness.Orchestration

open ServiceRegistry (RegistryBackend)
open Trace

variable {σ : Type}

/-- The manager of the steps is the one of the calls, with the configuration of each
monitor in its place. -/
structure Views (whole : ServiceManager σ) (manager : Manager) : Prop where
  activeServices : manager.activeServices = whole.activeServices
  runningProcesses : manager.runningProcesses = whole.runningProcesses
  issued : manager.issued = whole.issued
  healthMonitors : ∀ name, manager.healthMonitors.lookup name =
    (whole.healthMonitors.lookup name).map HealthMonitor.config

/-- A new manager, seen by the calls. -/
theorem views_new (backend : σ) : Views (ServiceManager.withStateDir backend) Manager.new :=
  ⟨rfl, rfl, rfl, fun _ => rfl⟩

/-- How a call that does not panic ends. -/
def Result.Ends : Result RunningService → Except Error RunningService → Prop
  | .ok service, result => result = .ok service
  | .err e, result => result = .error e
  | .panicked, _ => False

/-- The steps of the one call there is can end as the whole call has ended. -/
def Finishes (manager : Manager) (call : Call)
    (ended : ServiceManager σ × Result RunningService) : Prop :=
  ∃ (answers : List Answer) (result : Except Error RunningService) (manager' : Manager),
    Result.Ends ended.2 result ∧ Views ended.1 manager' ∧
      run step ⟨manager, [call]⟩ (answers.map (.advance 0)) =
        some ⟨manager', [{ call with phase := .done result }]⟩

section Steps

variable {manager manager' : Manager} {name : String} {config : ServiceConfig}
  {phase phase' : Phase} {ended : ServiceManager σ × Result RunningService}

/-- A call that has ended. -/
theorem finishes_done {result : Except Error RunningService} (hends : Result.Ends ended.2 result)
    (h : Views ended.1 manager) : Finishes manager ⟨name, config, .done result⟩ ended :=
  ⟨[], result, manager, hends, h, rfl⟩

/-- One step, and the rest of the call. -/
theorem finishes_advance (answer : Answer)
    (h : advance manager ⟨name, config, phase⟩ answer = some (manager', phase'))
    (hrest : Finishes manager' ⟨name, config, phase'⟩ ended) :
    Finishes manager ⟨name, config, phase⟩ ended := by
  obtain ⟨answers, result, last, hends, hviews, hrun⟩ := hrest
  refine ⟨answer :: answers, result, last, hends, hviews, ?_⟩
  have hstep : step ⟨manager, [⟨name, config, phase⟩]⟩ (.advance 0 answer) =
      some ⟨manager', [⟨name, config, phase'⟩]⟩ := by
    simp [step, h]
  rw [List.map_cons, run, hstep]
  exact hrun

/-- The step that enters the monitor. -/
theorem advance_monitor (manager : Manager) (service : RunningService) :
    advance manager ⟨name, config, .monitor service⟩ .nothing =
      some ({ manager with
        healthMonitors :=
          match config.healthCheck with
          | some healthCheck => manager.healthMonitors.insert name healthCheck
          | none => manager.healthMonitors }, .store service) := by
  unfold advance
  cases config.healthCheck with
  | none => rfl
  | some healthCheck => rfl

/-- The step that stores the service. -/
theorem advance_store (manager : Manager) (service : RunningService) :
    advance manager ⟨name, config, .store service⟩ .nothing =
      some ({ manager with activeServices := manager.activeServices.insert name service },
        if isBlankName name then .done (.error (.registry "Service name cannot be empty"))
        else .register service) := by
  unfold advance
  dsimp only
  cases isBlankName name with
  | true => rfl
  | false => rfl

/-- The two checks of a blank name are one. -/
theorem isBlankName_eq (name : String) : isBlankName name = isBlank name := by
  rw [Bool.eq_iff_iff, isBlank_iff]
  exact List.all_eq_true

/-- What the last steps store is what the whole call stores. -/
theorem views_store {whole : ServiceManager σ}
    (h : Views { whole with issued := whole.issued + 1 } manager) (name : String)
    (config : ServiceConfig) (service : RunningService) :
    Views (whole.store name config service)
      { manager with
        healthMonitors :=
          match config.healthCheck with
          | some healthCheck => manager.healthMonitors.insert name healthCheck
          | none => manager.healthMonitors
        activeServices := manager.activeServices.insert name service } := by
  refine ⟨congrArg (AList.insert name service) h.activeServices, h.runningProcesses, h.issued, ?_⟩
  intro other
  unfold ServiceManager.store
  cases config.healthCheck with
  | none => exact h.healthMonitors other
  | some healthCheck =>
    by_cases hother : other = name
    · subst hother
      simp [HealthMonitor.new]
    · dsimp only
      rw [AList.lookup_insert_ne hother, AList.lookup_insert_ne hother]
      exact h.healthMonitors other

end Steps

variable [RegistryBackend σ] {whole : ServiceManager σ} {manager : Manager} {name : String}
  {config : ServiceConfig}

/-- The end of a start whose executor has started the service. -/
theorem finishes_store (hfree : name ∉ whole.activeServices) {executor : ExecutorKind}
    (hexecutor : findExecutor config = .ok executor) {env : Environment}
    {service : RunningService}
    (hlaunch : (whole.launch env.toOutside config executor).2 = .ok service)
    (h : Views { (whole.launch env.toOutside config executor).1 with
      issued := (whole.launch env.toOutside config executor).1.issued + 1 } manager) :
    Finishes manager ⟨name, config, .monitor service⟩ (whole.startService env name config) := by
  have hviews := views_store h name config service
  refine finishes_advance .nothing (advance_monitor manager service) ?_
  refine finishes_advance .nothing (advance_store _ service) ?_
  rw [isBlankName_eq]
  cases hname : isBlank name with
  | true =>
    rw [ServiceManager.startService_blank hfree hexecutor hlaunch hname]
    exact finishes_done rfl hviews
  | false =>
    obtain ⟨entry, _, _, _, hstart⟩ :=
      ServiceManager.startService_ok hfree hexecutor hlaunch hname
    rw [hstart]
    refine finishes_advance .nothing rfl (finishes_done rfl ?_)
    exact ⟨hviews.activeServices, hviews.runningProcesses, hviews.issued, hviews.healthMonitors⟩

section Launch

variable (h : Views whole manager) (hfree : name ∉ whole.activeServices) (env : Environment)
include h hfree

/-- A start of a process, step by step. -/
theorem finishes_process (hexecutor : findExecutor config = .ok .process) :
    Finishes manager ⟨name, config, .launch⟩ (whole.startService env name config) := by
  rcases findExecutor_ok hexecutor with ⟨_, _, _, _, _, htarget⟩ | ⟨_, _, _, _, hkind, _⟩
  · obtain ⟨message, _, hstart⟩ | ⟨handle, _, hstart⟩ :=
      ProcessExecutor.start_cases htarget whole.runningProcesses env.toOutside whole.issued
    · have hlaunch : whole.launch env.toOutside config .process =
          (whole, .err (.commandExecutor message)) := by
        rw [ServiceManager.launch, hstart]
      rw [ServiceManager.startService_err hfree hexecutor (congrArg Prod.snd hlaunch), hlaunch]
      exact finishes_advance (.launched (.error message)) rfl (finishes_done rfl h)
    · have hlaunch : whole.launch env.toOutside config .process =
          ({ whole with runningProcesses := whole.runningProcesses.insert whole.issued handle },
            .ok (((RunningService.new whole.issued config.name config).withPid
              (handle.pid.getD 0)).withMetadata "executor_type" "process")) := by
        rw [ServiceManager.launch, hstart]
      refine finishes_advance (.launched (.ok handle.pid)) rfl ?_
      refine finishes_advance .nothing rfl ?_
      rw [h.issued]
      refine finishes_store hfree hexecutor (congrArg Prod.snd hlaunch) ?_
      rw [hlaunch]
      refine ⟨h.activeServices, ?_, rfl, h.healthMonitors⟩
      show manager.runningProcesses.insert whole.issued handle = _
      rw [h.runningProcesses]
  · cases hkind

/-- A start of a container, step by step. -/
theorem finishes_docker (hexecutor : findExecutor config = .ok .docker)
    (hpanicked : (whole.startService env name config).2 ≠ .panicked) :
    Finishes manager ⟨name, config, .startContainer⟩ (whole.startService env name config) := by
  cases hlaunch : (whole.launch env.toOutside config .docker).2 with
  | err e =>
    rw [ServiceManager.startService_err hfree hexecutor hlaunch]
    refine finishes_advance (.container (.error e)) rfl (finishes_done rfl ?_)
    exact ⟨h.activeServices, h.runningProcesses, h.issued, h.healthMonitors⟩
  | panicked =>
    rw [ServiceManager.startService_panicked hfree hexecutor hlaunch] at hpanicked
    exact absurd rfl hpanicked
  | ok service =>
    refine finishes_advance (.container (.ok service)) rfl ?_
    have hid : { service with id := manager.issued } = service := by
      rw [h.issued, ← (DockerExecutor.start_service hlaunch).2]
    rw [hid]
    refine finishes_store hfree hexecutor hlaunch ?_
    exact ⟨h.activeServices, h.runningProcesses, congrArg (· + 1) h.issued, h.healthMonitors⟩

end Launch

/-- A start that does not panic can be taken step by step, with what it learns from
outside, and ends in the same way. -/
theorem startService_finishes (h : Views whole manager) (env : Environment) (name : String)
    (config : ServiceConfig) (hpanicked : (whole.startService env name config).2 ≠ .panicked) :
    Finishes manager ⟨name, config, .check⟩ (whole.startService env name config) := by
  by_cases hactive : name ∈ whole.activeServices
  · have hcheck : advance manager ⟨name, config, .check⟩ .nothing =
        some (manager, .done (.error (.serviceExists name))) := by
      rw [← h.activeServices] at hactive
      exact if_pos hactive
    rw [ServiceManager.startService_active hactive]
    exact finishes_advance .nothing hcheck (finishes_done rfl h)
  · have hcheck : advance manager ⟨name, config, .check⟩ .nothing = some (manager, .inject) := by
      rw [← h.activeServices] at hactive
      exact if_neg hactive
    refine finishes_advance .nothing hcheck ?_
    cases hexecutor : findExecutor config with
    | error e =>
      have hinject : advance manager ⟨name, config, .inject⟩ .nothing =
          some (manager, .done (.error e)) := by
        simp [advance, hexecutor]
      rw [ServiceManager.startService_noExecutor hactive hexecutor]
      exact finishes_advance .nothing hinject (finishes_done rfl h)
    | ok executor =>
      cases executor with
      | process =>
        have hinject : advance manager ⟨name, config, .inject⟩ .nothing =
            some (manager, .launch) := by
          simp [advance, hexecutor]
        exact finishes_advance .nothing hinject (finishes_process h hactive env hexecutor)
      | docker =>
        have hinject : advance manager ⟨name, config, .inject⟩ .nothing =
            some (manager, .startContainer) := by
          simp [advance, hexecutor]
        exact finishes_advance .nothing hinject
          (finishes_docker h hactive env hexecutor hpanicked)

end GraphHarness.Orchestration
