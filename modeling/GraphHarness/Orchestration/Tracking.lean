import GraphHarness.Orchestration.Answers

/-!
# What the executors keep of the active services

The process executor keeps its handles under identifiers of their own, and a service keeps
the identifier, the process and the container it was given at its start. The manager and
the executor never compare the two.

> `handles_exact`: after any calls, the handles are those of the active services that are
> processes, and no two services share one.

`launch_spec` says what a service that was started looks like; everything else follows from
it and from which handles a call adds and removes.

Identifiers are drawn from the counter of the manager, and no id is drawn twice, so a handle
belongs to one service. `Tracked` is the invariant; `Kept` is what it says of one service, and
it holds of a service until its stop, whatever happens to others. A start can fail behind its
launch only under a blank name, and then its service is active all the same.

The calls come one after the other. With calls at once `Orchestration.Accounts` has the same
statement, with the replaced services beside.
-/

namespace GraphHarness.Orchestration

open ServiceRegistry (RegistryBackend)
open Trace

namespace DockerExecutor

/-- A container has told its network under an identifier of twelve bytes or more. -/
def Identified (service : RunningService) : Prop :=
  service.pid = none ∧ ∃ id hostname info, service.containerId = some id ∧
    bytePrefix 12 id.toList = some hostname ∧ service.networkInfo = some info ∧
    info.hostname = String.ofList hostname

variable {run : Commands} {id : Nat} {config : ServiceConfig} {service : RunningService}

/-- The host name is the beginning of the id. -/
theorem getContainerNetworkInfo_hostname {container : String} {info : NetworkInfo}
    (h : getContainerNetworkInfo run container = .ok info) :
    ∃ hostname, bytePrefix 12 container.toList = some hostname ∧
      info.hostname = String.ofList hostname := by
  unfold getContainerNetworkInfo at h
  split at h
  next => cases h
  next =>
    split at h
    next =>
      split at h
      next => cases h
      next =>
        dsimp only at h
        split at h
        next hostname hstart =>
          obtain rfl := Result.ok.inj h
          exact ⟨hostname, hstart, rfl⟩
        next => cases h
    next => cases h

/-- An adopted container is identified by its id. -/
theorem adoptContainer_identified {container : ContainerState}
    (h : adoptContainer run id container config = .ok service) : Identified service := by
  obtain ⟨info, hinfo, rfl⟩ := Result.map_eq_ok.mp h
  obtain ⟨hostname, hstart, hhostname⟩ := getContainerNetworkInfo_hostname hinfo
  exact ⟨rfl, container.id, hostname, info, rfl, hstart, rfl, hhostname⟩

/-- So is a container that was run. -/
theorem runContainer_identified {line : List String}
    (h : (runContainer run id config line).2 = .ok service) : Identified service := by
  unfold runContainer at h
  split at h
  next => cases h
  next result _ =>
    dsimp only at h
    split at h
    next =>
      obtain ⟨info, hinfo, rfl⟩ := Result.map_eq_ok.mp h
      obtain ⟨hostname, hstart, hhostname⟩ := getContainerNetworkInfo_hostname hinfo
      exact ⟨rfl, trim result.output, hostname, info, rfl, hstart, rfl, hhostname⟩
    next => cases h

/-- So is whatever a start returns. -/
theorem start_identified (h : (start run id config).2 = .ok service) : Identified service := by
  unfold start at h
  split at h
  next =>
    dsimp only at h
    split at h
    next => cases h
    next =>
      split at h
      next => exact adoptContainer_identified h
      next =>
        split at h
        next => cases h
        next => exact runContainer_identified h
    next => exact runContainer_identified h
  next => cases h

end DockerExecutor

/-- The service is a process, or a container. -/
def RunningService.IsProcess (service : RunningService) : Prop :=
  findExecutor service.config = .ok .process

/-- A process has a handle under the identifier of its service, and its number is the
service's; a container is identified. -/
def Kept (processes : HashMap Nat ProcessInfo) (service : RunningService) : Prop :=
  (service.IsProcess ∧ service.containerId = none ∧ ∃ handle,
    processes.lookup service.id = some handle ∧ service.pid = some (handle.pid.getD 0)) ∨
  (findExecutor service.config = .ok .docker ∧ DockerExecutor.Identified service)

/-- The handle is given up before the process is told to end. -/
theorem ProcessExecutor.stop_processes (processes : HashMap Nat ProcessInfo) (outside : Outside)
    (service : RunningService) :
    (stop processes outside service).1 = processes.erase service.id := by
  unfold stop
  dsimp only
  split
  next =>
    split
    next => rfl
    next => split <;> rfl
  next =>
    split
    next =>
      split
      next =>
        split
        next => rfl
        next => split <;> rfl
      next => rfl
    next => rfl

namespace ServiceManager

variable {σ : Type}

section Launch

variable {manager : ServiceManager σ} {outside : Outside} {config : ServiceConfig}

/-- What a launch that succeeds gives: a service with the next identifier, and a handle
under it if it is a process. -/
theorem launch_spec {after : ServiceManager σ} {service : RunningService}
    (h : Launched manager outside config after service) :
    service.id = manager.issued ∧ Kept after.runningProcesses service ∧
      (service.IsProcess ∧ (∃ handle,
          after.runningProcesses = manager.runningProcesses.insert manager.issued handle) ∨
        ¬ service.IsProcess ∧ after.runningProcesses = manager.runningProcesses) := by
  have hconfig := h.config
  obtain ⟨executor, hexecutor, hlaunch⟩ := h
  rcases findExecutor_ok hexecutor with ⟨_, _, _, _, rfl, htarget⟩ | ⟨_, _, _, _, rfl, htarget⟩
  · have hprocess : service.IsProcess := by
      unfold RunningService.IsProcess
      rw [hconfig]
      exact hexecutor
    rcases ProcessExecutor.start_cases htarget manager.runningProcesses outside manager.issued with
      ⟨_, _, hstart⟩ | ⟨handle, _, hstart⟩
    · rw [launch, hstart] at hlaunch
      cases hlaunch
    · rw [launch, hstart] at hlaunch
      obtain ⟨rfl, hservice⟩ := Prod.mk.inj hlaunch
      obtain rfl := Result.ok.inj hservice
      exact ⟨rfl, .inl ⟨hprocess, rfl, handle, AList.lookup_insert _, rfl⟩,
        .inl ⟨hprocess, handle, rfl⟩⟩
  · obtain ⟨rfl, hstart⟩ := Prod.mk.inj hlaunch
    have hdocker : ¬ service.IsProcess := by
      unfold RunningService.IsProcess
      rw [hconfig, hexecutor]
      simp
    exact ⟨(DockerExecutor.start_service hstart).2,
      .inr ⟨hconfig ▸ hexecutor, DockerExecutor.start_identified hstart⟩, .inr ⟨hdocker, rfl⟩⟩

/-- A launch that fails leaves no handle. -/
theorem launch_fails_processes {executor : ExecutorKind}
    (hexecutor : findExecutor config = .ok executor)
    (h : ∀ service, (manager.launch outside config executor).2 ≠ .ok service) :
    (manager.launch outside config executor).1.runningProcesses = manager.runningProcesses := by
  rcases findExecutor_ok hexecutor with ⟨_, _, _, _, rfl, htarget⟩ | ⟨_, _, _, _, rfl, htarget⟩
  · rcases ProcessExecutor.start_cases htarget manager.runningProcesses outside manager.issued with
      ⟨_, _, hstart⟩ | ⟨_, _, hstart⟩
    · rw [launch, hstart]
    · rw [launch, hstart] at h
      exact absurd rfl (h _)
  · rfl

/-- A launch draws no id. -/
theorem launch_issued (manager : ServiceManager σ) (outside : Outside) (config : ServiceConfig)
    (executor : ExecutorKind) : (manager.launch outside config executor).1.issued =
      manager.issued := by
  cases executor with
  | process => rfl
  | docker => rfl

end Launch

/-! ## What the calls do to the services and the handles -/

/-- What the handles are compared with. -/
def SameServices (m m' : ServiceManager σ) : Prop :=
  m'.activeServices = m.activeServices ∧ m'.runningProcesses = m.runningProcesses ∧
    m'.issued = m.issued

/-- A start changes nothing that is kept, or keeps what was launched. -/
theorem startService_keeps [RegistryBackend σ] (manager : ServiceManager σ) (env : Environment)
    (name : String) (config : ServiceConfig) :
    SameServices manager (manager.startService env name config).1 ∨
    ∃ after service, name ∉ manager.activeServices ∧
      Launched manager env.toOutside config after service ∧
      (manager.startService env name config).1.activeServices =
        manager.activeServices.insert name service ∧
      (manager.startService env name config).1.runningProcesses = after.runningProcesses ∧
      (manager.startService env name config).1.issued = manager.issued + 1 := by
  by_cases hfree : name ∈ manager.activeServices
  · rw [startService_active hfree]
    exact .inl ⟨rfl, rfl, rfl⟩
  · cases hexecutor : findExecutor config with
    | error e =>
      rw [startService_noExecutor hfree hexecutor]
      exact .inl ⟨rfl, rfl, rfl⟩
    | ok executor =>
      have hactive := (launch_sameStores manager env.toOutside config executor).2.1
      have hissued := launch_issued manager env.toOutside config executor
      cases hlaunch : (manager.launch env.toOutside config executor).2 with
      | err e =>
        rw [startService_err hfree hexecutor hlaunch]
        exact .inl ⟨hactive, launch_fails_processes hexecutor (by simp [hlaunch]), hissued⟩
      | panicked =>
        rw [startService_panicked hfree hexecutor hlaunch]
        exact .inl ⟨hactive, launch_fails_processes hexecutor (by simp [hlaunch]), hissued⟩
      | ok service =>
        refine .inr ⟨_, service, hfree, ⟨executor, hexecutor, Prod.ext rfl hlaunch⟩, ?_⟩
        have hinsert := congrArg (AList.insert name service) hactive
        cases hname : isBlank name with
        | true =>
          rw [startService_blank hfree hexecutor hlaunch hname]
          exact ⟨hinsert, rfl, congrArg (· + 1) hissued⟩
        | false =>
          obtain ⟨_, _, _, _, hstart⟩ := startService_ok hfree hexecutor hlaunch hname
          rw [hstart]
          exact ⟨hinsert, rfl, congrArg (· + 1) hissued⟩

/-- A stop takes the service out of the active ones, and the handle of a process with it. -/
theorem stopService_keeps [RegistryBackend σ] (manager : ServiceManager σ) (env : Environment)
    (name : String) :
    (manager.stopService env name).1.activeServices = manager.activeServices.erase name ∧
      (manager.stopService env name).1.issued = manager.issued ∧
      ((∃ service, manager.activeServices.lookup name = some service ∧ service.IsProcess ∧
          (manager.stopService env name).1.runningProcesses =
            manager.runningProcesses.erase service.id) ∨
        (∀ service, manager.activeServices.lookup name = some service → ¬ service.IsProcess) ∧
          (manager.stopService env name).1.runningProcesses = manager.runningProcesses) := by
  unfold stopService
  dsimp only
  cases hlookup : manager.activeServices.lookup name with
  | none => exact ⟨rfl, rfl, .inr ⟨by simp, rfl⟩⟩
  | some service =>
    dsimp only
    cases hexecutor : findExecutor service.config with
    | error e => exact ⟨rfl, rfl, .inr ⟨by simp [RunningService.IsProcess, hexecutor], rfl⟩⟩
    | ok executor =>
      dsimp only
      -- what follows a halt that succeeds is about the monitors and the registry
      cases executor with
      | process =>
        have hprocesses := ProcessExecutor.stop_processes manager.runningProcesses env.toOutside
          service
        split
        next => exact ⟨rfl, rfl, .inl ⟨service, rfl, hexecutor, hprocesses⟩⟩
        next => exact ⟨rfl, rfl, .inl ⟨service, rfl, hexecutor, hprocesses⟩⟩
      | docker =>
        have hdocker : ∀ service', some service = some service' → ¬ service'.IsProcess := by
          simp [RunningService.IsProcess, hexecutor]
        split
        next => exact ⟨rfl, rfl, .inr ⟨hdocker, rfl⟩⟩
        next => exact ⟨rfl, rfl, .inr ⟨hdocker, rfl⟩⟩

/-! ## The invariant -/

/-- The identifiers tell the active services apart, and the handles are those of the
active services that are processes. -/
structure Tracked (manager : ServiceManager σ) : Prop where
  id_lt : ∀ name service, manager.activeServices.lookup name = some service →
    service.id < manager.issued
  id_inj : ∀ name service name' service', manager.activeServices.lookup name = some service →
    manager.activeServices.lookup name' = some service' → service.id = service'.id → name = name'
  kept : ∀ name service, manager.activeServices.lookup name = some service →
    Kept manager.runningProcesses service
  owned : ∀ id ∈ manager.runningProcesses, ∃ name service,
    manager.activeServices.lookup name = some service ∧ service.id = id ∧ service.IsProcess

/-- The statement is about the maps of services only. -/
theorem tracked_sameServices {m m' : ServiceManager σ} (h : m.Tracked) (hsame : SameServices m m') :
    m'.Tracked := by
  obtain ⟨hactive, hprocesses, hissued⟩ := hsame
  refine ⟨?_, ?_, ?_, ?_⟩
  · rw [hactive, hissued]
    exact h.id_lt
  · rw [hactive]
    exact h.id_inj
  · rw [hactive, hprocesses]
    exact h.kept
  · rw [hactive, hprocesses]
    exact h.owned

/-- A handle that stays is still that of its service. -/
theorem kept_of_same {processes processes' : HashMap Nat ProcessInfo} {service : RunningService}
    (h : Kept processes service)
    (hsame : service.IsProcess → processes'.lookup service.id = processes.lookup service.id) :
    Kept processes' service := by
  rcases h with ⟨hprocess, hcontainer, handle, hhandle, hpid⟩ | hdocker
  · exact .inl ⟨hprocess, hcontainer, handle, (hsame hprocess).trans hhandle, hpid⟩
  · exact .inr hdocker

section Steps

variable [RegistryBackend σ]

/-- A start keeps it. -/
theorem tracked_start {manager : ServiceManager σ} (h : manager.Tracked) (env : Environment)
    (name : String) (config : ServiceConfig) :
    (manager.startService env name config).1.Tracked := by
  rcases manager.startService_keeps env name config with
    hsame | ⟨after, service, hfree, hlaunched, hactive, hprocesses, hissued⟩
  · exact tracked_sameServices h hsame
  · obtain ⟨hid, hkept, hhandles⟩ := launch_spec hlaunched
    have hlookup : ∀ other service', (manager.activeServices.insert name service).lookup other =
        some service' → (other = name ∧ service' = service) ∨
          (other ≠ name ∧ manager.activeServices.lookup other = some service') := by
      intro other service' hother
      by_cases hname : other = name
      · subst hname
        rw [AList.lookup_insert] at hother
        exact .inl ⟨rfl, (Option.some.inj hother).symm⟩
      · rw [AList.lookup_insert_ne hname] at hother
        exact .inr ⟨hname, hother⟩
    -- the services that were there have earlier identifiers
    have hearlier : ∀ other service', manager.activeServices.lookup other = some service' →
        service'.id ≠ manager.issued := fun other service' hother =>
      Nat.ne_of_lt (h.id_lt other service' hother)
    refine ⟨?_, ?_, ?_, ?_⟩
    -- ids are below the counter
    · rw [hactive, hissued]
      intro other service' hother
      rcases hlookup other service' hother with ⟨_, rfl⟩ | ⟨_, hbefore⟩
      · omega
      · exact Nat.lt_succ_of_lt (h.id_lt other service' hbefore)
    -- no id belongs to two services
    · rw [hactive]
      intro first one second two hfirst hsecond heq
      rcases hlookup first one hfirst with ⟨rfl, rfl⟩ | ⟨_, hone⟩
      · rcases hlookup second two hsecond with ⟨rfl, _⟩ | ⟨_, htwo⟩
        · rfl
        · exact absurd (heq.symm.trans hid) (hearlier second two htwo)
      · rcases hlookup second two hsecond with ⟨rfl, rfl⟩ | ⟨_, htwo⟩
        · exact absurd (heq.trans hid) (hearlier first one hone)
        · exact h.id_inj first one second two hone htwo heq
    -- each service has what it was launched with
    · rw [hactive, hprocesses]
      intro other service' hother
      rcases hlookup other service' hother with ⟨_, rfl⟩ | ⟨_, hbefore⟩
      · exact hkept
      · refine kept_of_same (h.kept other service' hbefore) ?_
        intro _
        rcases hhandles with ⟨_, handle, hafter⟩ | ⟨_, hafter⟩
        · rw [hafter, AList.lookup_insert_ne (hearlier other service' hbefore)]
        · rw [hafter]
    -- each handle has its service
    · rw [hactive, hprocesses]
      intro id hmem
      have hbefore : ∀ id ∈ manager.runningProcesses, ∃ other service',
          (manager.activeServices.insert name service).lookup other = some service' ∧
            service'.id = id ∧ service'.IsProcess := by
        intro id hmem
        obtain ⟨other, service', hother, hservice⟩ := h.owned id hmem
        have hne : other ≠ name := by
          rintro rfl
          exact hfree (AList.lookup_isSome.mp (by simp [hother]))
        exact ⟨other, service', (AList.lookup_insert_ne hne).trans hother, hservice⟩
      rcases hhandles with ⟨hprocess, handle, hafter⟩ | ⟨_, hafter⟩
      · rw [hafter, AList.mem_insert] at hmem
        rcases hmem with rfl | hmem
        · exact ⟨name, service, AList.lookup_insert _, hid, hprocess⟩
        · exact hbefore id hmem
      · rw [hafter] at hmem
        exact hbefore id hmem

/-- A stop keeps it. -/
theorem tracked_stop {manager : ServiceManager σ} (h : manager.Tracked) (env : Environment)
    (name : String) : (manager.stopService env name).1.Tracked := by
  obtain ⟨hactive, hissued, hhandles⟩ := manager.stopService_keeps env name
  have hlookup : ∀ other service', (manager.activeServices.erase name).lookup other =
      some service' → other ≠ name ∧ manager.activeServices.lookup other = some service' := by
    intro other service' hother
    have hne : other ≠ name := by
      rintro rfl
      simp at hother
    exact ⟨hne, (AList.lookup_erase_ne hne).symm.trans hother⟩
  refine ⟨?_, ?_, ?_, ?_⟩
  · rw [hactive, hissued]
    intro other service' hother
    exact h.id_lt other service' (hlookup other service' hother).2
  · rw [hactive]
    intro first one second two hfirst hsecond
    exact h.id_inj first one second two (hlookup first one hfirst).2 (hlookup second two hsecond).2
  · rw [hactive]
    intro other service' hother
    obtain ⟨hne, hbefore⟩ := hlookup other service' hother
    refine kept_of_same (h.kept other service' hbefore) ?_
    intro _
    rcases hhandles with ⟨service, hservice, _, hprocesses⟩ | ⟨_, hprocesses⟩
    · rw [hprocesses]
      refine AList.lookup_erase_ne ?_
      intro heq
      exact hne (h.id_inj other service' name service hbefore hservice heq)
    · rw [hprocesses]
  · rw [hactive]
    intro id hmem
    rcases hhandles with ⟨service, hservice, _, hprocesses⟩ | ⟨hnone, hprocesses⟩
    · rw [hprocesses, AList.mem_erase] at hmem
      obtain ⟨other, service', hother, rfl, hprocess⟩ := h.owned id hmem.2
      refine ⟨other, service', (AList.lookup_erase_ne ?_).trans hother, rfl, hprocess⟩
      rintro rfl
      exact hmem.1 (congrArg RunningService.id (Option.some.inj (hother.symm.trans hservice)))
    · rw [hprocesses] at hmem
      obtain ⟨other, service', hother, hid, hprocess⟩ := h.owned id hmem
      refine ⟨other, service', (AList.lookup_erase_ne ?_).trans hother, hid, hprocess⟩
      rintro rfl
      exact hnone service' hother hprocess

/-- Every call keeps the handles with their services. -/
theorem tracked_perform (manager : ServiceManager σ) (request : Request) (h : manager.Tracked) :
    (manager.perform request).1.Tracked := by
  cases request with
  | start env name config => exact tracked_start h env name config
  | stop env name => exact tracked_stop h env name
  | runHealthChecks run => exact tracked_sameServices h ⟨rfl, rfl, rfl⟩
  | recreate => exact ⟨by simp [perform, recreate, withStateDir],
      by simp [perform, recreate, withStateDir], by simp [perform, recreate, withStateDir],
      by simp [perform, recreate, withStateDir]⟩

omit [RegistryBackend σ] in
/-- It holds of a new manager. -/
theorem tracked_withStateDir (backend : σ) : (withStateDir backend).Tracked :=
  ⟨by simp [withStateDir], by simp [withStateDir], by simp [withStateDir], by simp [withStateDir]⟩

/-- And after any requests. -/
theorem tracked_after (backend : σ) (requests : List Request) :
    (after perform (withStateDir backend) requests).Tracked :=
  after_invariant Tracked tracked_perform (tracked_withStateDir backend)

/-- With its handle a process is stopped, whatever its end is answered by. -/
theorem Tracked.stops {manager : ServiceManager σ} (h : manager.Tracked) {name : String}
    {service : RunningService} (hservice : manager.activeServices.lookup name = some service)
    (hprocess : service.IsProcess) (env : Environment) :
    (manager.stopService env name).2 = .ok () := by
  have hhalts : manager.Halts env.toOutside service := by
    refine ⟨.process, hprocess, (ProcessExecutor.stop_ok ..).mpr (.inl ?_)⟩
    rcases h.kept name service hservice with ⟨_, _, handle, hhandle, _⟩ | ⟨hdocker, _⟩
    · exact AList.lookup_isSome.mp (by simp [hhandle])
    · rw [RunningService.IsProcess, hdocker] at hprocess
      cases hprocess
  rcases stopService_active hservice env with ⟨hnot, _⟩ | ⟨_, hok, _⟩
  · exact absurd hhalts hnot
  · exact hok

/-- After any calls, the handles of the process executor are those of the active services
that are processes: none is lost, none is left over, and no two services share one. So a
stop of such a service succeeds, and the executor never falls back on `kill`. -/
theorem handles_exact (backend : σ) (requests : List Request) :
    let manager := after perform (withStateDir backend) requests
    (∀ id, id ∈ manager.runningProcesses ↔ ∃ name service,
      manager.activeServices.lookup name = some service ∧ service.id = id ∧ service.IsProcess) ∧
    (∀ name service name' service', manager.activeServices.lookup name = some service →
      manager.activeServices.lookup name' = some service' → service.id = service'.id →
        name = name') ∧
    ∀ name service, manager.activeServices.lookup name = some service → service.IsProcess →
      ∀ env, (manager.stopService env name).2 = .ok () := by
  intro manager
  have htracked : manager.Tracked := tracked_after backend requests
  refine ⟨?_, htracked.id_inj, ?_⟩
  · intro id
    constructor
    · exact htracked.owned id
    · rintro ⟨name, service, hservice, rfl, hprocess⟩
      rcases htracked.kept name service hservice with ⟨_, _, handle, hhandle, _⟩ | ⟨hdocker, _⟩
      · exact AList.lookup_isSome.mp (by simp [hhandle])
      · rw [RunningService.IsProcess, hdocker] at hprocess
        cases hprocess
  · intro name service hservice hprocess env
    exact htracked.stops hservice hprocess env

end Steps

end ServiceManager

end GraphHarness.Orchestration
