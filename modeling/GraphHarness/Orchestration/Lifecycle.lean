import GraphHarness.Orchestration.Executors
import GraphHarness.ServiceRegistry.Registry
import GraphHarness.Trace.Simulation

/-!
# The service manager (`service-orchestration/src/manager.rs`)

Starts, stops, health checks and the status of a service, one call after the other,
over any registry backend. The errors of the registry are only logged, and what its
subscribers are told is left out.

Each call is a function of the state and of the world outside (`Environment`), and `perform`
is one of them by its request, so a run is `Trace.after perform`. `Launched` describes what a
launch that succeeds has made; `startService_ok` and the lemmas beside it say what a start
comes to, by what the launch has come to, and the statements about runs go through these.

Persisting is left to the backend of the registry: `recreate` is a new manager over the
backend of the old one, which outlives the daemon as the containers do. Injecting the network
returns the configuration as it is, which is all that the source does so far.
-/

namespace GraphHarness.Orchestration

open ServiceRegistry (Registry RegistryBackend LawfulBackend ServiceEntry ExecutionInfo Faults
  Timestamp)

/-- What a call of the manager learns from outside: also which storage calls fail, and
the two readings of the clock. -/
structure Environment extends Outside where
  faults : Faults
  now : Timestamp
  later : Timestamp

/-- `Error::Registry`, of which only the text inside the registry's error is kept. -/
def Error.ofRegistry : ServiceRegistry.Error → Error
  | .serviceNotFound name | .serviceExists name => .registry name
  | .package message | .json message | .database message => .registry message
  | .invalidStateTransition .. => .registry "Invalid state transition"

/-- The manager, the handles of its process executor, what its docker executor has done,
and how many identifiers have been given. -/
structure ServiceManager (σ : Type) where
  registry : Registry σ
  activeServices : HashMap String RunningService
  healthMonitors : HashMap String HealthMonitor
  runningProcesses : HashMap Nat ProcessInfo
  containers : List ContainerChange
  issued : Nat

/-- The network configuration is not injected yet. -/
def injectNetworkConfig (config : ServiceConfig) : ServiceConfig := config

/-- What the registry is told about a service. -/
def executionInfo (name : String) (config : ServiceConfig) (service : RunningService) :
    ExecutionInfo :=
  match config.target with
  | .process binary args _ _ => .managedProcess service.pid binary args
  | .docker image _ _ _ =>
    .dockerContainer service.containerId image (some s!"orchestrator-{name}")
  | _ => .managedProcess none name []

namespace ServiceManager

variable {σ : Type}

/-- `with_state_dir`, on the registry that is found there. -/
def withStateDir (backend : σ) : ServiceManager σ where
  registry := Registry.withBackend backend
  activeServices := ∅
  healthMonitors := ∅
  runningProcesses := ∅
  containers := []
  issued := 0

/-- A new manager over the same state directory. The registry finds what was stored. -/
def recreate (manager : ServiceManager σ) : ServiceManager σ :=
  { withStateDir manager.registry.backend with
    containers := manager.containers
    issued := manager.issued }

/-- `executor.start`. -/
def launch (manager : ServiceManager σ) (outside : Outside) (config : ServiceConfig) :
    ExecutorKind → ServiceManager σ × Result RunningService
  | .process =>
    let started :=
      ProcessExecutor.start manager.runningProcesses outside manager.issued config
    ({ manager with runningProcesses := started.1 }, started.2)
  | .docker =>
    let started := DockerExecutor.start outside.run manager.issued config
    ({ manager with containers := manager.containers ++ started.1 }, started.2)

/-- `executor.stop`. -/
def halt (manager : ServiceManager σ) (outside : Outside) (service : RunningService) :
    ExecutorKind → ServiceManager σ × Except Error Unit
  | .process =>
    let stopped := ProcessExecutor.stop manager.runningProcesses outside service
    ({ manager with runningProcesses := stopped.1 }, stopped.2)
  | .docker =>
    let stopped := DockerExecutor.stop outside.run service
    ({ manager with containers := manager.containers ++ stopped.1 }, stopped.2)

/-- The monitor of a service that was started, if it has a health check, and then the
service. Its identifier is used up. -/
def store (manager : ServiceManager σ) (name : String) (config : ServiceConfig)
    (service : RunningService) : ServiceManager σ :=
  { manager with
    healthMonitors :=
      match config.healthCheck with
      | some healthCheck => manager.healthMonitors.insert name (HealthMonitor.new healthCheck)
      | none => manager.healthMonitors
    activeServices := manager.activeServices.insert name service
    issued := manager.issued + 1 }

/-- The manager without a service among the active ones. -/
def deactivate (manager : ServiceManager σ) (name : String) : ServiceManager σ :=
  { manager with activeServices := manager.activeServices.erase name }

section Calls

variable [RegistryBackend σ]

/-- `start_service`. -/
def startService (manager : ServiceManager σ) (env : Environment) (name : String)
    (config : ServiceConfig) : ServiceManager σ × Result RunningService :=
  if name ∈ manager.activeServices then (manager, .err (.serviceExists name))
  else
    let networkConfig := injectNetworkConfig config
    match findExecutor networkConfig with
    | .error e => (manager, .err e)
    | .ok executor =>
      let started := manager.launch env.toOutside networkConfig executor
      match started.2 with
      | .err e => (started.1, .err e)
      | .panicked => (started.1, .panicked)
      | .ok service =>
        let manager := started.1.store name networkConfig service
        let execution := executionInfo name config service
        -- the name is looked at only here
        match ServiceEntry.new name "1.0.0" execution .local env.now with
        | .error e => (manager, .err (.ofRegistry e))
        | .ok entry =>
          let registered := manager.registry.register env.faults entry env.later
          ({ manager with registry := registered.1 }, .ok service)

/-- `stop_service`. The service is taken out before its executor stops it. -/
def stopService (manager : ServiceManager σ) (env : Environment) (name : String) :
    ServiceManager σ × Except Error Unit :=
  let service := manager.activeServices.lookup name
  let manager := manager.deactivate name
  match service with
  | none => (manager, .error (.serviceNotFound name))
  | some service =>
    match findExecutor service.config with
    | .error e => (manager, .error e)
    | .ok executor =>
      let stopped := manager.halt env.toOutside service executor
      match stopped.2 with
      | .error e => (stopped.1, .error e)
      | .ok () =>
        let manager := stopped.1
        let updated := manager.registry.updateState env.faults name .stopped env.now env.later
        ({ manager with
            healthMonitors := manager.healthMonitors.erase name
            registry := updated.1 }, .ok ())

/-- The second half of `get_service_status`, for a service that is active or unknown to
the registry. -/
def activeStatus (manager : ServiceManager σ) (name : String) : ServiceStatus :=
  match manager.activeServices.lookup name with
  | none => .stopped
  | some _ =>
    match manager.healthMonitors.lookup name with
    | some monitor =>
      match monitor.lastStatus with
      | .healthy => .running
      | .unhealthy _ => .unhealthy
      | .unknown => .running
    | none => .running

/-- `get_service_status`, which returns no error. -/
def getServiceStatus (manager : ServiceManager σ) (faults : Faults) (name : String) :
    ServiceStatus :=
  match manager.registry.get faults name with
  | .ok entry =>
    if name ∈ manager.activeServices then manager.activeStatus name
    else
      -- started by an earlier manager: the registry is trusted
      match entry.state with
      | .running => .running
      | .stopped => .stopped
      | .failed => .failed "Service failed"
      | _ => .stopped
  | .error _ => manager.activeStatus name

end Calls

/-- One service in the loop of `run_health_checks`. `run` is asked for each of them. -/
def checkService (run : String → Commands)
    (checked : HashMap String HealthMonitor × HashMap String HealthStatus) (name : String) :
    HashMap String HealthMonitor × HashMap String HealthStatus :=
  match checked.1.lookup name with
  | some monitor =>
    let recorded := monitor.record (checkHealth (run name) monitor.config)
    (checked.1.insert name recorded.1, checked.2.insert name recorded.2)
  | none => (checked.1, checked.2.insert name .unknown)

/-- `run_health_checks`. -/
def runHealthChecks (manager : ServiceManager σ) (run : String → Commands) :
    ServiceManager σ × HashMap String HealthStatus :=
  let servicesToCheck := manager.healthMonitors.keys
  let checked := servicesToCheck.foldl (checkService run) (manager.healthMonitors, ∅)
  ({ manager with healthMonitors := checked.1 }, checked.2)

/-- What the manager is asked for. -/
inductive Request where
  | start (env : Environment) (name : String) (config : ServiceConfig)
  | stop (env : Environment) (name : String)
  | runHealthChecks (run : String → Commands)
  | recreate

/-- The answers to the requests. -/
inductive Reply where
  | started (result : Result RunningService)
  | stopped (result : Except Error Unit)
  | checked (results : HashMap String HealthStatus)
  | recreated

/-- The answer is no error. -/
def Reply.isOk : Reply → Bool
  | .started (.ok _) => true
  | .started _ => false
  | .stopped (.ok _) => true
  | .stopped _ => false
  | .checked _ => true
  | .recreated => true

/-- One request to the manager. -/
def perform [RegistryBackend σ] (manager : ServiceManager σ) :
    Request → ServiceManager σ × Reply
  | .start env name config =>
    let started := manager.startService env name config
    (started.1, .started started.2)
  | .stop env name =>
    let stopped := manager.stopService env name
    (stopped.1, .stopped stopped.2)
  | .runHealthChecks run =>
    let checked := manager.runHealthChecks run
    (checked.1, .checked checked.2)
  | .recreate => (manager.recreate, .recreated)

/-! ## What the calls change -/

/-- The three stores of the manager. -/
def SameStores (m m' : ServiceManager σ) : Prop :=
  m'.registry = m.registry ∧ m'.activeServices = m.activeServices ∧
    m'.healthMonitors = m.healthMonitors

/-- A launch leaves the maps and the registry as they are. -/
theorem launch_sameStores (manager : ServiceManager σ) (outside : Outside)
    (config : ServiceConfig) (executor : ExecutorKind) :
    SameStores manager (manager.launch outside config executor).1 := by
  cases executor with
  | process => exact ⟨rfl, rfl, rfl⟩
  | docker => exact ⟨rfl, rfl, rfl⟩

/-- So does a halt. -/
theorem halt_sameStores (manager : ServiceManager σ) (outside : Outside)
    (service : RunningService) (executor : ExecutorKind) :
    SameStores manager (manager.halt outside service executor).1 := by
  cases executor with
  | process => exact ⟨rfl, rfl, rfl⟩
  | docker => exact ⟨rfl, rfl, rfl⟩

/-- What is launched is of the configuration. -/
theorem launch_config {config : ServiceConfig} {executor : ExecutorKind}
    (hexecutor : findExecutor config = .ok executor) {manager : ServiceManager σ}
    {outside : Outside} {service : RunningService}
    (h : (manager.launch outside config executor).2 = .ok service) : service.config = config := by
  rcases findExecutor_ok hexecutor with ⟨_, _, _, _, rfl, htarget⟩ | ⟨_, _, _, _, rfl, htarget⟩
  · rcases ProcessExecutor.start_cases htarget manager.runningProcesses outside manager.issued with
      ⟨_, _, hstart⟩ | ⟨_, _, hstart⟩
    · rw [launch, hstart] at h
      cases h
    · rw [launch, hstart] at h
      obtain rfl := Result.ok.inj h
      rfl
  · exact (DockerExecutor.start_service h).1

/-- The executor has started the service, which leaves the manager as `after`. -/
def Launched (manager : ServiceManager σ) (outside : Outside) (config : ServiceConfig)
    (after : ServiceManager σ) (service : RunningService) : Prop :=
  ∃ executor, findExecutor config = .ok executor ∧
    manager.launch outside config executor = (after, .ok service)

/-- So is what was launched. -/
theorem Launched.config {manager after : ServiceManager σ} {outside : Outside}
    {config : ServiceConfig} {service : RunningService}
    (h : Launched manager outside config after service) : service.config = config := by
  obtain ⟨executor, hexecutor, hlaunch⟩ := h
  exact launch_config hexecutor (by rw [hlaunch])

/-- And it leaves the maps and the registry as they are. -/
theorem Launched.sameStores {manager after : ServiceManager σ} {outside : Outside}
    {config : ServiceConfig} {service : RunningService}
    (h : Launched manager outside config after service) : SameStores manager after := by
  obtain ⟨executor, _, hlaunch⟩ := h
  have hsame := launch_sameStores manager outside config executor
  rw [hlaunch] at hsame
  exact hsame

/-- The executor of the service can stop it. -/
def Halts (manager : ServiceManager σ) (outside : Outside) (service : RunningService) : Prop :=
  ∃ executor, findExecutor service.config = .ok executor ∧
    (manager.halt outside service executor).2 = .ok ()

section Calls

variable [RegistryBackend σ]

/-- A name that is active is refused. -/
theorem startService_active {manager : ServiceManager σ} {name : String}
    (h : name ∈ manager.activeServices) (env : Environment) (config : ServiceConfig) :
    manager.startService env name config = (manager, .err (.serviceExists name)) := if_pos h

/-- A configuration without an executor is refused. -/
theorem startService_noExecutor {manager : ServiceManager σ} {env : Environment}
    {name : String} {config : ServiceConfig} (hfree : name ∉ manager.activeServices) {e : Error}
    (h : findExecutor config = .error e) :
    manager.startService env name config = (manager, .err e) := by
  unfold startService
  rw [if_neg hfree]
  dsimp only [injectNetworkConfig]
  rw [h]

section Start

variable {manager : ServiceManager σ} {env : Environment} {name : String}
  {config : ServiceConfig} {executor : ExecutorKind}
  (hfree : name ∉ manager.activeServices) (hexecutor : findExecutor config = .ok executor)
include hfree hexecutor

/-- A launch that fails. -/
theorem startService_err {e : Error}
    (h : (manager.launch env.toOutside config executor).2 = .err e) :
    manager.startService env name config =
      ((manager.launch env.toOutside config executor).1, .err e) := by
  unfold startService
  rw [if_neg hfree]
  dsimp only [injectNetworkConfig]
  rw [hexecutor]
  dsimp only
  rw [h]

/-- A launch that panics. -/
theorem startService_panicked
    (h : (manager.launch env.toOutside config executor).2 = .panicked) :
    manager.startService env name config =
      ((manager.launch env.toOutside config executor).1, .panicked) := by
  unfold startService
  rw [if_neg hfree]
  dsimp only [injectNetworkConfig]
  rw [hexecutor]
  dsimp only
  rw [h]

/-- Under a blank name the service is stored and no entry is made. -/
theorem startService_blank {service : RunningService}
    (h : (manager.launch env.toOutside config executor).2 = .ok service)
    (hname : isBlank name = true) :
    manager.startService env name config =
      ((manager.launch env.toOutside config executor).1.store name config service,
        .err (.registry "Service name cannot be empty")) := by
  unfold startService
  rw [if_neg hfree]
  dsimp only [injectNetworkConfig]
  rw [hexecutor]
  dsimp only
  rw [h]
  dsimp only
  rw [ServiceEntry.new_blank hname]
  rfl

/-- A launch that succeeds: the service is registered, entered and watched. -/
theorem startService_ok {service : RunningService}
    (h : (manager.launch env.toOutside config executor).2 = .ok service)
    (hname : isBlank name = false) :
    ∃ entry : ServiceEntry, entry.name = name ∧
      entry.execution = executionInfo name config service ∧ entry.state = .registered ∧
      manager.startService env name config =
        ({ (manager.launch env.toOutside config executor).1.store name config service with
            registry := (manager.registry.register env.faults entry env.later).1 },
          .ok service) := by
  obtain ⟨entry, hentry, hentryName, hexecution, hstate⟩ := ServiceEntry.new_ok hname
    (show isBlank "1.0.0" = false from rfl) (executionInfo name config service) .local env.now
  refine ⟨entry, hentryName, hexecution, hstate, ?_⟩
  unfold startService
  rw [if_neg hfree]
  dsimp only [injectNetworkConfig]
  rw [hexecutor]
  dsimp only
  rw [h]
  dsimp only
  rw [hentry, ← (launch_sameStores manager env.toOutside config executor).1]
  rfl

end Start

/-- A start ends before anything is stored, or it stores the service; it then fails where
the name is blank, and registers the service where it is not. -/
theorem startService_cases (manager : ServiceManager σ) (env : Environment) (name : String)
    (config : ServiceConfig) :
    (SameStores manager (manager.startService env name config).1 ∧
      ∀ service, (manager.startService env name config).2 ≠ .ok service) ∨
    ∃ after service, name ∉ manager.activeServices ∧
      Launched manager env.toOutside config after service ∧
      (isBlank name = true ∧ manager.startService env name config =
          (after.store name config service,
            .err (.registry "Service name cannot be empty")) ∨
        isBlank name = false ∧ ∃ entry : ServiceEntry, entry.name = name ∧
          entry.execution = executionInfo name config service ∧ entry.state = .registered ∧
          manager.startService env name config =
            ({ after.store name config service with
                registry := (manager.registry.register env.faults entry env.later).1 },
              .ok service)) := by
  by_cases hfree : name ∈ manager.activeServices
  · left
    rw [startService_active hfree]
    exact ⟨⟨rfl, rfl, rfl⟩, by simp⟩
  · cases hexecutor : findExecutor config with
    | error e =>
      left
      rw [startService_noExecutor hfree hexecutor]
      exact ⟨⟨rfl, rfl, rfl⟩, by simp⟩
    | ok executor =>
      have hsame := launch_sameStores manager env.toOutside config executor
      cases hlaunch : (manager.launch env.toOutside config executor).2 with
      | err e =>
        left
        rw [startService_err hfree hexecutor hlaunch]
        exact ⟨hsame, by simp⟩
      | panicked =>
        left
        rw [startService_panicked hfree hexecutor hlaunch]
        exact ⟨hsame, by simp⟩
      | ok service =>
        refine .inr ⟨_, service, hfree, ⟨executor, hexecutor, Prod.ext rfl hlaunch⟩, ?_⟩
        cases hname : isBlank name with
        | true => exact .inl ⟨rfl, startService_blank hfree hexecutor hlaunch hname⟩
        | false => exact .inr ⟨rfl, startService_ok hfree hexecutor hlaunch hname⟩

/-- A name that is not active is refused, its monitor removed all the same. -/
theorem stopService_absent {manager : ServiceManager σ} {name : String}
    (h : manager.activeServices.lookup name = none) (env : Environment) :
    manager.stopService env name = (manager.deactivate name, .error (.serviceNotFound name)) := by
  unfold stopService
  dsimp only
  rw [h]

/-- The service is taken out of the active ones first. Its monitor is removed and the
registry is told only where the executor has stopped it. -/
theorem stopService_active {manager : ServiceManager σ} {name : String}
    {service : RunningService} (h : manager.activeServices.lookup name = some service)
    (env : Environment) :
    (¬ manager.Halts env.toOutside service ∧
      SameStores (manager.deactivate name) (manager.stopService env name).1 ∧
      ∃ e, (manager.stopService env name).2 = .error e) ∨
    (manager.Halts env.toOutside service ∧ (manager.stopService env name).2 = .ok () ∧
      (manager.stopService env name).1.activeServices = manager.activeServices.erase name ∧
      (manager.stopService env name).1.healthMonitors = manager.healthMonitors.erase name ∧
      (manager.stopService env name).1.registry =
        (manager.registry.updateState env.faults name .stopped env.now env.later).1) := by
  -- the executors do not look at the active services
  have hhalt : ∀ executor, ((manager.deactivate name).halt env.toOutside service executor).2 =
      (manager.halt env.toOutside service executor).2 := by
    intro executor
    cases executor with
    | process => rfl
    | docker => rfl
  unfold stopService
  dsimp only
  rw [h]
  dsimp only
  split
  next e hexecutor =>
    left
    refine ⟨?_, ⟨rfl, rfl, rfl⟩, e, rfl⟩
    rintro ⟨executor, hok, _⟩
    rw [hexecutor] at hok
    cases hok
  next executor hexecutor =>
    have hsame := halt_sameStores (manager.deactivate name) env.toOutside service executor
    split
    next e herror =>
      left
      refine ⟨?_, hsame, e, rfl⟩
      rintro ⟨executor', hok, hstopped⟩
      obtain rfl : executor = executor' := Except.ok.inj (hexecutor.symm.trans hok)
      rw [hhalt executor, hstopped] at herror
      cases herror
    next hok =>
      right
      obtain ⟨hregistry, hactive, hmonitors⟩ := hsame
      refine ⟨⟨executor, hexecutor, (hhalt executor).symm.trans hok⟩, rfl, hactive, ?_, ?_⟩
      · rw [hmonitors]
        rfl
      · rw [hregistry]
        rfl

end Calls

/-- What a health check makes of a monitor, and what is reported of it. -/
def checked (run : String → Commands) (name : String) (monitor : HealthMonitor) :
    HealthMonitor × HealthStatus :=
  monitor.record (checkHealth (run name) monitor.config)

/-- Each monitor is checked once, on its own. -/
theorem lookup_foldl_checkService (run : String → Commands) : ∀ (names : List String)
    (results : HashMap String HealthStatus) {monitors : HashMap String HealthMonitor},
    names.Nodup → (∀ name ∈ names, name ∈ monitors) → ∀ name,
      (names.foldl (checkService run) (monitors, results)).1.lookup name =
          (if name ∈ names then (monitors.lookup name).map fun m => (checked run name m).1
            else monitors.lookup name) ∧
        (names.foldl (checkService run) (monitors, results)).2.lookup name =
          (if name ∈ names then (monitors.lookup name).map fun m => (checked run name m).2
            else results.lookup name) := by
  intro names
  induction names with
  | nil =>
    intro results monitors _ _ name
    exact ⟨rfl, rfl⟩
  | cons first names ih =>
    intro results monitors hnodup hmem name
    obtain ⟨hfirst, hnodup⟩ := List.nodup_cons.mp hnodup
    obtain ⟨monitor, hmonitor⟩ : ∃ monitor, monitors.lookup first = some monitor :=
      Option.isSome_iff_exists.mp (AList.lookup_isSome.mpr (hmem first (List.mem_cons_self ..)))
    have hstep : checkService run (monitors, results) first =
        (monitors.insert first (checked run first monitor).1,
          results.insert first (checked run first monitor).2) := by
      unfold checkService
      rw [hmonitor]
      rfl
    have hmem' : ∀ name ∈ names, name ∈ monitors.insert first (checked run first monitor).1 := by
      intro name hname
      exact AList.mem_insert _ |>.mpr (.inr (hmem name (List.mem_cons_of_mem _ hname)))
    rw [List.foldl_cons, hstep]
    obtain ⟨hmonitors, hresults⟩ := ih (results.insert first (checked run first monitor).2)
      hnodup hmem' name
    rw [hmonitors, hresults]
    by_cases hname : name = first
    · subst hname
      simp [hfirst, hmonitor]
    · simp [hname, AList.lookup_insert_ne hname]

/-- Every monitor is checked once, and nothing else is reported. -/
theorem runHealthChecks_lookup (manager : ServiceManager σ) (run : String → Commands)
    (name : String) :
    (manager.runHealthChecks run).1.healthMonitors.lookup name =
        (manager.healthMonitors.lookup name).map (fun m => (checked run name m).1) ∧
      (manager.runHealthChecks run).2.lookup name =
        (manager.healthMonitors.lookup name).map (fun m => (checked run name m).2) := by
  have hloop := lookup_foldl_checkService run manager.healthMonitors.keys ∅
    manager.healthMonitors.keys_nodup (fun _ h => h) name
  by_cases hname : name ∈ manager.healthMonitors.keys
  · rw [if_pos hname, if_pos hname] at hloop
    exact hloop
  · rw [if_neg hname, if_neg hname] at hloop
    have hnone : manager.healthMonitors.lookup name = none := AList.lookup_eq_none.mpr hname
    rw [hnone] at hloop ⊢
    exact hloop

end ServiceManager

/-! ## A web server -/

/-- A web server as a process. -/
def webProcess (healthCheck : Option HealthCheck) : ServiceConfig where
  name := "web"
  target := .process "httpd" ["-f"] ∅ none
  dependencies := []
  healthCheck := healthCheck

/-- A web server in a container. -/
def webContainer (healthCheck : Option HealthCheck) : ServiceConfig where
  name := "web"
  target := .docker "httpd" ∅ [80] []
  dependencies := []
  healthCheck := healthCheck

/-- Everything succeeds, and every command shows the identifier of a container. -/
def obliging : Environment where
  launch _ := .ok ⟨some 7⟩
  run _ := .ok ⟨⟨some 0, none⟩, "0123456789ab\n"⟩
  terminate := .ok ()
  kill := .ok ()
  faults := Faults.none
  now := 0
  later := 0

/-- No command can be run. -/
def unable : Environment :=
  { obliging with
    launch := fun _ => .error "No such file or directory"
    run := fun _ => .error "No such file or directory" }

end GraphHarness.Orchestration
