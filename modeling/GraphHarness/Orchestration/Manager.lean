import GraphHarness.Orchestration.Config
import GraphHarness.Trace.Steps

/-!
# Concurrent starts (`service-orchestration/src/manager.rs`, `executors/process.rs`)

The daemon answers every connection in a task of its own, all of them on one
`ServiceManager`. Here any number of `start_service` calls run at once: a call is
taken apart at its locks and its awaits, and a step of the system lets one call go
on to the next of them. What the step is told from outside (a process that was
launched, a container that was started) comes with the event.

`Uuid::new_v4` is a counter: no identifier is given twice. The registry is left out,
since its answer is only logged, and so is everything but `start_service`.

The phases are the places at which another call can come in: behind the check, the launch, the
entry of the handle, and the two entries of the manager. The maps behind different locks are
different fields, and each step touches one of them. A container's start is one step, since
docker is not part of the state.

`isBlankName` is the check of the registry's entry, which comes behind the entry into the
active services; a start under a blank name fails there and its service stays.
-/

namespace GraphHarness.Orchestration

/-- `NetworkInfo`. -/
structure NetworkInfo where
  ip : String
  port : Option UInt16
  ports : List UInt16
  hostname : String
  deriving DecidableEq, Repr

/-- `RunningService`. Its id is drawn once, here from a counter. -/
structure RunningService where
  id : Nat
  name : String
  config : ServiceConfig
  pid : Option UInt32
  containerId : Option String
  endpoints : HashMap String String
  metadata : HashMap String String
  networkInfo : Option NetworkInfo

/-- `RunningService::new`. -/
def RunningService.new (id : Nat) (name : String) (config : ServiceConfig) : RunningService where
  id := id
  name := name
  config := config
  pid := none
  containerId := none
  endpoints := ∅
  metadata := ∅
  networkInfo := none

/-- `with_pid`. -/
def RunningService.withPid (service : RunningService) (pid : UInt32) : RunningService :=
  { service with pid := some pid }

/-- `with_container_id`. -/
def RunningService.withContainerId (service : RunningService) (containerId : String) :
    RunningService :=
  { service with containerId := some containerId }

/-- `with_metadata`. -/
def RunningService.withMetadata (service : RunningService) (key value : String) : RunningService :=
  { service with metadata := service.metadata.insert key value }

/-- `with_network_info`. -/
def RunningService.withNetworkInfo (service : RunningService) (networkInfo : NetworkInfo) :
    RunningService :=
  { service with networkInfo := some networkInfo }

/-- The errors a start or a stop can end with. `noExecutor` is `Error::Config`; its text
shows the target. -/
inductive Error where
  | serviceNotFound (name : String)
  | serviceExists (name : String)
  | noExecutor (target : ServiceTarget)
  | config (message : String)
  | commandExecutor (message : String)
  | registry (message : String)

/-- The handle of a process, as far as it is used here. -/
structure ProcessInfo where
  pid : Option UInt32
  deriving DecidableEq, Repr

/-- What the calls share: the manager's maps, the process executor's, and how many
identifiers have been given. -/
structure Manager where
  activeServices : HashMap String RunningService
  healthMonitors : HashMap String HealthCheck
  runningProcesses : HashMap Nat ProcessInfo
  issued : Nat

/-- A new manager. -/
def Manager.new : Manager where
  activeServices := ∅
  healthMonitors := ∅
  runningProcesses := ∅
  issued := 0

/-- The executors that are registered. -/
inductive ExecutorKind where
  | process
  | docker
  deriving DecidableEq, Repr

/-- `can_handle`. -/
def ExecutorKind.canHandle (kind : ExecutorKind) (config : ServiceConfig) : Bool :=
  match kind, config.target with
  | .process, .process .. => true
  | .docker, .docker .. => true
  | _, _ => false

/-- At most one of the two can handle a target, so that their order does not matter. -/
def findExecutor (config : ServiceConfig) : Except Error ExecutorKind :=
  match [ExecutorKind.process, ExecutorKind.docker].find? (fun kind => kind.canHandle config) with
  | some kind => .ok kind
  | none => .error (.noExecutor config.target)

/-- The executor that is found is one for the target. -/
theorem findExecutor_ok {config : ServiceConfig} {kind : ExecutorKind}
    (h : findExecutor config = .ok kind) :
    (∃ binary args env workingDir, kind = .process ∧
      config.target = .process binary args env workingDir) ∨
    ∃ image env ports volumes, kind = .docker ∧
      config.target = .docker image env ports volumes := by
  unfold findExecutor at h
  cases htarget : config.target with
  | process binary args env workingDir =>
    obtain rfl : ExecutorKind.process = kind := by
      simpa [List.find?, ExecutorKind.canHandle, htarget] using h
    exact .inl ⟨binary, args, env, workingDir, rfl, rfl⟩
  | docker image env ports volumes =>
    obtain rfl : ExecutorKind.docker = kind := by
      simpa [List.find?, ExecutorKind.canHandle, htarget] using h
    exact .inr ⟨image, env, ports, volumes, rfl, rfl⟩
  | dockerAttach => simp [List.find?, ExecutorKind.canHandle, htarget] at h
  | processAttach => simp [List.find?, ExecutorKind.canHandle, htarget] at h
  | remote => simp [List.find?, ExecutorKind.canHandle, htarget] at h
  | remoteLan => simp [List.find?, ExecutorKind.canHandle, htarget] at h
  | wireguard => simp [List.find?, ExecutorKind.canHandle, htarget] at h

/-- A process has its executor. -/
theorem findExecutor_process {config : ServiceConfig} {binary : String} {args : List String}
    {env : HashMap String String} {workingDir : Option String}
    (h : config.target = .process binary args env workingDir) :
    findExecutor config = .ok .process := by
  simp [findExecutor, List.find?, ExecutorKind.canHandle, h]

/-- A container has its executor. -/
theorem findExecutor_docker {config : ServiceConfig} {image : String}
    {env : HashMap String String} {ports : List UInt16} {volumes : List String}
    (h : config.target = .docker image env ports volumes) :
    findExecutor config = .ok .docker := by
  simp [findExecutor, List.find?, ExecutorKind.canHandle, h]

/-- Where a call is: what it does next. -/
inductive Phase where
  | check
  | inject
  | launch
  | track (service : RunningService) (info : ProcessInfo)
  | startContainer
  | monitor (service : RunningService)
  | store (service : RunningService)
  | register (service : RunningService)
  | done (result : Except Error RunningService)

/-- A call of `start_service`. -/
structure Call where
  name : String
  config : ServiceConfig
  phase : Phase

/-- What a step learns from outside. -/
inductive Answer where
  | nothing
  | launched (result : Except String (Option UInt32))
  | container (result : Except Error RunningService)

/-- `name.trim().is_empty()`, the one check of `ServiceEntry::new` that can fail. -/
def isBlankName (name : String) : Bool := name.toList.all isWhitespace

/-- One step of a call. -/
def advance (manager : Manager) (call : Call) (answer : Answer) : Option (Manager × Phase) :=
  match call.phase, answer with
  | .check, .nothing =>
    -- the read lock is released when the name is found free
    if call.name ∈ manager.activeServices then
      some (manager, .done (.error (.serviceExists call.name)))
    else some (manager, .inject)
  | .inject, .nothing =>
    match findExecutor call.config with
    | .ok .process => some (manager, .launch)
    | .ok .docker => some (manager, .startContainer)
    | .error e => some (manager, .done (.error e))
  | .launch, .launched (.ok pid) =>
    let service := ((RunningService.new manager.issued call.config.name call.config).withPid
      (pid.getD 0)).withMetadata "executor_type" "process"
    some ({ manager with issued := manager.issued + 1 }, .track service ⟨pid⟩)
  | .launch, .launched (.error message) =>
    some (manager, .done (.error (.commandExecutor message)))
  | .track service info, .nothing =>
    some ({ manager with runningProcesses := manager.runningProcesses.insert service.id info },
      .monitor service)
  | .startContainer, .container (.ok service) =>
    some ({ manager with issued := manager.issued + 1 },
      .monitor { service with id := manager.issued })
  | .startContainer, .container (.error e) => some (manager, .done (.error e))
  | .monitor service, .nothing =>
    match call.config.healthCheck with
    | some healthCheck =>
      some ({ manager with
        healthMonitors := manager.healthMonitors.insert call.name healthCheck }, .store service)
    | none => some (manager, .store service)
  | .store service, .nothing =>
    -- an entry under the name is replaced
    let manager := { manager with
      activeServices := manager.activeServices.insert call.name service }
    if isBlankName call.name then
      some (manager, .done (.error (.registry "Service name cannot be empty")))
    else some (manager, .register service)
  | .register service, .nothing => some (manager, .done (.ok service))
  | _, _ => none

/-- The manager and all calls there have been. -/
structure State where
  manager : Manager
  calls : List Call

/-- No calls, and a new manager. -/
def State.new : State := ⟨Manager.new, []⟩

/-- What happens: a call is made, or takes a step on an answer. -/
inductive Event where
  | request (name : String) (config : ServiceConfig)
  | advance (i : Nat) (answer : Answer)

/-- One event. -/
def step (s : State) : Event → Option State
  | .request name config => some { s with calls := s.calls ++ [⟨name, config, .check⟩] }
  | .advance i answer =>
    match s.calls[i]? with
    | some call =>
      match advance s.manager call answer with
      | some (manager, phase) => some ⟨manager, s.calls.set i { call with phase := phase }⟩
      | none => none
    | none => none

end GraphHarness.Orchestration
