import GraphHarness.Harness.Protocol
import GraphHarness.Orchestration.Status

/-!
# The daemon's handlers (`daemon/handlers.rs`)

What the daemon answers to a request, and what it makes of the service manager. The
handlers take one request at a time here; a handler that panics gives no answer, and takes
its connection with it.

> `handleRequest_serviceList`: the services that are listed are the active ones, each
> running or unhealthy.

`Surroundings` is what a handler finds outside of the manager: the hash order, the answers of
the commands and of the storage, the environment of the daemon. It is arbitrary at every
request, so the theorems hold whatever happens outside, and whether one request sees the same
world as the next.

Errors are rendered by `Rendering`: how a target is printed by `{:?}`, and how the message of
an error inside is, are not modelled. `handleRequest_invariant` is the rule by which a
property of the manager goes through every kind of request.
-/

namespace GraphHarness

namespace Orchestration

/-- `Display` of an error. A registry error comes from the making of an entry, and that one
is a package error. `debugTarget` is `Debug` of a target. -/
def Error.toText (debugTarget : ServiceTarget → String) : Error → String
  | .serviceNotFound name => s!"Service not found: {name}"
  | .serviceExists name => s!"Service already exists: {name}"
  | .noExecutor target =>
    let target := debugTarget target
    s!"Configuration error: No executor found for service target: {target}"
  | .config message => s!"Configuration error: {message}"
  | .commandExecutor message => s!"Command execution error: {message}"
  | .registry message => s!"Service registry error: Package error: {message}"

namespace ServiceManager

variable {σ : Type}

/-- `list_services`, in the order of the map. -/
def listServices (manager : ServiceManager σ) (ord : HashOrder) : List String :=
  ord.iter .services manager.activeServices.keys

/-- `get_service_info`. -/
def getServiceInfo (manager : ServiceManager σ) (name : String) : Option RunningService :=
  manager.activeServices.lookup name

end ServiceManager

end Orchestration

namespace Handlers

open Orchestration (Commands Environment HealthStatus NetworkInfo RunningService ServiceManager
  ServiceStatus ServiceTarget)
open Protocol (DetailedServiceInfo Request Response ServiceNetworkInfo)
open ServiceRegistry (Faults RegistryBackend)

/-- `Debug` of a target and of a string. -/
structure Rendering where
  target : ServiceTarget → String
  message : String → String

/-- What the handling of a request learns from outside: also the order of the active
services, which storage calls fail when the status of a service is asked for, what the
health check of a service runs, and the environment of the daemon. -/
structure Surroundings extends Environment where
  ord : HashOrder
  statusFaults : String → Faults
  check : String → Commands
  vars : HashMap String String

/-- The network information as the protocol has it. -/
def networkInfo (info : NetworkInfo) : ServiceNetworkInfo where
  ip := info.ip
  port := info.port
  hostname := info.hostname
  ports := info.ports

/-- What the client is told of the network of a service that was started. -/
def startedNetworkInfo (name : String) (service : RunningService) : ServiceNetworkInfo :=
  match service.networkInfo with
  | some info => networkInfo info
  | none =>
    { ip := "127.0.0.1"
      port := none
      hostname := s!"{name}.local"
      ports := [] }

/-- How a dependency is shown; a task is marked as one. -/
def dependencyName : Orchestration.Dependency → String
  | .service service => service
  | .task task => s!"task:{task}"

/-- The details of a service; one that is not active has only its name and status. -/
def detailedInfo (name : String) (status : ServiceStatus) :
    Option RunningService → DetailedServiceInfo
  | some running =>
    { name := name
      status := status
      networkInfo := running.networkInfo.map networkInfo
      endpoints := running.endpoints
      pid := running.pid
      containerId := running.containerId
      startTime := running.metadata.lookup "start_time"
      dependencies := running.config.dependencies.map dependencyName }
  | none =>
    { name := name
      status := status
      networkInfo := none
      endpoints := ∅
      pid := none
      containerId := none
      startTime := none
      dependencies := [] }

/-- `Debug` of a status. -/
def debugStatus (rendering : Rendering) : HealthStatus → String
  | .healthy => "Healthy"
  | .unhealthy message =>
    let message := rendering.message message
    s!"Unhealthy({message})"
  | .unknown => "Unknown"

section Handle

variable {σ : Type} [RegistryBackend σ] (rendering : Rendering)

/-- `get_service_status`, under what the world outside does. -/
def status (outside : Surroundings) (manager : ServiceManager σ) (name : String) : ServiceStatus :=
  manager.getServiceStatus (outside.statusFaults name) name

/-- The answer to `StartService`, unless the start panics. -/
def startAnswer (name : String) : Orchestration.Result RunningService → Option Response
  | .ok service => some (.serviceStarted name (startedNetworkInfo name service))
  | .err e =>
    let e := e.toText rendering.target
    some (.error s!"Failed to start service: {e}")
  | .panicked => none

/-- The answer to a stop. -/
def stopAnswer : Except Orchestration.Error Unit → Response
  | .ok () => .success
  | .error e =>
    let e := e.toText rendering.target
    .error s!"Failed to stop service: {e}"

/-- `handle_request`. The calls of the manager that only read return no error. -/
def handleRequest (outside : Surroundings) (manager : ServiceManager σ) :
    Request → ServiceManager σ × Option Response
  | .startService name config =>
    let started := manager.startService outside.toEnvironment name config
    (started.1, startAnswer rendering name started.2)
  | .stopService name =>
    let stopped := manager.stopService outside.toEnvironment name
    (stopped.1, some (stopAnswer rendering stopped.2))
  | .getServiceStatus name => (manager, some (.serviceStatus (status outside manager name)))
  | .listServices =>
    let services := manager.listServices outside.ord
    (manager, some (.serviceList
      (HashMap.collect (services.map fun name => (name, status outside manager name)))))
  | .listServicesDetailed =>
    let services := manager.listServices outside.ord
    (manager, some (.serviceListDetailed (services.map fun name =>
      detailedInfo name (status outside manager name) (manager.getServiceInfo name))))
  | .runHealthChecks =>
    let checked := manager.runHealthChecks outside.check
    (checked.1, some (.healthCheckResults (HashMap.collect
      (checked.2.entries.map fun entry => (entry.1, debugStatus rendering entry.2)))))
  -- the daemon goes on
  | .shutdown => (manager, some .success)
  | .getEnvironmentVariables names =>
    (manager, some (.environmentVariables
      (if names = [] then outside.vars
      else HashMap.collect (names.filterMap fun name =>
        (outside.vars.lookup name).map fun value => (name, value)))))

/-- The daemon, from one request to the next. -/
def serve (manager : ServiceManager σ) (turn : Surroundings × Request) :
    ServiceManager σ × Option Response := handleRequest rendering turn.1 manager turn.2

/-! ## What a request does to the active services -/

variable {rendering : Rendering} {outside : Surroundings} {manager : ServiceManager σ}

/-- A start is refused or fails, or its service is one of the active ones. Under a blank
name it is then reported as an error. -/
theorem handleRequest_start (rendering : Rendering) (outside : Surroundings)
    (manager : ServiceManager σ) (name : String) (config : Orchestration.ServiceConfig) :
    let handled := handleRequest rendering outside manager (.startService name config)
    (handled.1.activeServices = manager.activeServices ∧
      (handled.2 = none ∨ ∃ message, handled.2 = some (.error message))) ∨
    ∃ service, name ∉ manager.activeServices ∧ service.config = config ∧
      handled.1.activeServices = manager.activeServices.insert name service ∧
      (isBlank name = true ∧ (∃ message, handled.2 = some (.error message)) ∨
        isBlank name = false ∧
          handled.2 = some (.serviceStarted name (startedNetworkInfo name service))) := by
  dsimp only [handleRequest]
  rcases manager.startService_cases outside.toEnvironment name config with
    ⟨⟨_, hactive, _⟩, hfails⟩ | ⟨after, service, hfree, hlaunched, hcases⟩
  · refine .inl ⟨hactive, ?_⟩
    cases hresult : (manager.startService outside.toEnvironment name config).2 with
    | ok service => exact absurd hresult (hfails service)
    | err e => exact .inr ⟨_, rfl⟩
    | panicked => exact .inl rfl
  · obtain ⟨_, hactive, _⟩ := hlaunched.sameStores
    refine .inr ⟨service, hfree, hlaunched.config, ?_⟩
    rcases hcases with ⟨hblank, hstart⟩ | ⟨hblank, _, _, _, _, hstart⟩
    · rw [hstart, ← hactive]
      exact ⟨rfl, .inl ⟨hblank, _, rfl⟩⟩
    · rw [hstart, ← hactive]
      exact ⟨rfl, .inr ⟨hblank, rfl⟩⟩

/-- Whatever a stop is answered, the service is not active any more. -/
theorem handleRequest_stop (rendering : Rendering) (outside : Surroundings)
    (manager : ServiceManager σ) (name : String) :
    let handled := handleRequest rendering outside manager (.stopService name)
    handled.1.activeServices = manager.activeServices.erase name ∧
      (handled.2 = some .success ∧ name ∈ manager.activeServices ∨
        ∃ message, handled.2 = some (.error message)) := by
  dsimp only [handleRequest]
  cases hlookup : manager.activeServices.lookup name with
  | none =>
    rw [Orchestration.ServiceManager.stopService_absent hlookup]
    exact ⟨rfl, .inr ⟨_, rfl⟩⟩
  | some service =>
    have hmem : name ∈ manager.activeServices := AList.lookup_isSome.mp (by simp [hlookup])
    rcases Orchestration.ServiceManager.stopService_active hlookup outside.toEnvironment with
      ⟨_, ⟨_, hactive, _⟩, e, herror⟩ | ⟨_, hok, hactive, _⟩
    · rw [herror]
      exact ⟨hactive, .inr ⟨_, rfl⟩⟩
    · rw [hok]
      exact ⟨hactive, .inl ⟨rfl, hmem⟩⟩

/-- The registry is not needed for a service that is active. -/
theorem status_eq {outside : Surroundings} {name : String} (h : name ∈ manager.activeServices) :
    status outside manager name = manager.activeStatus name := by
  unfold status Orchestration.ServiceManager.getServiceStatus
  split
  next => rw [if_pos h]
  next => rfl

/-- A service that is active is running, or unhealthy. -/
theorem status_active (outside : Surroundings) {name : String}
    (h : name ∈ manager.activeServices) :
    status outside manager name = .running ∨ status outside manager name = .unhealthy := by
  rw [status_eq h]
  rcases Orchestration.ServiceManager.activeStatus_active h with ⟨hunhealthy, _⟩ | ⟨hrunning, _⟩
  · exact .inr hunhealthy
  · exact .inl hrunning

omit [RegistryBackend σ] in
/-- What is listed is active. -/
theorem mem_listServices {ord : HashOrder} {name : String} :
    name ∈ manager.listServices ord ↔ name ∈ manager.activeServices := HashOrder.mem_iter ..

/-- The active services are listed, and nothing else. -/
theorem handleRequest_serviceList (rendering : Rendering) (outside : Surroundings)
    (manager : ServiceManager σ) :
    ∃ services, handleRequest rendering outside manager .listServices =
        (manager, some (.serviceList services)) ∧
      ∀ name, services.lookup name =
        if name ∈ manager.activeServices then some (status outside manager name) else none := by
  refine ⟨_, rfl, ?_⟩
  intro name
  rw [HashMap.lookup_collect]
  simp only [mem_listServices]

/-- Any invariant of the manager's calls is one of the handlers. -/
theorem handleRequest_invariant {Inv : ServiceManager σ → Prop}
    (hstep : ∀ manager request, Inv manager →
      Inv (Orchestration.ServiceManager.perform manager request).1)
    (rendering : Rendering) (outside : Surroundings) (request : Request) (h : Inv manager) :
    Inv (handleRequest rendering outside manager request).1 := by
  cases request with
  | startService name config => exact hstep manager (.start outside.toEnvironment name config) h
  | stopService name => exact hstep manager (.stop outside.toEnvironment name) h
  | runHealthChecks => exact hstep manager (.runHealthChecks outside.check) h
  | _ => exact h

end Handle

end Handlers

end GraphHarness
