import GraphHarness.Text

/-!
# The registry's types (`service-registry/src/models.rs`, `error.rs`)

An entry as it is stored, and the messages a change of it causes. Of the WebSocket
messages only the event occurs here; what `json!` puts into one is `EventData`.

Times are numbers, as nothing but their order of occurrence is used. The executions and
locations of an entry are those of the source's enums with their fields; the registry looks at
none of them. Addresses are those of the standard library, with the flow label and the scope
of an IPv6 address.
-/

namespace GraphHarness.ServiceRegistry

/-- `DateTime<Utc>`, in nanoseconds. -/
abbrev Timestamp := Int

/-- `SocketAddr` of the standard library. -/
inductive SocketAddr where
  | v4 (ip : UInt32) (port : UInt16)
  | v6 (ip : BitVec 128) (port : UInt16) (flowinfo scopeId : UInt32)
  deriving DecidableEq, Repr

/-- How a service is executed. -/
inductive ExecutionInfo where
  | managedProcess (pid : Option UInt32) (command : String) (args : List String)
  | dockerContainer (containerId : Option String) (image : String) (name : Option String)
  | systemdService (unitName : String)
  | systemdPortable (imageName unitName : String)
  deriving DecidableEq, Repr

/-- Where a service runs. -/
inductive Location where
  | «local»
  | remote (host sshUser : String) (sshPort : Option UInt16)
  deriving DecidableEq, Repr

/-- `Protocol`. -/
inductive Protocol where
  | http
  | https
  | grpc
  | tcp
  | webSocket
  | custom (name : String)
  deriving DecidableEq, Repr

/-- `Endpoint`. -/
structure Endpoint where
  name : String
  address : SocketAddr
  protocol : Protocol
  metadata : HashMap String String
  deriving DecidableEq

/-- `ServiceState`. -/
inductive ServiceState where
  | registered
  | starting
  | running
  | stopping
  | stopped
  | failed
  deriving DecidableEq, Repr

/-- A health check as the registry keeps it. -/
structure HealthStatus where
  healthy : Bool
  message : Option String
  checkedAt : Timestamp
  durationMs : UInt64
  deriving DecidableEq, Repr

/-- `ServiceEntry`. -/
structure ServiceEntry where
  name : String
  version : String
  execution : ExecutionInfo
  location : Location
  endpoints : List Endpoint
  dependsOn : List String
  state : ServiceState
  lastHealthCheck : Option HealthStatus
  registeredAt : Timestamp
  lastStateChange : Timestamp
  deriving DecidableEq

/-- `EventType`. -/
inductive EventType where
  | serviceRegistered
  | serviceUpdated
  | serviceDeregistered
  | serviceStateChanged
  | endpointUpdated
  | deploymentProgress
  | healthCheckResult
  | registryLoaded
  deriving DecidableEq, Repr

/-- The data of an event, by the fields of its object. -/
inductive EventData where
  | service (service : String) (timestamp : Timestamp)
  | stateChange (service : String) (oldState newState : ServiceState) (timestamp : Timestamp)
  | endpoints (service : String) (endpoints : List Endpoint) (timestamp : Timestamp)
  deriving DecidableEq

/-- The events of `WsMessage`, which are all that the registry makes. -/
inductive WsMessage where
  | event (event : EventType) (data : EventData)
  deriving DecidableEq

/-- The errors of the registry, as far as its operations return them. -/
inductive Error where
  | serviceNotFound (name : String)
  | serviceExists (name : String)
  | invalidStateTransition («from» «to» : ServiceState)
  | json (message : String)
  | package (message : String)
  | database (message : String)
  deriving DecidableEq, Repr

namespace ServiceEntry

/-- A new entry. `now` is the one reading of the clock. -/
def new (name version : String) (execution : ExecutionInfo) (location : Location)
    (now : Timestamp) : Except Error ServiceEntry :=
  if isBlank name then .error (.package "Service name cannot be empty")
  else if isBlank version then .error (.package "Service version cannot be empty")
  else .ok {
    name := name
    version := version
    execution := execution
    location := location
    endpoints := []
    dependsOn := []
    state := .registered
    lastHealthCheck := none
    registeredAt := now
    lastStateChange := now }

/-- A blank name is refused. -/
theorem new_blank {name : String} (h : isBlank name = true) (version : String)
    (execution : ExecutionInfo) (location : Location) (now : Timestamp) :
    new name version execution location now =
      .error (.package "Service name cannot be empty") := by
  unfold new
  rw [if_pos h]

/-- A new entry is registered and nothing more. -/
theorem new_ok {name version : String} (hname : isBlank name = false)
    (hversion : isBlank version = false) (execution : ExecutionInfo) (location : Location)
    (now : Timestamp) :
    ∃ entry, new name version execution location now = .ok entry ∧ entry.name = name ∧
      entry.execution = execution ∧ entry.state = .registered := by
  unfold new
  simp [hname, hversion]

/-- `update_state`. -/
def updateState (entry : ServiceEntry) (newState : ServiceState) (now : Timestamp) :
    ServiceEntry :=
  { entry with state := newState, lastStateChange := now }

@[simp] theorem updateState_name (entry : ServiceEntry) (newState : ServiceState)
    (now : Timestamp) : (entry.updateState newState now).name = entry.name := rfl

end ServiceEntry

end GraphHarness.ServiceRegistry
