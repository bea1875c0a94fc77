import GraphHarness.Collections

/-!
# The orchestrator's types (`service-orchestration/src/config.rs`)

What the daemon is asked to run. `dependencies` names services and tasks; the
configuration file only produces the former.

The targets are those of the enum, also the ones that no executor handles, as a configuration
can ask for them. A remote target has its mode among its fields (`flatten` in the wire
format).

Times are whole seconds, and a port is a 16 bit number. Equality of configurations is that of
their fields, with maps compared by their entries.
-/

namespace GraphHarness.Orchestration

/-- `Dependency`, untagged in the wire format. -/
inductive Dependency where
  | service (service : String)
  | task (task : String)
  deriving DecidableEq, Repr

/-- `RemoteMode`, as far as a remote target carries it. -/
inductive RemoteMode where
  | process (binary : String) (args : List String)
  | package (package : String)
  deriving DecidableEq, Repr

/-- `ServiceTarget`; the last two are the deprecated forms the converter still
uses for remote services. -/
inductive ServiceTarget where
  | process (binary : String) (args : List String) (env : HashMap String String)
      (workingDir : Option String)
  | docker (image : String) (env : HashMap String String) (ports : List UInt16)
      (volumes : List String)
  | dockerAttach (container : String) (env : HashMap String String)
  | processAttach (pid : Option UInt32) (processName : Option String) (env : HashMap String String)
  | remote (host user : String) (mode : RemoteMode) (env : HashMap String String)
  | remoteLan (host user binary : String) (args : List String)
  | wireguard (host user package : String)
  deriving DecidableEq

namespace ServiceTarget

/-- The deprecated forms have no environment. -/
def env : ServiceTarget → HashMap String String
  | .process _ _ env _ => env
  | .docker _ env _ _ => env
  | .dockerAttach _ env => env
  | .processAttach _ _ env => env
  | .remote _ _ _ env => env
  | .remoteLan _ _ _ _ => ∅
  | .wireguard _ _ _ => ∅

end ServiceTarget

/-- `HealthCheck`, its times in seconds. -/
structure HealthCheck where
  command : String
  args : List String
  interval : UInt64
  retries : UInt32
  timeout : UInt64
  deriving DecidableEq, Repr

/-- `HealthCheck::default`. -/
def HealthCheck.default : HealthCheck where
  command := "true"
  args := []
  interval := 30
  retries := 3
  timeout := 10

/-- `ServiceConfig`. -/
structure ServiceConfig where
  name : String
  target : ServiceTarget
  dependencies : List Dependency
  healthCheck : Option HealthCheck
  deriving DecidableEq

/-- `ServiceStatus`. -/
inductive ServiceStatus where
  | stopped
  | starting
  | running
  | unhealthy
  | failed (message : String)
  deriving DecidableEq, Repr

end GraphHarness.Orchestration
