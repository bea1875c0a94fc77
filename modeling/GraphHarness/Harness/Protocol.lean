import GraphHarness.Orchestration.Config

/-!
# The daemon's protocol (`protocol.rs`)

The requests of the CLI and the answers of the daemon.

Both enums have one variant for each request and each kind of answer, with the source's fields
in their order. Times are texts, as the daemon renders them before it sends them.

An answer is a `Result` to the client: either a response, or the error of the call itself.
Nothing in an answer names the request it belongs to, which is what `Harness.DaemonClient` is
about.
-/

namespace GraphHarness.Protocol

open Orchestration (ServiceConfig ServiceStatus)

/-- `Request`. -/
inductive Request where
  | startService (name : String) (config : ServiceConfig)
  | stopService (name : String)
  | getServiceStatus (name : String)
  | listServices
  | listServicesDetailed
  | runHealthChecks
  | shutdown
  | getEnvironmentVariables (names : List String)
  deriving DecidableEq

/-- `ServiceNetworkInfo`. -/
structure ServiceNetworkInfo where
  ip : String
  port : Option UInt16
  hostname : String
  ports : List UInt16
  deriving DecidableEq, Repr

/-- `DetailedServiceInfo`. -/
structure DetailedServiceInfo where
  name : String
  status : ServiceStatus
  networkInfo : Option ServiceNetworkInfo
  endpoints : HashMap String String
  pid : Option UInt32
  containerId : Option String
  startTime : Option String
  dependencies : List String
  deriving DecidableEq

/-- `Response`. -/
inductive Response where
  | success
  | error (message : String)
  | serviceStarted (name : String) (networkInfo : ServiceNetworkInfo)
  | serviceStatus (status : ServiceStatus)
  | serviceList (services : HashMap String ServiceStatus)
  | serviceListDetailed (services : List DetailedServiceInfo)
  | healthCheckResults (results : HashMap String String)
  | environmentVariables (values : HashMap String String)
  deriving DecidableEq

/-- What `send_request` returns: an answer, or the text of a transport error. -/
abbrev Answer := Except String Response

end GraphHarness.Protocol
