import GraphHarness.Config.Parser
import GraphHarness.Harness.Order
import GraphHarness.Harness.Protocol
import GraphHarness.Trace.Past

/-!
# `harness start` (`commands/start.rs`)

One run of `start::run` on a parsed configuration and a connected daemon: the
loop over the start order, with every way a round can end, and the report at its
end. A run is a list of events: each conversion with the resolution context it
saw, and each request with its answer. What is printed is not modelled, except
for the three lists of the report.

A service starts after its conversion with the context of that moment; its answer is put into
the context, or on the list of failures. Three things end a round: the next service, the end
of the loop with its summary, and an error that `?` passes on without one.

The daemon is a function of the name here, as no service is started twice in a run; the
answers of a health check may differ from poll to poll, and so may the time until it is asked.
`Harness.StartSession` holds the same run as a dialogue with a daemon that has a state.
-/

namespace GraphHarness.Start

open Orchestration (ServiceConfig ServiceStatus)
open Protocol (Request Response Answer)
open Resolver (ResolutionContext)

/-- What `start` does that others see: it converts a service, or sends a request. -/
inductive Event where
  | convert (service : String) (context : ResolutionContext)
      (result : Except ConfigError ServiceConfig)
  | request (request : Request) (answer : Answer)
  deriving DecidableEq

/-- The daemon of one run: its answer to the `StartService` request for a
service, and for the `k`-th status request while waiting for that service its
answer and by how many milliseconds the wait is behind its schedule. The start
order names no service twice, so every sequence of answers is of this form. -/
structure Daemon where
  start : String → Answer
  status : String → Nat → Nat × Answer

/-- The loop variables. -/
structure State where
  failures : List (String × String)
  startedServices : List String
  resolutionContext : ResolutionContext
  deriving DecidableEq

/-- How a round of the loop ends: `continue`, `break`, or the early return. -/
inductive Control where
  | next
  | stop
  | fail (message : String)
  deriving DecidableEq, Repr

/-- The wait for a health check. The `k`-th status request is sent `500 * k`
milliseconds after the first or later; after `2 * timeout` requests the timeout
has passed, and with the rounds the wait is over. -/
def waitForHealth (status : Nat → Nat × Answer) (name : String) (timeout : Nat) :
    Nat → Nat → List Event
  | 0, _ => []
  | rounds + 1, k =>
    let (late, answer) := status k
    if 500 * k + late > 1000 * timeout then []
    else
      .request (.getServiceStatus name) answer ::
        match answer with
        | .ok (.serviceStatus .running) => []
        | .ok (.serviceStatus (.failed _)) => []
        | .ok (.serviceStatus _) => waitForHealth status name timeout rounds (k + 1)
        | _ => []

/-- The wait after a start, for a service with a health check. -/
def healthWait (daemon : Daemon) (name : String) (service : Service) : List Event :=
  match service.healthCheck with
  | some _ =>
    let timeout := (service.startupTimeout.getD 60).toNat
    waitForHealth (daemon.status name) name timeout (2 * timeout + 1) 0
  | none => []

/-- The report of a service that is not declared. -/
def notFound (name : String) : String :=
  "Service '" ++ name ++ "' not found in configuration"

/-- A failure is put down; the loop goes on. -/
def State.addFailure (st : State) (name error : String) : State :=
  { st with failures := st.failures ++ [(name, error)] }

/-- A service was started, and later ones may refer to it. -/
def State.addStarted (st : State) (name ip : String) (port : Option UInt16) (host : String) :
    State :=
  { st with
    startedServices := st.startedServices ++ [name]
    resolutionContext := st.resolutionContext.addService name ip port host }

/-- What the answer to the start request does to the loop. -/
def handleAnswer (st : State) (name : String) : Answer → State × Control
  | .ok (.serviceStarted _ info) =>
    (st.addStarted name info.ip info.port info.hostname, .next)
  | .ok .success => (st.addStarted name "127.0.0.1" none (name ++ ".local"), .next)
  | .ok (.error message) => (st.addFailure name message, .stop)
  | .ok _ => (st.addFailure name "Unexpected response", .next)
  | .error e => (st.addFailure name e, .stop)

/-- `ServiceStarted`, or the older daemon's `Success`. -/
def isStarted : Answer → Bool
  | .ok (.serviceStarted _ _) => true
  | .ok .success => true
  | _ => false

/-- One round of the loop. -/
def startOne (daemon : Daemon) (processEnv : HashMap String String) (cfg : Config)
    (name : String) (st : State) : List Event × State × Control :=
  match cfg.services.lookup name with
  | none => ([], st, .fail (notFound name))
  | some service =>
    let result := Parser.convertToOrchestratorWithContext processEnv cfg name
      (some st.resolutionContext)
    let converted := Event.convert name st.resolutionContext result
    match result with
    | .error e => ([converted], st.addFailure name e.toString, .next)
    | .ok config =>
      let answer := daemon.start name
      let sent := Event.request (.startService name config) answer
      let wait := if isStarted answer then healthWait daemon name service else []
      (converted :: sent :: wait, handleAnswer st name answer)

/-- The loop over the ordered services: the events, and the loop variables at its
end or the error of the early return. -/
def startAll (daemon : Daemon) (processEnv : HashMap String String) (cfg : Config) :
    List String → State → List Event × Except String State
  | [], st => ([], .ok st)
  | name :: names, st =>
    match startOne daemon processEnv cfg name st with
    | (events, st', .next) =>
      let (later, result) := startAll daemon processEnv cfg names st'
      (events ++ later, result)
    | (events, st', .stop) => (events, .ok st')
    | (events, _, .fail message) => (events, .error message)

/-- The three lists of the summary. -/
structure Report where
  started : List String
  failures : List (String × String)
  notStarted : List String
  deriving DecidableEq

/-- A run of the command: its events, what it prints at the end and what it returns. -/
structure Run where
  events : List Event
  report : Option Report
  result : Except String Unit
  deriving DecidableEq

/-- The services that are printed as not attempted, where there are failures. -/
def notStarted (ordered : List String) (st : State) : List String :=
  if st.failures = [] then []
  else ordered.filter fun s => s ∉ st.startedServices ∧ ∀ failure ∈ st.failures, failure.1 ≠ s

/-- The state before the first round. -/
def initialState (processEnv : HashMap String String) : State where
  failures := []
  startedServices := []
  resolutionContext := .new processEnv

/-- The summary and the result, once the loop is over. -/
def summarize (ordered : List String) : List Event × Except String State → Run
  | (events, .error message) => ⟨events, none, .error message⟩
  | (events, .ok st) =>
    { events := events
      report := some ⟨st.startedServices, st.failures, notStarted ordered st⟩
      result :=
        if st.failures = [] then .ok ()
        else .error (Nat.repr st.failures.length ++ " services failed to start") }

/-- `start::run`. The call depth of the sort is one at which it returns. -/
def run (ord : HashOrder) (daemon : Daemon) (processEnv : HashMap String String) (cfg : Config)
    (services : List String) : Option Run :=
  match Dependencies.topologicalSort ord (cfg.services.keys.length + 1) cfg services with
  | some (.ok ordered) =>
    some (summarize ordered (startAll daemon processEnv cfg ordered (initialState processEnv)))
  | some (.error message) => some ⟨[], none, .error message⟩
  | none => none

end GraphHarness.Start
