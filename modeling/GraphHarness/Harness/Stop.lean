import GraphHarness.Config.Parser
import GraphHarness.Harness.Order
import GraphHarness.Harness.Protocol
import GraphHarness.Text
import GraphHarness.Trace.Past

/-!
# `harness stop` (`commands/stop.rs`)

One run of `stop::run` on a parsed configuration and a connected daemon: which services
are to be stopped, in which order, the loop over them and the summary. A run is a list of
requests with their answers. What is printed is not modelled, except for the summary.

Which services are to be stopped is decided from the answer to `ListServices`: those that are
running, in the order of the reverse sort. If that sort fails, so does the command. The user
is only asked where other services are affected and the stop is not forced, and the answer is
an input of the run.

Without `--force` an error ends the loop; with it the loop goes on. A timeout is only waited
for after a success, and what the wait finds is printed and not recorded.
-/

namespace GraphHarness.Stop

open Orchestration (ServiceStatus)
open Protocol (Request Response Answer)

/-- A request, and what came back. -/
abbrev Event := Request × Answer

/-- The daemon of one run: its answers to `ListServices` and to the `StopService` of a
service, and for the `k`-th status request while waiting for that service its answer and
by how many milliseconds the wait is behind its schedule. The stop order names no service
twice, so every sequence of answers is of this form. -/
structure Daemon where
  list : Answer
  stop : String → Answer
  status : String → Nat → Nat × Answer

/-! ## Which services -/

/-- The statuses of a service that is to be stopped. -/
def isRunning : ServiceStatus → Bool
  | .running => true
  | .starting => true
  | .unhealthy => true
  | _ => false

/-- The services of the list that are to be stopped. -/
def runningServices (serviceStatus : HashMap String ServiceStatus) : List String :=
  serviceStatus.entries.filterMap fun entry => if isRunning entry.2 then some entry.1 else none

/-- All running services, or the requested ones among them. -/
def servicesToStop (runningServices services : List String) : List String :=
  if services = [] then runningServices else services.filter fun s => s ∈ runningServices

/-- `input.trim().eq_ignore_ascii_case("y")`. -/
def isYes (input : String) : Bool := trim input = "y" || trim input = "Y"

/-- The services of the loop, in their order. -/
def orderedServices (ord : HashOrder) (cfg : Config)
    (runningServices servicesToStop : List String) :
    Option (Except String (List String)) :=
  match Dependencies.reverseTopologicalSort ord (cfg.services.keys.length + 1) cfg
      servicesToStop with
  | some (.ok ordered) => some (.ok (ordered.filter fun s => s ∈ runningServices))
  | some (.error message) => some (.error message)
  | none => none

/-- `run` up to its loop: an error, nothing to stop, or the services the loop is about.
The two sorts build their graphs anew, and each has its own hash order; `input` is the
line that is read from the standard input. The call depth is one at which they return. -/
def plan (ordAffected ordStop : HashOrder) (list : Answer) (cfg : Config) (services : List String)
    (force : Bool) (input : Except String String) : Option (Except String (Option (List String))) :=
  match list with
  | .error e => some (.error e)
  | .ok (.serviceList serviceStatus) =>
    let runningServices := runningServices serviceStatus
    let servicesToStop := servicesToStop runningServices services
    let ordered := (orderedServices ordStop cfg runningServices servicesToStop).map (·.map some)
    if servicesToStop = [] then some (.ok none)
    else
      match Dependencies.getAffectedServices ordAffected (cfg.services.keys.length + 1) cfg
          servicesToStop with
      | none => none
      | some affected =>
        if affected ≠ [] ∧ force = false then
          match input with
          | .error e => some (.error e)
          | .ok input => if isYes input then ordered else some (.ok none)
        else ordered
  | .ok (.error message) => some (.error ("Failed to get service list: " ++ message))
  | .ok _ => some (.error "Unexpected response from daemon")

/-! ## The loop -/

/-- How a round of the loop ends. -/
inductive Control where
  | next
  | stop
  deriving DecidableEq, Repr

/-- The wait for a service to stop. The `k`-th status request is sent `500 * k`
milliseconds after the first or later; after `2 * (timeout + 1)` requests the timeout has
passed, and with the rounds the wait is over. -/
def waitForStop (status : Nat → Nat × Answer) (name : String) (timeout : Nat) :
    Nat → Nat → List Event
  | 0, _ => []
  | rounds + 1, k =>
    let (late, answer) := status k
    if (500 * k + late) / 1000 > timeout then []
    else
      (.getServiceStatus name, answer) ::
        match answer with
        | .ok (.serviceStatus .stopped) => []
        | .ok (.serviceStatus _) => waitForStop status name timeout rounds (k + 1)
        | _ => []

/-- The wait behind a `Success`, if there is a timeout. -/
def stopWait (daemon : Daemon) (name : String) (timeout : Option UInt64) : Answer → List Event
  | .ok .success =>
    match timeout with
    | some timeout =>
      waitForStop (daemon.status name) name timeout.toNat (2 * timeout.toNat + 3) 0
    | none => []
  | _ => []

/-- What the answer to the stop request does to the failures and to the loop. -/
def handleAnswer (force : Bool) (failures : List (String × String)) (name : String) :
    Answer → List (String × String) × Control
  | .ok .success => (failures, .next)
  | .ok (.error message) => (failures ++ [(name, message)], if force then .next else .stop)
  | .ok _ => (failures ++ [(name, "Unexpected response")], .next)
  | .error e => (failures ++ [(name, e)], if force then .next else .stop)

/-- One round. A service that is not in the configuration is passed over. -/
def stopOne (daemon : Daemon) (cfg : Config) (force : Bool) (timeout : Option UInt64)
    (name : String) (failures : List (String × String)) :
    List Event × List (String × String) × Control :=
  if name ∈ cfg.services then
    let answer := daemon.stop name
    ((.stopService name, answer) :: stopWait daemon name timeout answer,
      handleAnswer force failures name answer)
  else ([], failures, .next)

/-- The loop over the order. A failure ends it, unless it is forced. -/
def stopAll (daemon : Daemon) (cfg : Config) (force : Bool) (timeout : Option UInt64) :
    List String → List (String × String) → List Event × List (String × String)
  | [], failures => ([], failures)
  | name :: names, failures =>
    match stopOne daemon cfg force timeout name failures with
    | (events, failures, .next) =>
      let (later, failures) := stopAll daemon cfg force timeout names failures
      (events ++ later, failures)
    | (events, failures, .stop) => (events, failures)

/-! ## A run -/

/-- What is printed at the end. -/
structure Report where
  stoppedCount : Nat
  failures : List (String × String)
  deriving DecidableEq, Repr

/-- A run of the command: its events, what it prints at the end and what it returns. -/
structure Run where
  events : List Event
  report : Option Report
  result : Except String Unit
  deriving DecidableEq

/-- The summary. Each failure is that of a service of the order, so the difference is
never negative. -/
def summarize (ordered : List String) (failures : List (String × String)) : Report where
  stoppedCount := ordered.length - failures.length
  failures := failures

/-- `stop::run`. -/
def run (ordAffected ordStop : HashOrder) (daemon : Daemon) (cfg : Config) (services : List String)
    (force : Bool) (timeout : Option UInt64) (input : Except String String) : Option Run :=
  match plan ordAffected ordStop daemon.list cfg services force input with
  | none => none
  | some (.error message) => some ⟨[(.listServices, daemon.list)], none, .error message⟩
  | some (.ok none) => some ⟨[(.listServices, daemon.list)], none, .ok ()⟩
  | some (.ok (some ordered)) =>
    let (events, failures) := stopAll daemon cfg force timeout ordered []
    some {
      events := (.listServices, daemon.list) :: events
      report := some (summarize ordered failures)
      result :=
        if failures = [] then .ok ()
        else .error (Nat.repr failures.length ++ " services failed to stop") }

/-! ## What a round asks and records -/

/-- An answer that ends the loop, unless it is forced: an error of the daemon or of the
connection. -/
def isFailure : Answer → Bool
  | .ok (.error _) => true
  | .error _ => true
  | _ => false

/-- An answer that is neither `Success` nor an error. -/
def isUnexpected : Answer → Bool
  | .ok .success => false
  | .ok (.error _) => false
  | .ok _ => true
  | .error _ => false

/-- An unexpected answer is not a failure. -/
theorem isFailure_of_isUnexpected {answer : Answer} (h : isUnexpected answer = true) :
    isFailure answer = false := by
  cases answer with
  | error e => cases h
  | ok response =>
    cases response with
    | error message => cases h
    | _ => rfl

/-- A status request. -/
def AsksStatus (e : Event) : Prop := ∃ name answer, e = (.getServiceStatus name, answer)

/-- The wait asks for statuses only. -/
theorem waitForStop_asksStatus {status : Nat → Nat × Answer} {name : String} {timeout : Nat} :
    ∀ (rounds k : Nat), ∀ e ∈ waitForStop status name timeout rounds k, AsksStatus e := by
  intro rounds
  induction rounds with
  | zero => intro k e h; simp [waitForStop] at h
  | succ rounds ih =>
    intro k e h
    rw [waitForStop] at h
    dsimp only at h
    split at h
    next => simp at h
    next =>
      rcases List.mem_cons.mp h with rfl | h
      · exact ⟨_, _, rfl⟩
      · split at h
        next => simp at h
        next => exact ih (k + 1) e h
        next => simp at h

/-- So does a wait that there may be none of. -/
theorem stopWait_asksStatus {daemon : Daemon} {name : String} {timeout : Option UInt64}
    {answer : Answer} : ∀ e ∈ stopWait daemon name timeout answer, AsksStatus e := by
  intro e h
  unfold stopWait at h
  split at h
  next =>
    split at h
    next => exact waitForStop_asksStatus _ _ e h
    next => simp at h
  next => simp at h

/-- An answer is a success, an error or unexpected; all but the first are recorded. -/
theorem handleAnswer_cases (force : Bool) (failures : List (String × String)) (name : String)
    (answer : Answer) :
    (answer = .ok .success ∧ handleAnswer force failures name answer = (failures, .next)) ∨
    (isFailure answer = true ∧ ∃ error, handleAnswer force failures name answer =
      (failures ++ [(name, error)], if force then .next else .stop)) ∨
    (isUnexpected answer = true ∧ ∃ error, handleAnswer force failures name answer =
      (failures ++ [(name, error)], .next)) := by
  cases answer with
  | error e => exact .inr (.inl ⟨rfl, e, rfl⟩)
  | ok response =>
    cases response with
    | success => exact .inl ⟨rfl, rfl⟩
    | error message => exact .inr (.inl ⟨rfl, message, rfl⟩)
    | _ => exact .inr (.inr ⟨rfl, "Unexpected response", rfl⟩)

/-- An error ends the loop that is not forced, and nothing else does. -/
theorem handleAnswer_control (force : Bool) (failures : List (String × String)) (name : String)
    (answer : Answer) : (handleAnswer force failures name answer).2 =
      if isFailure answer && !force then .stop else .next := by
  rcases handleAnswer_cases force failures name answer with
    ⟨rfl, hanswer⟩ | ⟨hfailure, error, hanswer⟩ | ⟨hunexpected, error, hanswer⟩
  · rw [hanswer]
    rfl
  · rw [hanswer, hfailure]
    cases force with
    | false => rfl
    | true => rfl
  · rw [hanswer, isFailure_of_isUnexpected hunexpected]
    rfl

section Loop

variable {daemon : Daemon} {cfg : Config} {force : Bool} {timeout : Option UInt64} {name : String}
  {names : List String} {failures : List (String × String)}

/-- A service that is not declared is passed over. -/
theorem stopAll_passed_over (hname : name ∉ cfg.services) :
    stopAll daemon cfg force timeout (name :: names) failures =
      stopAll daemon cfg force timeout names failures := by
  rw [stopAll, stopOne, if_neg hname]
  rfl

/-- A round that asks: its requests, and those behind it unless it ends the loop. -/
theorem stopAll_asked (hname : name ∈ cfg.services) :
    stopAll daemon cfg force timeout (name :: names) failures =
      let answer := daemon.stop name
      let events := (.stopService name, answer) :: stopWait daemon name timeout answer
      let failures := (handleAnswer force failures name answer).1
      if isFailure answer && !force then (events, failures)
      else
        (events ++ (stopAll daemon cfg force timeout names failures).1,
          (stopAll daemon cfg force timeout names failures).2) := by
  have hcontrol := handleAnswer_control force failures name (daemon.stop name)
  rw [stopAll, stopOne, if_pos hname]
  dsimp only
  generalize handleAnswer force failures name (daemon.stop name) = answered at hcontrol ⊢
  obtain ⟨failures', control⟩ := answered
  dsimp only at hcontrol ⊢
  split at hcontrol
  next hstop =>
    rw [hcontrol, if_pos hstop]
  next hnext =>
    rw [hcontrol, if_neg hnext]

end Loop

/-- A run with a summary is the loop over the services that were planned. -/
theorem run_report {ordAffected ordStop : HashOrder} {daemon : Daemon} {cfg : Config}
    {services : List String} {force : Bool} {timeout : Option UInt64}
    {input : Except String String} {r : Run} {report : Report}
    (hrun : run ordAffected ordStop daemon cfg services force timeout input = some r)
    (hreport : r.report = some report) :
    ∃ ordered, plan ordAffected ordStop daemon.list cfg services force input =
        some (.ok (some ordered)) ∧
      r.events = (.listServices, daemon.list) :: (stopAll daemon cfg force timeout ordered []).1 ∧
      report = summarize ordered (stopAll daemon cfg force timeout ordered []).2 ∧
      r.result = if (stopAll daemon cfg force timeout ordered []).2 = [] then .ok ()
        else .error (Nat.repr (stopAll daemon cfg force timeout ordered []).2.length ++
          " services failed to stop") := by
  unfold run at hrun
  split at hrun
  next => cases hrun
  next =>
    obtain rfl := Option.some.inj hrun
    cases hreport
  next =>
    obtain rfl := Option.some.inj hrun
    cases hreport
  next ordered hplan =>
    obtain rfl := Option.some.inj hrun
    exact ⟨ordered, hplan, rfl, (Option.some.inj hreport).symm, rfl⟩

/-- A run begins with the list of the services. -/
theorem run_events {ordAffected ordStop : HashOrder} {daemon : Daemon} {cfg : Config}
    {services : List String} {force : Bool} {timeout : Option UInt64}
    {input : Except String String} {r : Run}
    (hrun : run ordAffected ordStop daemon cfg services force timeout input = some r) :
    r.events = (.listServices, daemon.list) :: r.events.tail := by
  unfold run at hrun
  split at hrun
  next => cases hrun
  next =>
    obtain rfl := Option.some.inj hrun
    rfl
  next =>
    obtain rfl := Option.some.inj hrun
    rfl
  next =>
    obtain rfl := Option.some.inj hrun
    rfl

/-! ## A configuration of two services -/

/-- `api` depends on `db`. -/
def apiConfig : Config where
  version := "1.0"
  networks := ["local"]
  services :=
    (AList.insert "db" (Dependencies.processService "postgres" []) ∅).insert "api"
      (Dependencies.processService "api-server" ["db"])

/-- Both run, and so does a service that is not in the configuration; `api` is answered as
given, the others by a `Success`. -/
def apiDaemon (api : Answer) : Daemon where
  list := .ok (.serviceList
    (((AList.insert "db" .running ∅).insert "api" .starting).insert "old" .unhealthy))
  stop name := if name = "api" then api else .ok .success
  status _ _ := (0, .ok (.serviceStatus .stopped))

end GraphHarness.Stop
