import GraphHarness.Orchestration.Manager

/-!
# Health checks (`service-orchestration/src/health.rs`)

A check is a command that is run; the monitor of a service keeps what its checks have
shown. How a command ends is told from outside (`command-executor/src/process.rs`).

A monitor has the number of failures since the last success and the status it has last found.
`ExitStatus` has a code or a signal, as on Unix, and only the code 0 is a success.

The time limit of a check is part of the configuration and is not enforced by anything, so a
check that never ends is no answer at all. Intervals are kept by nobody here: a round of
checks is whenever somebody asks for one.
-/

namespace GraphHarness.Orchestration

/-- How a process has ended: with an exit code, or by a signal. -/
structure ExitStatus where
  code : Option Int32
  signal : Option Int32
  deriving DecidableEq, Repr

/-- `ExitResult`. -/
structure ExitResult where
  status : ExitStatus
  output : String
  deriving DecidableEq, Repr

/-- `ExitStatus::success`: the code is there, and zero. -/
def ExitStatus.success (status : ExitStatus) : Bool := status.code = some 0

/-- `ExitResult::success`. -/
def ExitResult.success (result : ExitResult) : Bool := result.status.success

/-- What `Executor::execute` returns for a command line while one call runs. No call of
the manager executes the same line twice. -/
abbrev Commands := List String → Except String ExitResult

/-- The command could be run, whatever its exit code. -/
def Commands.Launches (run : Commands) (line : List String) : Prop :=
  ∃ result, run line = .ok result

/-- The command runs and succeeds. -/
def Commands.Succeeds (run : Commands) (line : List String) : Prop :=
  ∃ result, run line = .ok result ∧ result.success = true

section Answers

variable {run : Commands} {line : List String}

/-- A command with a result was launched. -/
theorem Commands.launches_of_ok {result : ExitResult} (h : run line = .ok result) :
    run.Launches line := ⟨result, h⟩

/-- A command with an error was not. -/
theorem Commands.not_launches {e : String} (h : run line = .error e) : ¬ run.Launches line := by
  unfold Commands.Launches
  simp [h]

/-- A command with a result succeeds by that result. -/
theorem Commands.succeeds_of_ok {result : ExitResult} (h : run line = .ok result) :
    run.Succeeds line ↔ result.success = true := by
  unfold Commands.Succeeds
  simp [h]

/-- A command with an error does not succeed. -/
theorem Commands.not_succeeds {e : String} (h : run line = .error e) : ¬ run.Succeeds line := by
  unfold Commands.Succeeds
  simp [h]

end Answers

/-- `HealthStatus`. -/
inductive HealthStatus where
  | healthy
  | unhealthy (message : String)
  | unknown
  deriving DecidableEq, Repr

/-- `{:?}` of an exit code. -/
def debugCode : Option Int32 → String
  | some code => s!"Some({code})"
  | none => "None"

/-- `HealthChecker::check_health`, an error by its text. There is none: that the command
cannot be run makes the service unhealthy. -/
def checkHealth (run : Commands) (config : HealthCheck) : Except String HealthStatus :=
  match run (config.command :: config.args) with
  | .ok result =>
    if result.success then .ok .healthy
    else
      let code := debugCode result.status.code
      .ok (.unhealthy s!"Health check failed with exit code: {code}")
  | .error e => .ok (.unhealthy s!"Health check execution failed: {e}")

/-- The counter is that of a build without overflow checks. -/
structure HealthMonitor where
  config : HealthCheck
  consecutiveFailures : UInt32
  lastStatus : HealthStatus
  deriving DecidableEq, Repr

namespace HealthMonitor

/-- `HealthMonitor::new`. -/
def new (config : HealthCheck) : HealthMonitor := ⟨config, 0, .unknown⟩

/-- One check, with the threshold. -/
def check (monitor : HealthMonitor) (run : Commands) :
    HealthMonitor × Except String HealthStatus :=
  match checkHealth run monitor.config with
  | .error e => (monitor, .error e)
  | .ok status =>
    let monitor : HealthMonitor :=
      match status with
      | .healthy => { monitor with consecutiveFailures := 0, lastStatus := status }
      | .unhealthy _ =>
        let failures := monitor.consecutiveFailures + 1
        if failures ≥ monitor.config.retries then
          { monitor with consecutiveFailures := failures, lastStatus := status }
        else { monitor with consecutiveFailures := failures }
      | .unknown => { monitor with lastStatus := status }
    (monitor, .ok monitor.lastStatus)

/-- What `run_health_checks` does with the result of a check, and what it reports. -/
def record (monitor : HealthMonitor) :
    Except String HealthStatus → HealthMonitor × HealthStatus
  | .ok .healthy => ({ monitor with consecutiveFailures := 0, lastStatus := .healthy }, .healthy)
  | .ok (.unhealthy message) =>
    ({ monitor with
        consecutiveFailures := monitor.consecutiveFailures + 1
        lastStatus := .unhealthy message }, .unhealthy message)
  | .ok .unknown => ({ monitor with lastStatus := .unknown }, .unknown)
  | .error message =>
    ({ monitor with
        consecutiveFailures := monitor.consecutiveFailures + 1
        lastStatus := .unhealthy message }, .unhealthy message)

end HealthMonitor

end GraphHarness.Orchestration
