import GraphHarness.Executor.Output
import GraphHarness.Orchestration.Executors
import GraphHarness.Trace.Dialogue

/-!
# The commands of the docker executor, in order (`executors/docker.rs`)

`start` and `stop` as dialogues: which command is issued depends on what the earlier ones
have answered. With a function that answers they are the procedures of `Executors`.

The procedures are written twice, as dialogues here and as functions of the answers in
`Orchestration.Executors`, because the two serve different statements: which commands are
issued, and what comes of them. The `eval_` lemmas are the link, one for each procedure.

A container that was found is inspected, and one that is there but not running is removed by
force before the new one is run; both are commands whose own answers are looked at as in the
source.
-/

namespace GraphHarness.Orchestration.DockerExecutor

open Trace (Dialogue)

/-- A dialogue with the commands, each of them a command line. -/
abbrev Issuing (α : Type) := Dialogue (List String) (Except String ExitResult) α

/-- `detect_existing_container`, as a conversation with docker. -/
def detecting (name : String) : Issuing (Except Error (Option ContainerState)) :=
  .ask (psCommand name) fun
    | .error e => .ended (.error (.commandExecutor e))
    | .ok result => .ended (.ok (if result.success then containerState result.output else none))

/-- What is known of the network from the two answers; a short id panics. -/
def networkInfo (id : String) (address port : ExitResult) : Result NetworkInfo :=
  let ports := if port.success then (lines port.output.toList).filterMap containerPort else []
  match bytePrefix 12 id.toList with
  | some hostname => .ok ⟨trim address.output, ports.head?, ports, String.ofList hostname⟩
  | none => .panicked

/-- `get_container_network_info`. -/
def inspecting (id : String) : Issuing (Result NetworkInfo) :=
  .ask (addressCommand id) fun
    | .error e => .ended (.err (.commandExecutor e))
    | .ok address =>
      if address.success then
        .ask (portCommand id) fun
          | .error e => .ended (.err (.commandExecutor e))
          | .ok port => .ended (networkInfo id address port)
      else
        let output := address.output
        .ended (.err (.config s!"Failed to get container IP: {output}"))

/-- `adopt_container`. -/
def adopting (id : Nat) (container : ContainerState) (config : ServiceConfig) :
    Issuing (Result RunningService) :=
  (inspecting container.id).map fun result => result.map fun networkInfo =>
    ((((RunningService.new id config.name config).withContainerId container.id).withNetworkInfo
      networkInfo).withMetadata "executor_type" "docker").withMetadata "adopted" "true"

/-- `start` from `docker run` on. -/
def running (id : Nat) (config : ServiceConfig) (line : List String) :
    Issuing (List ContainerChange × Result RunningService) :=
  .ask line fun
    | .error e => .ended ([], .err (.commandExecutor e))
    | .ok result =>
      let output := trim result.output
      if result.success then
        (inspecting output).map fun result => ([.started output], result.map fun networkInfo =>
          (((RunningService.new id config.name config).withContainerId output).withNetworkInfo
            networkInfo).withMetadata "executor_type" "docker")
      else .ended ([], .err (.config s!"Docker run failed: {output}"))

/-- `start`, as a conversation with docker. -/
def starting (id : Nat) (config : ServiceConfig) :
    Issuing (List ContainerChange × Result RunningService) :=
  match config.target with
  | .docker image env ports volumes =>
    let line := runCommand config.name image env ports volumes
    (detecting config.name).bind fun
      | .error e => .ended ([], .err e)
      | .ok (some existing) =>
        if existing.isRunning then
          (adopting id existing config).map fun service => ([], service)
        else
          .ask (forceRemoveCommand existing.id) fun
            | .error e => .ended ([], .err (.commandExecutor e))
            | .ok result =>
              (running id config line).map fun ran =>
                ((if result.success then [.removed existing.id] else []) ++ ran.1, ran.2)
      | .ok none => running id config line
  | _ => .ended ([], .err (.config "DockerExecutor can only handle Docker targets"))

/-- `stop`, as a conversation with docker. -/
def stopping (service : RunningService) : Issuing (List ContainerChange × Except Error Unit) :=
  match service.containerId with
  | none => .ended ([], .ok ())
  | some id =>
    .ask (statusCommand id) fun
      | .error e => .ended ([], .error (.commandExecutor e))
      | .ok inspected =>
        if inspected.success then
          let status := trim inspected.output
          if status = "exited" ∨ status = "dead" then
            .ask (forceRemoveCommand id) fun
              | .error e => .ended ([], .error (.commandExecutor e))
              | .ok result => .ended (if result.success then [.removed id] else [], .ok ())
          else
            .ask (stopCommand id) fun
              | .error e => .ended ([], .error (.commandExecutor e))
              | .ok result =>
                if result.success then
                  .ask (removeCommand id) fun
                    | .error e => .ended ([.stopped id], .error (.commandExecutor e))
                    | .ok result =>
                      .ended (if result.success then [.stopped id, .removed id] else [.stopped id],
                        .ok ())
                else .ended ([], .ok ())
        else .ended ([], .ok ())

/-! ## The same procedures -/

/-- With all answers at hand the conversation is the function. -/
theorem eval_detecting (run : Commands) (name : String) :
    (detecting name).eval run = detectExistingContainer run name := by
  unfold detecting detectExistingContainer
  rw [Dialogue.eval]
  cases run (psCommand name) with
  | error e => rfl
  | ok result => rfl

/-- So it is for the network. -/
theorem eval_inspecting (run : Commands) (id : String) :
    (inspecting id).eval run = getContainerNetworkInfo run id := by
  unfold inspecting getContainerNetworkInfo
  rw [Dialogue.eval]
  cases run (addressCommand id) with
  | error e => rfl
  | ok address =>
    dsimp only
    split
    next =>
      rw [Dialogue.eval]
      cases run (portCommand id) with
      | error e => rfl
      | ok port => rfl
    next => rfl

/-- So it is for an adopted container. -/
theorem eval_adopting (run : Commands) (id : Nat) (container : ContainerState)
    (config : ServiceConfig) :
    (adopting id container config).eval run = adoptContainer run id container config := by
  unfold adopting adoptContainer
  rw [Dialogue.eval_map, eval_inspecting]

/-- So it is for a container that is run. -/
theorem eval_running (run : Commands) (id : Nat) (config : ServiceConfig) (line : List String) :
    (running id config line).eval run = runContainer run id config line := by
  unfold running runContainer
  rw [Dialogue.eval]
  cases run line with
  | error e => rfl
  | ok result =>
    dsimp only
    split
    next => rw [Dialogue.eval_map, eval_inspecting]
    next => rfl

/-- With a function that answers, the dialogue is the procedure. -/
theorem eval_starting (run : Commands) (id : Nat) (config : ServiceConfig) :
    (starting id config).eval run = start run id config := by
  unfold starting start
  cases config.target with
  | docker image env ports volumes =>
    dsimp only
    rw [Dialogue.eval_bind, eval_detecting]
    cases detectExistingContainer run config.name with
    | error e => rfl
    | ok found =>
      cases found with
      | none => exact eval_running run id config _
      | some existing =>
        dsimp only
        split
        next => rw [Dialogue.eval_map, eval_adopting]
        next =>
          rw [Dialogue.eval]
          cases run (forceRemoveCommand existing.id) with
          | error e => rfl
          | ok result =>
            dsimp only
            rw [Dialogue.eval_map, eval_running]
  | _ => rfl

/-- So it is for a stop. -/
theorem eval_stopping (run : Commands) (service : RunningService) :
    (stopping service).eval run = stop run service := by
  unfold stopping stop
  cases service.containerId with
  | none => rfl
  | some id =>
    dsimp only
    rw [Dialogue.eval]
    cases run (statusCommand id) with
    | error e => rfl
    | ok inspected =>
      dsimp only
      split
      next =>
        split
        next =>
          rw [Dialogue.eval]
          cases run (forceRemoveCommand id) with
          | error e => rfl
          | ok result => rfl
        next =>
          rw [Dialogue.eval]
          cases run (stopCommand id) with
          | error e => rfl
          | ok result =>
            dsimp only
            split
            next =>
              rw [Dialogue.eval]
              cases run (removeCommand id) with
              | error e => rfl
              | ok result => rfl
            next => rfl
      next => rfl

/-! ## The commands -/

/-- The two commands differ. -/
theorem psCommand_ne_runCommand (name name' image : String) (env : HashMap String String)
    (ports : List UInt16) (volumes : List String) :
    psCommand name ≠ runCommand name' image env ports volumes := by
  simp [psCommand, runCommand]

/-- The detection asks once. -/
theorem asked_detecting (run : Commands) (name : String) :
    (detecting name).asked run = [psCommand name] := by
  unfold detecting
  rw [Dialogue.asked]
  cases run (psCommand name) with
  | error e => rfl
  | ok result => rfl

/-- A container is looked at, and nothing else. -/
theorem asks_inspecting (id : String) :
    (inspecting id).Asks fun command => command ∈ [addressCommand id, portCommand id] := by
  refine Dialogue.asks_ask List.mem_cons_self (fun e => trivial) ?_
  intro address
  refine Dialogue.asks_ite ?_ trivial
  exact Dialogue.asks_ask (List.mem_cons_of_mem _ List.mem_cons_self) (fun e => trivial)
    (fun port => trivial)

end GraphHarness.Orchestration.DockerExecutor
