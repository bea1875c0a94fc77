import GraphHarness.Orchestration.Health
import GraphHarness.Text

/-!
# The executors (`service-orchestration/src/executors/process.rs`, `docker.rs`)

What a start and a stop do, by what the commands answer. The process executor keeps a
handle for each process it has launched. The docker executor keeps nothing; what its
commands have done to the containers is written down in order. Log lines are left out.

Commands are lists of words and answers are a function of them (`Commands`), so within one
call a command that is issued twice is answered alike; `Orchestration.Docker` and
`Orchestration.Adoption` do without that. A result has three cases, as the source can also
panic: a container's identifier is cut at twelve bytes for the host name.

The process executor's map of event streams is left out here and is the subject of
`Orchestration.Forwarding`. Adopting leaves the environment and the ports of a container as
they are.
-/

namespace GraphHarness.Orchestration

/-- How a call ends: a slice of a string can panic. -/
inductive Result (α : Type) where
  | ok (value : α)
  | err (error : Error)
  | panicked

/-- The value of a result is mapped. -/
def Result.map {α β : Type} (f : α → β) : Result α → Result β
  | .ok value => .ok (f value)
  | .err e => .err e
  | .panicked => .panicked

@[simp] theorem Result.map_eq_ok {α β : Type} {f : α → β} {result : Result α} {value : β} :
    result.map f = .ok value ↔ ∃ a, result = .ok a ∧ f a = value := by
  cases result <;> simp [Result.map]

@[simp] theorem Result.map_eq_err {α β : Type} {f : α → β} {result : Result α} {e : Error} :
    result.map f = .err e ↔ result = .err e := by
  cases result <;> simp [Result.map]

/-- What is launched as a managed process. -/
structure Command where
  program : String
  args : List String
  env : HashMap String String
  currentDir : Option String

/-- What a call learns from outside: the processes it launches, the commands it runs,
and how the handle of a process answers. -/
structure Outside where
  launch : Command → Except String ProcessInfo
  run : Commands
  terminate : Except String Unit
  kill : Except String Unit

namespace ProcessExecutor

/-- `ProcessExecutor::start`. `id` is the identifier the new service gets. -/
def start (processes : HashMap Nat ProcessInfo) (outside : Outside) (id : Nat)
    (config : ServiceConfig) : HashMap Nat ProcessInfo × Result RunningService :=
  match config.target with
  | .process binary args env workingDir =>
    match outside.launch ⟨binary, args, env, workingDir⟩ with
    | .error e => (processes, .err (.commandExecutor e))
    | .ok handle =>
      let service := ((RunningService.new id config.name config).withPid
        (handle.pid.getD 0)).withMetadata "executor_type" "process"
      (processes.insert service.id handle, .ok service)
  | _ => (processes, .err (.config "ProcessExecutor can only handle Process targets"))

section Start

variable {config : ServiceConfig} {binary : String} {args : List String}
  {env : HashMap String String} {workingDir : Option String}
  (htarget : config.target = .process binary args env workingDir)
include htarget

/-- The process cannot be launched, or it is launched and tracked. -/
theorem start_cases (processes : HashMap Nat ProcessInfo) (outside : Outside) (id : Nat) :
    (∃ message, outside.launch ⟨binary, args, env, workingDir⟩ = .error message ∧
      start processes outside id config = (processes, .err (.commandExecutor message))) ∨
    ∃ handle, outside.launch ⟨binary, args, env, workingDir⟩ = .ok handle ∧
      start processes outside id config = (processes.insert id handle,
        .ok (((RunningService.new id config.name config).withPid
          (handle.pid.getD 0)).withMetadata "executor_type" "process")) := by
  unfold start
  rw [htarget]
  dsimp only
  cases outside.launch ⟨binary, args, env, workingDir⟩ with
  | error message => exact .inl ⟨message, rfl, rfl⟩
  | ok handle => exact .inr ⟨handle, rfl, rfl⟩

end Start

/-- The line `kill`. -/
def killCommand (pid : UInt32) : List String := ["kill", s!"{pid}"]

/-- The line `kill -9`. -/
def forceKillCommand (pid : UInt32) : List String := ["kill", "-9", s!"{pid}"]

/-- `ProcessExecutor::stop`. With a handle nothing can fail: an error of `terminate` is
followed by `kill`, and one of that is only logged. -/
def stop (processes : HashMap Nat ProcessInfo) (outside : Outside) (service : RunningService) :
    HashMap Nat ProcessInfo × Except Error Unit :=
  let remaining := processes.erase service.id
  match processes.lookup service.id with
  | some _ =>
    match outside.terminate with
    | .ok () => (remaining, .ok ())
    | .error _ =>
      match outside.kill with
      | .ok () => (remaining, .ok ())
      | .error _ => (remaining, .ok ())
  | none =>
    match service.pid with
    | some pid =>
      match outside.run (killCommand pid) with
      | .ok result =>
        if result.success then (remaining, .ok ())
        else
          match outside.run (forceKillCommand pid) with
          | .ok _ => (remaining, .ok ())
          | .error e => (remaining, .error (.commandExecutor e))
      | .error e => (remaining, .error (.commandExecutor e))
    | none => (remaining, .ok ())

end ProcessExecutor

/-- What a docker command has done, when docker said that it did. -/
inductive ContainerChange where
  | started (id : String)
  | stopped (id : String)
  | removed (id : String)
  deriving DecidableEq, Repr

/-- `ContainerState`. -/
structure ContainerState where
  id : String
  state : String
  status : String
  isRunning : Bool
  deriving DecidableEq, Repr

namespace DockerExecutor

/-- The line of `docker ps` that looks for the container of a service. -/
def psCommand (name : String) : List String :=
  ["docker", "ps", "-a", "--filter", s!"name=orchestrator-{name}-harness-test", "--format",
    "\x7b\x7b.ID\x7d\x7d|\x7b\x7b.State\x7d\x7d|\x7b\x7b.Status\x7d\x7d", "--no-trunc"]

/-- The line that asks for the address. -/
def addressCommand (id : String) : List String :=
  ["docker", "inspect", "--format", "\x7b\x7b.NetworkSettings.IPAddress\x7d\x7d", id]

/-- The line that asks for the ports. -/
def portCommand (id : String) : List String := ["docker", "port", id]

/-- The line that asks for the status. -/
def statusCommand (id : String) : List String :=
  ["docker", "inspect", "--format", "\x7b\x7b.State.Status\x7d\x7d", id]

/-- The line `docker stop`. -/
def stopCommand (id : String) : List String := ["docker", "stop", id]

/-- The line `docker rm`. -/
def removeCommand (id : String) : List String := ["docker", "rm", id]

/-- The line `docker rm -f`. -/
def forceRemoveCommand (id : String) : List String := ["docker", "rm", "-f", id]

/-- The line of `docker run`. Its name has no suffix, unlike the one that is looked for. -/
def runCommand (name image : String) (env : HashMap String String) (ports : List UInt16)
    (volumes : List String) : List String :=
  ["docker", "run", "-d", "--name", s!"orchestrator-{name}"] ++
    env.entries.flatMap (fun entry =>
      let key := entry.1
      let value := entry.2
      ["-e", s!"{key}={value}"]) ++
    ports.flatMap (fun port => ["-p", s!"{port}:{port}"]) ++
    volumes.flatMap (fun volume => ["-v", volume]) ++ [image]

/-- What `docker ps` shows: the first container, as `ID|State|Status`. -/
def containerState (output : String) : Option ContainerState :=
  let output := trimChars output.toList
  if output.isEmpty then none
  else
    match splitOn '|' output with
    | id :: state :: status :: _ =>
      let state := String.ofList state
      some ⟨String.ofList id, state, String.ofList status, state = "running"⟩
    | _ => none

/-- `detect_existing_container`. A command that fails finds nothing. -/
def detectExistingContainer (run : Commands) (name : String) :
    Except Error (Option ContainerState) :=
  match run (psCommand name) with
  | .error e => .error (.commandExecutor e)
  | .ok result => .ok (if result.success then containerState result.output else none)

/-- The port of a line such as `80/tcp -> 0.0.0.0:8080`. -/
def containerPort (line : List Char) : Option UInt16 :=
  match splitOnce " -> ".toList line with
  | some (port, _) =>
    match splitOnce "/".toList port with
    | some (port, _) => parseU16 port
    | none => none
  | none => none

/-- `get_container_network_info`. The host name is cut off the id at twelve bytes. -/
def getContainerNetworkInfo (run : Commands) (id : String) : Result NetworkInfo :=
  match run (addressCommand id) with
  | .error e => .err (.commandExecutor e)
  | .ok address =>
    if address.success then
      match run (portCommand id) with
      | .error e => .err (.commandExecutor e)
      | .ok result =>
        let ports :=
          if result.success then (lines result.output.toList).filterMap containerPort else []
        -- the host name is the first twelve bytes of the identifier
        match bytePrefix 12 id.toList with
        | some hostname =>
          .ok ⟨trim address.output, ports.head?, ports, String.ofList hostname⟩
        | none => .panicked
    else
      let output := address.output
      .err (.config s!"Failed to get container IP: {output}")

/-- The container that was found becomes the service. -/
def adoptContainer (run : Commands) (id : Nat) (container : ContainerState)
    (config : ServiceConfig) : Result RunningService :=
  (getContainerNetworkInfo run container.id).map fun networkInfo =>
    ((((RunningService.new id config.name config).withContainerId container.id).withNetworkInfo
      networkInfo).withMetadata "executor_type" "docker").withMetadata "adopted" "true"

/-- The part of `start` from `docker run` on. -/
def runContainer (run : Commands) (id : Nat) (config : ServiceConfig) (line : List String) :
    List ContainerChange × Result RunningService :=
  match run line with
  | .error e => ([], .err (.commandExecutor e))
  | .ok result =>
    let output := trim result.output
    if result.success then
      ([.started output], (getContainerNetworkInfo run output).map fun networkInfo =>
        (((RunningService.new id config.name config).withContainerId output).withNetworkInfo
          networkInfo).withMetadata "executor_type" "docker")
    else ([], .err (.config s!"Docker run failed: {output}"))

/-- `DockerExecutor::start`. `id` is the identifier the new service gets. -/
def start (run : Commands) (id : Nat) (config : ServiceConfig) :
    List ContainerChange × Result RunningService :=
  match config.target with
  | .docker image env ports volumes =>
    let line := runCommand config.name image env ports volumes
    match detectExistingContainer run config.name with
    | .error e => ([], .err e)
    | .ok (some existing) =>
      if existing.isRunning then ([], adoptContainer run id existing config)
      else
        match run (forceRemoveCommand existing.id) with
        | .error e => ([], .err (.commandExecutor e))
        | .ok result =>
          let removed := if result.success then [.removed existing.id] else []
          let ran := runContainer run id config line
          (removed ++ ran.1, ran.2)
    | .ok none => runContainer run id config line
  | _ => ([], .err (.config "DockerExecutor can only handle Docker targets"))

/-- A service that was started has the configuration and the identifier it was given. -/
theorem runContainer_service {run : Commands} {id : Nat} {config : ServiceConfig}
    {line : List String} {service : RunningService}
    (h : (runContainer run id config line).2 = .ok service) :
    service.config = config ∧ service.id = id := by
  unfold runContainer at h
  split at h
  next => simp at h
  next =>
    dsimp only at h
    split at h
    next =>
      obtain ⟨networkInfo, _, rfl⟩ := Result.map_eq_ok.mp h
      exact ⟨rfl, rfl⟩
    next => simp at h

/-- The service is of the configuration and has the id that was issued. -/
theorem start_service {run : Commands} {id : Nat} {config : ServiceConfig}
    {service : RunningService} (h : (start run id config).2 = .ok service) :
    service.config = config ∧ service.id = id := by
  unfold start at h
  split at h
  next =>
    dsimp only at h
    split at h
    next => simp at h
    next =>
      split at h
      next =>
        obtain ⟨networkInfo, _, rfl⟩ := Result.map_eq_ok.mp h
        exact ⟨rfl, rfl⟩
      next =>
        split at h
        next => simp at h
        next => exact runContainer_service h
    next => exact runContainer_service h
  next => simp at h

/-- `DockerExecutor::stop`. -/
def stop (run : Commands) (service : RunningService) : List ContainerChange × Except Error Unit :=
  match service.containerId with
  | none => ([], .ok ())
  | some id =>
    match run (statusCommand id) with
    | .error e => ([], .error (.commandExecutor e))
    | .ok inspected =>
      if inspected.success then
        let status := trim inspected.output
        if status = "exited" ∨ status = "dead" then
          match run (forceRemoveCommand id) with
          | .error e => ([], .error (.commandExecutor e))
          | .ok result => (if result.success then [.removed id] else [], .ok ())
        else
          match run (stopCommand id) with
          | .error e => ([], .error (.commandExecutor e))
          | .ok result =>
            if result.success then
              match run (removeCommand id) with
              | .error e => ([.stopped id], .error (.commandExecutor e))
              | .ok result =>
                (if result.success then [.stopped id, .removed id] else [.stopped id], .ok ())
            else ([], .ok ())
      else ([], .ok ())

end DockerExecutor

end GraphHarness.Orchestration
