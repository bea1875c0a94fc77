import GraphHarness.Orchestration.Lifecycle

/-!
# When the executors succeed

The outcome of a start and of a stop, by what the processes and commands they run
answer.

`Starts`, `FailsLate` and `Stops` are written in terms of the commands alone, without the
procedures. That they are exactly the outcomes of the procedures is shown along the procedures
(`start_ok`, `start_late`, `stop_ok`), for each executor, and then for the one that is found
for the configuration (`launch_ok`, `launch_late`, `halts_iff`).

A command can fail to be run or be run and fail; the source treats the two alike in some
places and not in others, and the predicates follow it. `FailsLate` is a start that fails when
docker has already removed or started something.
-/

namespace GraphHarness.Orchestration

open ServiceRegistry (RegistryBackend)

namespace DockerExecutor

/-- `docker ps` shows the container of a service. -/
def Shows (run : Commands) (name : String) (container : ContainerState) : Prop :=
  ∃ result, run (psCommand name) = .ok result ∧ result.success = true ∧
    containerState result.output = some container

/-- `docker ps` runs, and shows no container. -/
def ShowsNone (run : Commands) (name : String) : Prop :=
  ∃ result, run (psCommand name) = .ok result ∧
    (result.success = true → containerState result.output = none)

/-- The start gets as far as `docker run`: there is no container yet, or one that does
not run, and `docker rm` can be run for it. -/
def Clears (run : Commands) (name : String) : Prop :=
  ShowsNone run name ∨ ∃ container, Shows run name container ∧ container.isRunning = false ∧
    run.Launches (forceRemoveCommand container.id)

/-- The network information of a container can be read, and its identifier is long
enough for a host name. -/
def NetworkKnown (run : Commands) (id : String) : Prop :=
  run.Succeeds (addressCommand id) ∧ run.Launches (portCommand id) ∧
    (bytePrefix 12 id.toList).isSome = true

/-- One of the two commands about the network fails. -/
def NetworkFails (run : Commands) (id : String) : Prop :=
  ¬ run.Succeeds (addressCommand id) ∨ ¬ run.Launches (portCommand id)

/-- A container runs for the service already, or docker runs a new one. -/
def Starts (run : Commands) (name : String) (line : List String) : Prop :=
  (∃ container, Shows run name container ∧ container.isRunning = true ∧
    NetworkKnown run container.id) ∨
  Clears run name ∧ ∃ result, run line = .ok result ∧ result.success = true ∧
    NetworkKnown run (trim result.output)

/-- Docker has removed an old container and cannot run a new one, or it runs one whose
network information cannot be read. -/
def FailsLate (run : Commands) (name : String) (line : List String) : Prop :=
  (∃ container, Shows run name container ∧ container.isRunning = false ∧
    run.Succeeds (forceRemoveCommand container.id) ∧ ¬ run.Succeeds line) ∨
  Clears run name ∧ ∃ result, run line = .ok result ∧ result.success = true ∧
    NetworkFails run (trim result.output)

/-- Docker can be asked for the container and, where it is there, for what remains to be
done with it. That docker refuses is no failure. -/
def Stops (run : Commands) (id : String) : Prop :=
  ∃ inspected, run (statusCommand id) = .ok inspected ∧
    (inspected.success = true →
      if trim inspected.output = "exited" ∨ trim inspected.output = "dead" then
        run.Launches (forceRemoveCommand id)
      else ∃ result, run (stopCommand id) = .ok result ∧
        (result.success = true → run.Launches (removeCommand id)))

/-- When the network is known. -/
theorem getContainerNetworkInfo_ok (run : Commands) (id : String) :
    (∃ networkInfo, getContainerNetworkInfo run id = .ok networkInfo) ↔ NetworkKnown run id := by
  unfold getContainerNetworkInfo NetworkKnown Commands.Succeeds Commands.Launches
  cases run (addressCommand id) with
  | error e => simp
  | ok address =>
    cases hsuccess : address.success with
    | false => simp [hsuccess]
    | true =>
      cases run (portCommand id) with
      | error e => simp [hsuccess]
      | ok result =>
        cases bytePrefix 12 id.toList with
        | none => simp [hsuccess]
        | some hostname => simp [hsuccess]

/-- When it is not. -/
theorem getContainerNetworkInfo_err (run : Commands) (id : String) :
    (∃ e, getContainerNetworkInfo run id = .err e) ↔ NetworkFails run id := by
  unfold getContainerNetworkInfo NetworkFails Commands.Succeeds Commands.Launches
  cases run (addressCommand id) with
  | error e => simp
  | ok address =>
    cases hsuccess : address.success with
    | false => simp [hsuccess]
    | true =>
      cases run (portCommand id) with
      | error e => simp [hsuccess]
      | ok result =>
        cases bytePrefix 12 id.toList with
        | none => simp [hsuccess]
        | some hostname => simp [hsuccess]

/-- The detection fails, finds none, or finds the one shown. -/
theorem detectExistingContainer_cases (run : Commands) (name : String) :
    ((∃ e, detectExistingContainer run name = .error e) ∧
      (∀ container, ¬ Shows run name container) ∧ ¬ ShowsNone run name) ∨
    (detectExistingContainer run name = .ok none ∧ (∀ container, ¬ Shows run name container) ∧
      ShowsNone run name) ∨
    ∃ container, detectExistingContainer run name = .ok (some container) ∧
      (∀ other, Shows run name other ↔ other = container) ∧ ¬ ShowsNone run name := by
  unfold detectExistingContainer Shows ShowsNone
  cases run (psCommand name) with
  | error e => simp
  | ok shown =>
    cases hsuccess : shown.success with
    | false => simp [hsuccess]
    | true =>
      cases hstate : containerState shown.output with
      | none => simp [hsuccess, hstate]
      | some container =>
        simp only [hsuccess, hstate, Except.ok.injEq, Option.some.injEq, exists_eq_left']
        exact .inr (.inr ⟨container, rfl, fun other => by simp [eq_comm], by simp⟩)

section Start

variable {run : Commands} {config : ServiceConfig} {line : List String}

/-- When a container is run and known. -/
theorem runContainer_ok (id : Nat) :
    (∃ service, (runContainer run id config line).2 = .ok service) ↔
      ∃ result, run line = .ok result ∧ result.success = true ∧
        NetworkKnown run (trim result.output) := by
  unfold runContainer
  cases run line with
  | error e => simp
  | ok result =>
    cases hsuccess : result.success with
    | false => simp [hsuccess]
    | true => simp [hsuccess, ← getContainerNetworkInfo_ok]

/-- When it is not. -/
theorem runContainer_err (id : Nat) :
    (∃ e, (runContainer run id config line).2 = .err e) ↔
      ¬ run.Succeeds line ∨ ∃ result, run line = .ok result ∧ result.success = true ∧
        NetworkFails run (trim result.output) := by
  unfold runContainer Commands.Succeeds
  cases run line with
  | error e => simp
  | ok result =>
    cases hsuccess : result.success with
    | false => simp [hsuccess]
    | true => simp [hsuccess, ← getContainerNetworkInfo_err]

/-- Only a container that docker has started is left behind. -/
theorem runContainer_late (id : Nat) :
    (∃ e, (runContainer run id config line).2 = .err e) ∧
        (runContainer run id config line).1 ≠ [] ↔
      ∃ result, run line = .ok result ∧ result.success = true ∧
        NetworkFails run (trim result.output) := by
  unfold runContainer
  cases run line with
  | error e => simp
  | ok result =>
    cases hsuccess : result.success with
    | false => simp [hsuccess]
    | true => simp [hsuccess, ← getContainerNetworkInfo_err]

variable {image : String} {env : HashMap String String} {ports : List UInt16}
  {volumes : List String} (htarget : config.target = .docker image env ports volumes)
include htarget

/-- When a start of a container succeeds. -/
theorem start_ok (id : Nat) :
    (∃ service, (start run id config).2 = .ok service) ↔
      Starts run config.name (runCommand config.name image env ports volumes) := by
  unfold start Starts Clears
  rw [htarget]
  dsimp only
  rcases detectExistingContainer_cases run config.name with
    ⟨⟨e, hdetect⟩, hshows, hnone⟩ | ⟨hdetect, hshows, hnone⟩ | ⟨container, hdetect, hshows, hnone⟩
  · rw [hdetect]
    simp [hshows, hnone]
  · rw [hdetect]
    simp only [hshows, hnone, false_and, exists_false, true_or, true_and, false_or]
    exact runContainer_ok id
  · rw [hdetect]
    simp only [hshows, hnone, exists_eq_left, false_or]
    cases hrunning : container.isRunning with
    | true => simp [adoptContainer, getContainerNetworkInfo_ok]
    | false =>
      cases hremove : run (forceRemoveCommand container.id) with
      | error e => simp [Commands.not_launches hremove]
      | ok result =>
        simp only [Bool.false_eq_true, if_false, false_and, false_or,
          Commands.launches_of_ok hremove, true_and]
        exact runContainer_ok id

/-- When it fails with something left behind. -/
theorem start_late (id : Nat) :
    ((∃ e, (start run id config).2 = .err e) ∧ (start run id config).1 ≠ []) ↔
      FailsLate run config.name (runCommand config.name image env ports volumes) := by
  unfold start FailsLate Clears
  rw [htarget]
  dsimp only
  rcases detectExistingContainer_cases run config.name with
    ⟨⟨e, hdetect⟩, hshows, hnone⟩ | ⟨hdetect, hshows, hnone⟩ | ⟨container, hdetect, hshows, hnone⟩
  · rw [hdetect]
    simp [hshows, hnone]
  · rw [hdetect]
    simp only [hshows, hnone, false_and, exists_false, true_or, true_and, false_or]
    exact runContainer_late id
  · rw [hdetect]
    simp only [hshows, hnone, exists_eq_left, false_or]
    cases hrunning : container.isRunning with
    | true => simp
    | false =>
      cases hremove : run (forceRemoveCommand container.id) with
      | error e => simp [Commands.not_launches hremove, Commands.not_succeeds hremove]
      | ok result =>
        simp only [Bool.false_eq_true, if_false, Commands.launches_of_ok hremove,
          Commands.succeeds_of_ok hremove, true_and]
        cases hsuccess : result.success with
        | false =>
          simp only [Bool.false_eq_true, if_false, List.nil_append, false_and, false_or]
          exact runContainer_late id
        | true =>
          simp only [if_true, List.cons_append, ne_eq, reduceCtorEq, not_false_eq_true, and_true,
            true_and]
          exact runContainer_err id

end Start

/-- When a stop of a container succeeds. -/
theorem stop_ok (run : Commands) (service : RunningService) :
    (stop run service).2 = .ok () ↔ ∀ id, service.containerId = some id → Stops run id := by
  unfold stop
  cases service.containerId with
  | none => simp
  | some id =>
    simp only [Option.some.injEq, forall_eq', Stops]
    cases run (statusCommand id) with
    | error e => simp
    | ok inspected =>
      simp only [Except.ok.injEq, exists_eq_left']
      cases hinspected : inspected.success with
      | false => simp
      | true =>
        simp only [if_true, forall_const]
        split
        next =>
          cases hremove : run (forceRemoveCommand id) with
          | error e => simp [Commands.not_launches hremove]
          | ok result => simp [Commands.launches_of_ok hremove]
        next =>
          cases run (stopCommand id) with
          | error e => simp
          | ok result =>
            simp only [Except.ok.injEq, exists_eq_left']
            cases hstopped : result.success with
            | false => simp
            | true =>
              cases hremove : run (removeCommand id) with
              | error e => simp [Commands.not_launches hremove]
              | ok result => simp [Commands.launches_of_ok hremove]

end DockerExecutor

namespace ProcessExecutor

/-- `kill` can be run for the process, and again with `-9` where it fails. -/
def Kills (run : Commands) (pid : UInt32) : Prop :=
  ∃ result, run (killCommand pid) = .ok result ∧
    (result.success = false → run.Launches (forceKillCommand pid))

/-- When a stop of a process succeeds. -/
theorem stop_ok (processes : HashMap Nat ProcessInfo) (outside : Outside)
    (service : RunningService) :
    (stop processes outside service).2 = .ok () ↔
      service.id ∈ processes ∨ ∀ pid, service.pid = some pid → Kills outside.run pid := by
  unfold stop
  rw [← AList.lookup_isSome]
  cases processes.lookup service.id with
  | some handle =>
    simp only [Option.isSome_some, true_or, iff_true]
    cases outside.terminate with
    | ok => rfl
    | error e =>
      cases outside.kill with
      | ok => rfl
      | error e => rfl
  | none =>
    simp only [Option.isSome_none, Bool.false_eq_true, false_or]
    cases service.pid with
    | none => simp
    | some pid =>
      simp only [Option.some.injEq, forall_eq', Kills]
      cases outside.run (killCommand pid) with
      | error e => simp
      | ok result =>
        simp only [Except.ok.injEq, exists_eq_left']
        cases hkilled : result.success with
        | true => simp
        | false =>
          cases hforce : outside.run (forceKillCommand pid) with
          | error e => simp [Commands.not_launches hforce]
          | ok result => simp [Commands.launches_of_ok hforce]

section Start

variable {config : ServiceConfig} {binary : String} {args : List String}
  {env : HashMap String String} {workingDir : Option String}
  (htarget : config.target = .process binary args env workingDir)
include htarget

/-- When a start of a process succeeds. -/
theorem start_ok (processes : HashMap Nat ProcessInfo) (outside : Outside) (id : Nat) :
    (∃ service, (start processes outside id config).2 = .ok service) ↔
      ∃ handle, outside.launch ⟨binary, args, env, workingDir⟩ = .ok handle := by
  rcases start_cases htarget processes outside id with
    ⟨message, hlaunch, hstart⟩ | ⟨handle, hlaunch, hstart⟩
  · simp [hstart, hlaunch]
  · simp [hstart, hlaunch]

/-- No process is tracked that was not launched. -/
theorem start_err {processes : HashMap Nat ProcessInfo} {outside : Outside} {id : Nat}
    {e : Error} (h : (start processes outside id config).2 = .err e) :
    (start processes outside id config).1 = processes := by
  rcases start_cases htarget processes outside id with ⟨message, _, hstart⟩ | ⟨handle, _, hstart⟩
  · rw [hstart]
  · rw [hstart] at h
    cases h

end Start

end ProcessExecutor

/-! ## The executor of a service -/

/-- The executor of the target can start the service. -/
def Outside.Starts (outside : Outside) (config : ServiceConfig) : Prop :=
  match config.target with
  | .process binary args env workingDir =>
    ∃ handle, outside.launch ⟨binary, args, env, workingDir⟩ = .ok handle
  | .docker image env ports volumes =>
    DockerExecutor.Starts outside.run config.name
      (DockerExecutor.runCommand config.name image env ports volumes)
  | _ => False

/-- A start of a container fails after docker has changed something. -/
def Outside.FailsLate (outside : Outside) (config : ServiceConfig) : Prop :=
  match config.target with
  | .docker image env ports volumes =>
    DockerExecutor.FailsLate outside.run config.name
      (DockerExecutor.runCommand config.name image env ports volumes)
  | _ => False

/-- The executor of the target can stop the service. -/
def Outside.Stops (outside : Outside) (processes : HashMap Nat ProcessInfo)
    (service : RunningService) : Prop :=
  match service.config.target with
  | .process .. => service.id ∈ processes ∨
    ∀ pid, service.pid = some pid → ProcessExecutor.Kills outside.run pid
  | .docker .. => ∀ id, service.containerId = some id → DockerExecutor.Stops outside.run id
  | _ => False

namespace ServiceManager

variable {σ : Type}

/-- The processes and containers. -/
def SameExecutors (m m' : ServiceManager σ) : Prop :=
  m'.runningProcesses = m.runningProcesses ∧ m'.containers = m.containers

/-- When a launch succeeds, by the answers of the commands. -/
theorem launch_ok {config : ServiceConfig} {executor : ExecutorKind}
    (hexecutor : findExecutor config = .ok executor) (manager : ServiceManager σ)
    (outside : Outside) :
    (∃ service, (manager.launch outside config executor).2 = .ok service) ↔
      outside.Starts config := by
  unfold Outside.Starts
  rcases findExecutor_ok hexecutor with ⟨_, _, _, _, rfl, htarget⟩ | ⟨_, _, _, _, rfl, htarget⟩
  · rw [htarget]
    exact ProcessExecutor.start_ok htarget manager.runningProcesses outside manager.issued
  · rw [htarget]
    exact DockerExecutor.start_ok htarget manager.issued

/-- When a launch fails late, by the answers of the commands. -/
theorem launch_late {config : ServiceConfig} {executor : ExecutorKind}
    (hexecutor : findExecutor config = .ok executor) (manager : ServiceManager σ)
    (outside : Outside) :
    (∃ e, (manager.launch outside config executor).2 = .err e) ∧
        ¬ SameExecutors manager (manager.launch outside config executor).1 ↔
      outside.FailsLate config := by
  unfold Outside.FailsLate
  rcases findExecutor_ok hexecutor with ⟨_, _, _, _, rfl, htarget⟩ | ⟨_, _, _, _, rfl, htarget⟩
  · rw [htarget, iff_false]
    intro ⟨⟨e, herr⟩, hchanged⟩
    exact hchanged ⟨ProcessExecutor.start_err htarget herr, rfl⟩
  · rw [htarget]
    dsimp only
    rw [← DockerExecutor.start_late htarget manager.issued]
    simp [launch, SameExecutors]

/-- When a service is halted, by the answers of the commands. -/
theorem halts_iff (manager : ServiceManager σ) (outside : Outside) (service : RunningService) :
    manager.Halts outside service ↔ outside.Stops manager.runningProcesses service := by
  unfold Halts Outside.Stops
  constructor
  · rintro ⟨executor, hexecutor, hhalt⟩
    rcases findExecutor_ok hexecutor with ⟨_, _, _, _, rfl, htarget⟩ | ⟨_, _, _, _, rfl, htarget⟩
    · rw [htarget]
      exact (ProcessExecutor.stop_ok ..).mp hhalt
    · rw [htarget]
      exact (DockerExecutor.stop_ok ..).mp hhalt
  · intro h
    cases htarget : service.config.target with
    | process binary args env workingDir =>
      rw [htarget] at h
      exact ⟨.process, findExecutor_process htarget, (ProcessExecutor.stop_ok ..).mpr h⟩
    | docker image env ports volumes =>
      rw [htarget] at h
      exact ⟨.docker, findExecutor_docker htarget, (DockerExecutor.stop_ok ..).mpr h⟩
    | _ => simp [htarget] at h

/-- Without an executor nothing is started. -/
theorem not_starts {config : ServiceConfig} {e : Error} (h : findExecutor config = .error e)
    (outside : Outside) : ¬ outside.Starts config ∧ ¬ outside.FailsLate config := by
  unfold Outside.Starts Outside.FailsLate
  cases htarget : config.target with
  | process =>
    rw [findExecutor_process htarget] at h
    cases h
  | docker =>
    rw [findExecutor_docker htarget] at h
    cases h
  | _ => exact ⟨id, id⟩

/-- A start returns a service exactly if the name is free and not blank, and the executor
can start it. -/
theorem startService_ok_iff [RegistryBackend σ] (manager : ServiceManager σ)
    (env : Environment) (name : String) (config : ServiceConfig) :
    (∃ service, (manager.startService env name config).2 = .ok service) ↔
      name ∉ manager.activeServices ∧ isBlank name = false ∧ env.Starts config := by
  constructor
  · intro h
    obtain ⟨service, hok⟩ := h
    rcases manager.startService_cases env name config with
      ⟨_, hnone⟩ | ⟨after, started, hfree, hlaunched, hcases⟩
    · exact absurd hok (hnone service)
    · obtain ⟨executor, hexecutor, hlaunch⟩ := hlaunched
      have hstarts := (launch_ok hexecutor manager env.toOutside).mp ⟨started, by rw [hlaunch]⟩
      rcases hcases with ⟨_, hstart⟩ | ⟨hname, _⟩
      · rw [hstart] at hok
        cases hok
      · exact ⟨hfree, hname, hstarts⟩
  · intro h
    obtain ⟨hfree, hname, hstarts⟩ := h
    cases hexecutor : findExecutor config with
    | error e => exact absurd hstarts (not_starts hexecutor env.toOutside).1
    | ok executor =>
      obtain ⟨service, hlaunch⟩ := (launch_ok hexecutor manager env.toOutside).mpr hstarts
      obtain ⟨entry, _, _, _, hstart⟩ := startService_ok hfree hexecutor hlaunch hname
      exact ⟨service, by rw [hstart]⟩

end ServiceManager

end GraphHarness.Orchestration
