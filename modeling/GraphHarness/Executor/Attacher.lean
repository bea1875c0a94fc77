import GraphHarness.Executor.Joined

/-!
# Attachment layers (`layered/attacher.rs`, `target.rs`)

A layer changes the commands of the service that is attached to (`transform_target`),
and the handle that comes back (`wrap_handle`). The SSH layer leaves four of the six
commands where they are, and does not quote the other two:

> `runsRemotely_iff` — a command of the service runs behind `ssh` **if and only if** it is
> the status or the log command and nothing in it needs quotes; so that never all of
> them do.

`LayeredAttacher::attach` never calls `transform_target`:

> `takesEffect_iff` — attaching through the layers is attaching to the transformed service
> **if and only if** all layers are local, or the service already has the commands that
> the layers make.

Both results are read off what the layers do to the commands. A command behind one `ssh` after
the other has two arguments more for each (`length_args_behind`), so a wrapped command is never
the one it was; a docker layer replaces the status and the log command, whatever they were, so
only the last docker layer and the hosts behind it count (`exists_last_docker`).

The attacher, the handles and their events are parameters: `attach` of the innermost attacher
is not part of the layers, and it gets the target as it is. The event stream of a handle is
passed on by every layer.
-/

namespace GraphHarness.Executor

open Shell

variable {χ : Type}

/-- `ManagedService`. -/
structure ManagedService (χ : Type) where
  name : String
  statusCommand : Command χ
  startCommand : Command χ
  stopCommand : Command χ
  restartCommand : Option (Command χ)
  reloadCommand : Option (Command χ)
  logCommand : Command χ

/-- What the commands of a service are for. -/
inductive Purpose where
  | status
  | start
  | stop
  | restart
  | reload
  | log
  deriving DecidableEq

/-- The command of a purpose; two of them are optional. -/
def ManagedService.command (service : ManagedService χ) : Purpose → Option (Command χ)
  | .status => some service.statusCommand
  | .start => some service.startCommand
  | .stop => some service.stopCommand
  | .restart => service.restartCommand
  | .reload => service.reloadCommand
  | .log => some service.logCommand

/-! ## The layers -/

/-- `SshAttachmentLayer`. -/
structure SshAttachmentLayer where
  sshTarget : String

/-- `DockerAttachmentLayer`. -/
structure DockerAttachmentLayer where
  containerId : String

/-- `LocalAttachmentLayer`. -/
structure LocalAttachmentLayer where
  servicePrefix : Option String

/-- `Command::new("ssh")` with the target, the program and the arguments: a new
command, without the environment and the directory of the old one. -/
def SshAttachmentLayer.wrapCommand (layer : SshAttachmentLayer) (command : Command χ) : Command χ :=
  (((Command.new "ssh").addArgs [layer.sshTarget]).addArgs [command.program]).addArgs command.args

/-- `transform_target` of the ssh layer: the status and the log are wrapped, the rest is kept. -/
def SshAttachmentLayer.transformTarget (layer : SshAttachmentLayer) (target : ManagedService χ) :
    ManagedService χ :=
  { target with
    statusCommand := layer.wrapCommand target.statusCommand
    logCommand := layer.wrapCommand target.logCommand }

/-- Is the container running? -/
def DockerAttachmentLayer.inspectCommand (layer : DockerAttachmentLayer) : Command χ :=
  ((((Command.new "docker").arg "inspect").arg "-f").arg "\x7b\x7b.State.Running\x7d\x7d").arg
    layer.containerId

/-- `docker logs -f`. -/
def DockerAttachmentLayer.logsCommand (layer : DockerAttachmentLayer) : Command χ :=
  (((Command.new "docker").arg "logs").arg "-f").arg layer.containerId

/-- `transform_target` of the docker layer: the commands are replaced, not wrapped. -/
def DockerAttachmentLayer.transformTarget (layer : DockerAttachmentLayer)
    (target : ManagedService χ) : ManagedService χ :=
  { target with
    statusCommand := layer.inspectCommand
    logCommand := layer.logsCommand }

/-- `transform_target` of the local layer, which changes nothing. -/
def LocalAttachmentLayer.transformTarget (_ : LocalAttachmentLayer) (target : ManagedService χ) :
    ManagedService χ := target

/-- `Box<dyn AttachmentLayer>`. -/
inductive AttachmentLayer where
  | localLayer (layer : LocalAttachmentLayer)
  | sshLayer (layer : SshAttachmentLayer)
  | dockerLayer (layer : DockerAttachmentLayer)

/-- `transform_target` of whichever layer it is. -/
def AttachmentLayer.transformTarget (layer : AttachmentLayer) (target : ManagedService χ) :
    ManagedService χ :=
  match layer with
  | .localLayer layer => layer.transformTarget target
  | .sshLayer layer => layer.transformTarget target
  | .dockerLayer layer => layer.transformTarget target

/-- The target through all layers, the first one first. -/
def transformTargets (layers : List AttachmentLayer) (target : ManagedService χ) :
    ManagedService χ :=
  layers.foldl (fun target layer => layer.transformTarget target) target

/-! ## What runs behind `ssh` -/

/-- The command that a layer of ssh makes, in full. -/
theorem SshAttachmentLayer.wrapCommand_eq (layer : SshAttachmentLayer) (command : Command χ) :
    layer.wrapCommand command =
      { Command.new "ssh" with args := layer.sshTarget :: command.program :: command.args } := by
  simp [SshAttachmentLayer.wrapCommand, Command.addArgs_eq, Command.new]

/-- `wrapped` is `ssh <target> …`, and the remote shell reads the words of `original`
from it. -/
def RunsRemotely (sshTarget : String) (original wrapped : Command χ) : Prop :=
  wrapped.program = "ssh" ∧ ∃ words, wrapped.args = sshTarget :: words ∧
    readArgv (joined words) = some original.argv

/-- Every command of the service runs remotely. -/
def SshAttachmentLayer.Attaches (layer : SshAttachmentLayer) (target : ManagedService χ) : Prop :=
  ∀ purpose, ∀ original ∈ target.command purpose,
    ∃ wrapped ∈ (layer.transformTarget target).command purpose,
      RunsRemotely layer.sshTarget original wrapped

/-- Nothing in the command needs quotes. -/
def PlainCommand (command : Command χ) : Prop :=
  PlainProgram command.program ∧ command.program ∉ reservedWords ∧
    ∀ a ∈ command.args, PlainWord a

/-- The command runs on the host if and only if it is a plain one. -/
theorem runsRemotely_wrapCommand_iff (layer : SshAttachmentLayer) (command : Command χ) :
    RunsRemotely layer.sshTarget command (layer.wrapCommand command) ↔ PlainCommand command := by
  rw [layer.wrapCommand_eq, RunsRemotely]
  constructor
  · intro ⟨_, words, hwords, hread⟩
    obtain ⟨_, rfl⟩ := List.cons.inj hwords
    exact (readArgv_joined_iff command.program command.args).mp hread
  · intro hplain
    exact ⟨rfl, _, rfl, (readArgv_joined_iff command.program command.args).mpr hplain⟩

/-- A command that is left as it is does not run remotely, not even one that is an
`ssh` itself: the remote shell would have to read the whole of it from a part of it. -/
theorem not_runsRemotely_self (sshTarget : String) (command : Command χ) :
    ¬ RunsRemotely sshTarget command command := by
  intro ⟨hprogram, words, hargs, hread⟩
  rw [Command.argv, hprogram, hargs] at hread
  exact @readArgv_joined_ne ["ssh", sshTarget] (Nat.le_refl 2) words hread

/-- What becomes of each command. -/
theorem SshAttachmentLayer.command_transformTarget (layer : SshAttachmentLayer)
    (target : ManagedService χ) (purpose : Purpose) :
    (layer.transformTarget target).command purpose =
      (target.command purpose).map
        (if purpose = .status ∨ purpose = .log then layer.wrapCommand else id) := by
  cases purpose with
  | status => rfl
  | log => rfl
  | start => rfl
  | stop => rfl
  | restart => simp [ManagedService.command, SshAttachmentLayer.transformTarget]
  | reload => simp [ManagedService.command, SshAttachmentLayer.transformTarget]

/-- A layer of ssh never attaches. -/
theorem SshAttachmentLayer.not_attaches (layer : SshAttachmentLayer) (target : ManagedService χ) :
    ¬ layer.Attaches target := by
  intro h
  -- the start command is there, and is left as it is
  obtain ⟨wrapped, hwrapped, hruns⟩ := h .start target.startCommand rfl
  obtain rfl : target.startCommand = wrapped := Option.some.inj hwrapped
  exact not_runsRemotely_self _ _ hruns

/-- **Exactly the plain status and log commands run remotely**, and never all
commands of a service. -/
theorem SshAttachmentLayer.runsRemotely_iff (layer : SshAttachmentLayer)
    (target : ManagedService χ) :
    (∀ purpose, ∀ original ∈ target.command purpose,
      ∀ wrapped ∈ (layer.transformTarget target).command purpose,
        (RunsRemotely layer.sshTarget original wrapped ↔
          (purpose = .status ∨ purpose = .log) ∧ PlainCommand original)) ∧
      ¬ layer.Attaches target := by
  refine ⟨?_, layer.not_attaches target⟩
  intro purpose original horiginal wrapped hwrapped
  rw [layer.command_transformTarget, Option.mem_def.mp horiginal] at hwrapped
  by_cases hpurpose : purpose = .status ∨ purpose = .log
  · rw [if_pos hpurpose] at hwrapped
    obtain rfl := Option.some.inj hwrapped
    rw [runsRemotely_wrapCommand_iff]
    exact ⟨fun hplain => ⟨hpurpose, hplain⟩, fun h => h.2⟩
  · rw [if_neg hpurpose] at hwrapped
    obtain rfl : original = wrapped := Option.some.inj hwrapped
    exact ⟨fun hruns => absurd hruns (not_runsRemotely_self _ _), fun h => absurd h.1 hpurpose⟩

/-- The service of the source's own tests. -/
def nginx : ManagedService Unit where
  name := "test-service"
  statusCommand := ((Command.new "systemctl").arg "is-active").arg "nginx"
  startCommand := ((Command.new "systemctl").arg "start").arg "nginx"
  stopCommand := ((Command.new "systemctl").arg "stop").arg "nginx"
  restartCommand := none
  reloadCommand := none
  logCommand := (((Command.new "journalctl").arg "-u").arg "nginx").arg "-f"

/-- A web server behind one layer of ssh. -/
theorem SshAttachmentLayer.nginx_not_attached :
    ¬ SshAttachmentLayer.Attaches ⟨"user@remote"⟩ nginx := by
  intro h
  obtain ⟨wrapped, hwrapped, hprogram, _⟩ := h .start nginx.startCommand rfl
  obtain rfl : nginx.startCommand = wrapped := Option.some.inj hwrapped
  exact absurd hprogram (by decide)

/-! ## Attaching through the layers -/

/-- `AttachConfig`. -/
structure AttachConfig where
  followFromStart : Bool
  historyLines : Option USize
  timeoutSeconds : Option UInt64

/-- `ServiceStatus` of the executor. -/
inductive ServiceStatus where
  | running
  | stopped
  | failed
  | unknown
  deriving DecidableEq

/-- `AttachedHandle`: what its methods find out and change is the world `σ`, with the
errors `ε`. -/
structure AttachedHandle (σ ε : Type) where
  id : String
  status : σ → Except ε ServiceStatus × σ
  disconnect : σ → Except ε Unit × σ

/-- `Attacher`: `τ` is its target, `S` the type of its event streams. -/
structure Attacher (τ S σ ε : Type) where
  attach : τ → AttachConfig → σ → Except ε (S × AttachedHandle σ ε) × σ

variable {τ S σ ε : Type}

/-- `SshWrappedHandle`: a status that is asked for is asked of the inner handle. -/
def SshAttachmentLayer.wrapHandle (layer : SshAttachmentLayer) (handle : AttachedHandle σ ε) :
    AttachedHandle σ ε :=
  { handle with id := "ssh:" ++ layer.sshTarget ++ "/" ++ handle.id }

/-- `DockerWrappedHandle`. -/
def DockerAttachmentLayer.wrapHandle (layer : DockerAttachmentLayer)
    (handle : AttachedHandle σ ε) : AttachedHandle σ ε :=
  { handle with id := "docker:" ++ layer.containerId ++ "/" ++ handle.id }

/-- `wrap_handle` of the local layer. -/
def LocalAttachmentLayer.wrapHandle (_ : LocalAttachmentLayer) (handle : AttachedHandle σ ε) :
    AttachedHandle σ ε := handle

/-- `wrap_handle` of whichever layer it is. -/
def AttachmentLayer.wrapHandle (layer : AttachmentLayer) (handle : AttachedHandle σ ε) :
    AttachedHandle σ ε :=
  match layer with
  | .localLayer layer => layer.wrapHandle handle
  | .sshLayer layer => layer.wrapHandle handle
  | .dockerLayer layer => layer.wrapHandle handle

/-- The trait's default; no layer has its own. -/
def AttachmentLayer.wrapEventStream (_ : AttachmentLayer) (stream : S) : S := stream

/-- What `with_layer` has put together: the layers in their order. -/
structure LayeredAttacher (τ S σ ε : Type) where
  attacher : Attacher τ S σ ε
  layers : List AttachmentLayer

namespace LayeredAttacher

/-- The streams go through the layers forwards, the handles backwards. -/
def wrap (layered : LayeredAttacher τ S σ ε) (attached : S × AttachedHandle σ ε) :
    S × AttachedHandle σ ε :=
  (layered.layers.foldl (fun stream layer => layer.wrapEventStream stream) attached.1,
    layered.layers.reverse.foldl (fun handle layer => layer.wrapHandle handle) attached.2)

/-- `LayeredAttacher::attach`. The layers see the handle and not the target. -/
def attach (layered : LayeredAttacher τ S σ ε) (target : τ) (config : AttachConfig) (world : σ) :
    Except ε (S × AttachedHandle σ ε) × σ :=
  -- `target.clone()`, for whatever type of target
  let finalTarget := target
  let (attached, world) := layered.attacher.attach finalTarget config world
  (attached.map layered.wrap, world)

/-- What attaching through layers is for: the attacher gets the target as the layers
have transformed it. -/
def attachTransformed (layered : LayeredAttacher (ManagedService χ) S σ ε)
    (target : ManagedService χ) (config : AttachConfig) (world : σ) :
    Except ε (S × AttachedHandle σ ε) × σ :=
  let (attached, world) :=
    layered.attacher.attach (transformTargets layered.layers target) config world
  (attached.map layered.wrap, world)

/-- The part of the handle's `id` that a layer adds. -/
def idPrefix : AttachmentLayer → String
  | .localLayer _ => ""
  | .sshLayer layer => "ssh:" ++ layer.sshTarget ++ "/"
  | .dockerLayer layer => "docker:" ++ layer.containerId ++ "/"

/-- The wrapped handle names the layers, the first one first, and asks the inner
handle everything else. -/
theorem wrap_eq (layered : LayeredAttacher τ S σ ε) (stream : S) (handle : AttachedHandle σ ε) :
    layered.wrap (stream, handle) = (stream, { handle with
      id := layered.layers.foldr (fun layer id => idPrefix layer ++ id) handle.id }) := by
  obtain ⟨attacher, layers⟩ := layered
  rw [wrap, Prod.mk.injEq]
  constructor
  · induction layers with
    | nil => rfl
    | cons layer layers ih => exact ih
  · dsimp only
    rw [List.foldl_reverse]
    induction layers with
    | nil => rfl
    | cons layer layers ih =>
      rw [List.foldr_cons, ih]
      cases layer with
      | localLayer layer =>
        simp [AttachmentLayer.wrapHandle, LocalAttachmentLayer.wrapHandle, idPrefix]
      | sshLayer layer => rfl
      | dockerLayer layer => rfl

/-- Attaching is attaching to the transformed target, whatever attacher is underneath. -/
def TakesEffect (layers : List AttachmentLayer) (target : ManagedService χ) : Prop :=
  ∀ (S σ ε : Type) (attacher : Attacher (ManagedService χ) S σ ε) (config : AttachConfig)
    (world : σ), attach ⟨attacher, layers⟩ target config world =
      attachTransformed ⟨attacher, layers⟩ target config world

/-- As the target is not transformed, it has to be the same. -/
theorem takesEffect_iff_eq {layers : List AttachmentLayer} {target : ManagedService χ} :
    TakesEffect layers target ↔ transformTargets layers target = target := by
  constructor
  · intro h
    -- an attacher that tells what it was called with
    let handle : AttachedHandle Unit Unit :=
      ⟨"", fun _ => (.ok .unknown, ()), fun _ => (.ok (), ())⟩
    let attacher : Attacher (ManagedService χ) (ManagedService χ) Unit Unit :=
      ⟨fun target _ _ => (.ok (target, handle), ())⟩
    have hcalled := h _ _ _ attacher ⟨false, none, none⟩ ()
    have hok := (Prod.mk.inj hcalled).1
    simp only [attacher, Except.map, wrap_eq, Except.ok.injEq, Prod.mk.injEq] at hok
    exact hok.1.symm
  · intro h S σ ε attacher config world
    rw [attachTransformed, h]
    rfl

end LayeredAttacher

/-! ## When the target stays the same -/

/-- The SSH layers of a stack. -/
def AttachmentLayer.ssh : AttachmentLayer → Option SshAttachmentLayer
  | .sshLayer layer => some layer
  | _ => none

/-- A docker layer. -/
def AttachmentLayer.isDocker : AttachmentLayer → Bool
  | .dockerLayer _ => true
  | _ => false

/-- A command behind one `ssh` after the other. -/
def behind (hosts : List SshAttachmentLayer) (command : Command χ) : Command χ :=
  hosts.foldl (fun command layer => layer.wrapCommand command) command

/-- Each hop adds two arguments. -/
theorem length_args_behind (hosts : List SshAttachmentLayer) (command : Command χ) :
    (behind hosts command).args.length = command.args.length + 2 * hosts.length := by
  induction hosts generalizing command with
  | nil => rfl
  | cons layer hosts ih =>
    have hstep : behind (layer :: hosts) command = behind hosts (layer.wrapCommand command) := rfl
    rw [hstep, ih, layer.wrapCommand_eq]
    simp only [List.length_cons]
    omega

/-- What a layer makes of a command that a Docker layer replaces. -/
def AttachmentLayer.wrapCommand (replaced : DockerAttachmentLayer → Command χ)
    (command : Command χ) : AttachmentLayer → Command χ
  | .localLayer _ => command
  | .sshLayer layer => layer.wrapCommand command
  | .dockerLayer layer => replaced layer

/-- What all layers together make of a target. -/
theorem transformTargets_eq (layers : List AttachmentLayer) (target : ManagedService χ) :
    transformTargets layers target =
      { target with
        statusCommand := layers.foldl
          (AttachmentLayer.wrapCommand DockerAttachmentLayer.inspectCommand) target.statusCommand
        logCommand := layers.foldl
          (AttachmentLayer.wrapCommand DockerAttachmentLayer.logsCommand) target.logCommand } := by
  induction layers generalizing target with
  | nil => rfl
  | cons layer layers ih =>
    have hstep : transformTargets (layer :: layers) target =
        transformTargets layers (layer.transformTarget target) := rfl
    rw [hstep, ih]
    cases layer with
    | localLayer layer => rfl
    | sshLayer layer => rfl
    | dockerLayer layer => rfl

/-- Without a Docker layer there are only the hosts. -/
theorem foldl_wrapCommand {layers : List AttachmentLayer}
    (h : ∀ layer ∈ layers, layer.isDocker = false) (replaced : DockerAttachmentLayer → Command χ)
    (command : Command χ) : layers.foldl (AttachmentLayer.wrapCommand replaced) command =
      behind (layers.filterMap AttachmentLayer.ssh) command := by
  induction layers generalizing command with
  | nil => rfl
  | cons layer layers ih =>
    obtain ⟨hlayer, hlayers⟩ := List.forall_mem_cons.mp h
    rw [List.foldl_cons, ih hlayers]
    cases layer with
    | localLayer layer => rfl
    | sshLayer layer => rfl
    | dockerLayer layer => simp [AttachmentLayer.isDocker] at hlayer

/-- The last Docker layer, if there is one. -/
theorem exists_last_docker (layers : List AttachmentLayer) :
    (∀ layer ∈ layers, layer.isDocker = false) ∨
      ∃ before docker after, layers = before ++ .dockerLayer docker :: after ∧
        ∀ layer ∈ after, layer.isDocker = false := by
  induction layers with
  | nil => exact Or.inl (by simp)
  | cons layer layers ih =>
    rcases ih with hnone | ⟨before, docker, after, rfl, hafter⟩
    · cases layer with
      | dockerLayer docker => exact Or.inr ⟨[], docker, layers, rfl, hnone⟩
      | localLayer inner => exact Or.inl (List.forall_mem_cons.mpr ⟨rfl, hnone⟩)
      | sshLayer inner => exact Or.inl (List.forall_mem_cons.mpr ⟨rfl, hnone⟩)
    · exact Or.inr ⟨layer :: before, docker, after, rfl, hafter⟩

/-- All layers are local, or the target already has the commands of the last Docker
layer behind the hosts that come after it. -/
def AlreadyTransformed (layers : List AttachmentLayer) (target : ManagedService χ) : Prop :=
  (∀ layer ∈ layers, ∃ inner, layer = .localLayer inner) ∨
    ∃ before docker after, layers = before ++ .dockerLayer docker :: after ∧
      (∀ layer ∈ after, layer.isDocker = false) ∧
      target.statusCommand = behind (after.filterMap AttachmentLayer.ssh) docker.inspectCommand ∧
      target.logCommand = behind (after.filterMap AttachmentLayer.ssh) docker.logsCommand

/-- From the last Docker layer on, the command that was there does not count. -/
theorem foldl_wrapCommand_docker (before : List AttachmentLayer) (docker : DockerAttachmentLayer)
    {after : List AttachmentLayer} (hafter : ∀ layer ∈ after, layer.isDocker = false)
    (replaced : DockerAttachmentLayer → Command χ) (command : Command χ) :
    (before ++ .dockerLayer docker :: after).foldl (AttachmentLayer.wrapCommand replaced) command =
      behind (after.filterMap AttachmentLayer.ssh) (replaced docker) := by
  rw [List.foldl_append, List.foldl_cons, foldl_wrapCommand hafter]
  rfl

/-- The layers change nothing if and only if the target is transformed already. -/
theorem transformTargets_eq_self_iff {layers : List AttachmentLayer} {target : ManagedService χ} :
    transformTargets layers target = target ↔ AlreadyTransformed layers target := by
  rw [transformTargets_eq]
  constructor
  · intro h
    have hstatus := congrArg ManagedService.statusCommand h
    have hlog := congrArg ManagedService.logCommand h
    dsimp only at hstatus hlog
    rcases exists_last_docker layers with hnone | ⟨before, docker, after, rfl, hafter⟩
    · -- every host would add two arguments
      rw [foldl_wrapCommand hnone] at hstatus
      have hlength := length_args_behind (layers.filterMap AttachmentLayer.ssh) target.statusCommand
      rw [hstatus] at hlength
      have hhosts : layers.filterMap AttachmentLayer.ssh = [] :=
        List.eq_nil_of_length_eq_zero (by omega)
      refine Or.inl ?_
      intro layer hlayer
      have hssh := List.filterMap_eq_nil_iff.mp hhosts layer hlayer
      have hdocker := hnone layer hlayer
      cases layer with
      | localLayer inner => exact ⟨inner, rfl⟩
      | sshLayer inner => simp [AttachmentLayer.ssh] at hssh
      | dockerLayer inner => simp [AttachmentLayer.isDocker] at hdocker
    · rw [foldl_wrapCommand_docker before docker hafter] at hstatus hlog
      exact Or.inr ⟨before, docker, after, rfl, hafter, hstatus.symm, hlog.symm⟩
  · intro h
    rcases h with hlocal | ⟨before, docker, after, rfl, hafter, hstatus, hlog⟩
    · have hself : ∀ (replaced : DockerAttachmentLayer → Command χ) (command : Command χ),
          layers.foldl (AttachmentLayer.wrapCommand replaced) command = command := by
        intro replaced command
        induction layers with
        | nil => rfl
        | cons layer layers ih =>
          obtain ⟨⟨inner, rfl⟩, hlayers⟩ := List.forall_mem_cons.mp hlocal
          exact ih hlayers
      rw [hself, hself]
    · rw [foldl_wrapCommand_docker before docker hafter,
        foldl_wrapCommand_docker before docker hafter, ← hstatus, ← hlog]

/-- **The layers take effect** exactly where they have nothing to change. -/
theorem LayeredAttacher.takesEffect_iff (layers : List AttachmentLayer)
    (target : ManagedService χ) :
    TakesEffect layers target ↔ AlreadyTransformed layers target := by
  rw [takesEffect_iff_eq, transformTargets_eq_self_iff]

/-- Attached to over SSH, the service is looked for on this machine. -/
theorem LayeredAttacher.nginx_not_takesEffect :
    ¬ TakesEffect [.sshLayer ⟨"user@remote"⟩] nginx := by
  intro h
  have hself := congrArg (fun target => target.statusCommand.program) (takesEffect_iff_eq.mp h)
  exact absurd hself (by decide)

end GraphHarness.Executor
