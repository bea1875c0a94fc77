import GraphHarness.Executor.Hops

/-!
# The channel for standard input (`backends/launcher.rs`, `stdin.rs`)

The launcher takes the channel from the command it is given and puts it into the
handle, next to the pipe of the process. A layer that builds a new command leaves
the channel behind.

> `stdinForwarded_iff` — **a stack of layers hands the channel on exactly if** all of
> its layers are local (or there is none to hand on).

The process itself is started by `spawn`, which is not part of the repository; all
that is used of it is that a process with a piped standard input has a pipe.

The channel moves in three steps: `prepare` leaves it in the command, `launch` takes it from
there, and the handle has it next to the pipe if the process was given one. A stack of layers
keeps it exactly as long as each layer hands the command itself on (`transformCommand_channel`).

Whether anybody reads from the channel is not a question of this module: the forwarding is
started by whoever takes the handle's stdin. The process is piped in all three streams, as the
source does, whether there is a channel or not.
-/

namespace GraphHarness.Executor

variable {χ π : Type}

/-! ## Launching -/

/-- What the standard input of a process is. -/
inductive Stdio where
  | inherit
  | piped
  deriving DecidableEq, Repr

/-- What `Command::prepare` and the launcher configure. -/
structure AsyncCommand where
  program : String
  args : List String
  envClear : Bool
  env : HashMap String String
  currentDir : Option String
  stdin : Stdio
  stdout : Stdio
  stderr : Stdio

/-- `prepare`. The channel is taken apart from the rest. -/
def Command.prepare (command : Command χ) : AsyncCommand where
  program := command.program
  args := command.args
  envClear := command.envClear
  env := command.env
  currentDir := command.currentDir
  stdin := .inherit
  stdout := .inherit
  stderr := .inherit

/-- A process; `π` is the type of its pipes. -/
structure Child (π : Type) where
  id : UInt32
  stdin : Option π
  stdout : Option π
  stderr : Option π

/-- `StdinHandle`. -/
structure StdinHandle (π χ : Type) where
  stdin : Option π
  channel : Option χ

/-- `StdinHandle::new`. -/
def StdinHandle.new (stdin : π) (channel : Option χ) : StdinHandle π χ where
  stdin := some stdin
  channel := channel

/-- `has_channel`. -/
def StdinHandle.hasChannel (handle : StdinHandle π χ) : Bool := handle.channel.isSome

/-- `LogSource`. -/
inductive LogSource where
  | stdout
  | stderr
  deriving DecidableEq, Repr

/-- What is left of a line, or `none` to drop it. -/
abbrev LogFilter := String → LogSource → Option String

/-- `NoOpFilter`, which keeps each line. -/
def noOpFilter : LogFilter := fun line _ => some line

/-- `ProcessEventStream`. -/
structure ProcessEventStream (π : Type) where
  serviceName : String
  stdout : Option π
  stderr : Option π
  filter : LogFilter
  startedSent : Bool
  childId : UInt32

/-- `LocalProcessHandle`. With `kill_on_drop` the process dies with its handle. -/
structure LocalProcessHandle (π χ : Type) where
  child : UInt32
  killOnDrop : Bool
  stdin : Option (StdinHandle π χ)

/-- `take_stdin_for_forwarding`: the handle with a channel, and what is left. -/
def LocalProcessHandle.takeStdinForForwarding (handle : LocalProcessHandle π χ) :
    Option (StdinHandle π χ) × LocalProcessHandle π χ :=
  match handle.stdin with
  | some stdin =>
    if stdin.hasChannel then (some stdin, { handle with stdin := none }) else (none, handle)
  | none => (none, handle)

/-- `Target`, without what the launcher does not look at. -/
inductive Target where
  | command | managedProcess | systemdService | systemdPortable | dockerContainer | composeService
  deriving DecidableEq, Repr

/-- `LocalLauncher::launch`. -/
def launch (spawn : AsyncCommand → Except String (Child π)) (target : Target)
    (command : Command χ) : Except String (ProcessEventStream π × LocalProcessHandle π χ) :=
  match target with
  | .command | .managedProcess =>
    let (stdinChannel, command) := command.takeStdinChannel
    let asyncCmd := { command.prepare with stdin := .piped, stdout := .piped, stderr := .piped }
    match spawn asyncCmd with
    | .ok child =>
      .ok (⟨"local_process", child.stdout, child.stderr, noOpFilter, false, child.id⟩,
        ⟨child.id, true, child.stdin.map (fun s => StdinHandle.new s stdinChannel)⟩)
    | .error e => .error ("Failed to spawn process: " ++ e)
  | _ => .error "Target type not yet implemented for LocalLauncher"

/-- `LayeredExecutor::execute` over the local launcher. -/
def execute (spawn : AsyncCommand → Except String (Child π)) (layers : List Layer) (target : Target)
    (command : Command χ) : Except String (ProcessEventStream π × LocalProcessHandle π χ) :=
  launch spawn target (transformCommand layers command)

/-- The channel of the command, or its absence, survives the layers, and shows in the
handle of every process that is started. -/
structure StdinForwarded (spawn : AsyncCommand → Except String (Child π)) (layers : List Layer)
    (command : Command χ) : Prop where
  carried : (transformCommand layers command).stdinChannel = command.stdinChannel
  handle : ∀ target events handle, execute spawn layers target command = .ok (events, handle) →
    ∃ stdin, handle.stdin = some stdin ∧ stdin.hasChannel = command.hasStdinChannel ∧
      handle.takeStdinForForwarding.1 = (if command.hasStdinChannel then some stdin else none) ∧
      stdin.channel = command.stdinChannel

/-! ## Where the channel goes -/

/-- The launcher hands on what it is given. -/
theorem launch_stdin {spawn : AsyncCommand → Except String (Child π)}
    (hpiped : ∀ asyncCmd child, asyncCmd.stdin = .piped → spawn asyncCmd = .ok child →
      child.stdin.isSome = true)
    {target : Target} {command : Command χ} {events : ProcessEventStream π}
    {handle : LocalProcessHandle π χ} (h : launch spawn target command = .ok (events, handle)) :
    ∃ stdin, handle.stdin = some stdin ∧ stdin.channel = command.stdinChannel := by
  cases target with
  | command | managedProcess =>
    simp only [launch] at h
    split at h
    next child hspawn =>
      obtain ⟨_, rfl⟩ := Prod.mk.inj (Except.ok.inj h)
      obtain ⟨pipe, hpipe⟩ := Option.isSome_iff_exists.mp (hpiped _ child rfl hspawn)
      exact ⟨StdinHandle.new pipe command.stdinChannel, by rw [hpipe]; rfl, rfl⟩
    next => simp at h
  | systemdService | systemdPortable | dockerContainer | composeService => simp [launch] at h

/-- The channel is taken for forwarding if there is one. -/
theorem takeStdinForForwarding_eq {handle : LocalProcessHandle π χ} {stdin : StdinHandle π χ}
    (h : handle.stdin = some stdin) :
    handle.takeStdinForForwarding.1 = if stdin.hasChannel then some stdin else none := by
  unfold LocalProcessHandle.takeStdinForForwarding
  rw [h]
  dsimp only
  split
  next => rfl
  next => rfl

/-- A local layer keeps the channel. -/
theorem stdinChannel_wrapLocal {layer : Layer} (h : layer.remote = none) (command : Command χ) :
    (layer.wrapCommand command).stdinChannel = command.stdinChannel := by
  obtain ⟨layer, rfl⟩ := remote_eq_none_iff.mp h
  obtain ⟨_, _, _, hchannel⟩ := command.setEnvs_frame layer.env
  show (applyWorkingDir (command.setEnvs layer.env) layer.workingDir).stdinChannel = _
  cases layer.workingDir with
  | none => exact hchannel
  | some dir => exact hchannel

/-- A new command has no channel. -/
theorem stdinChannel_wrapRemote {layer : Layer} {remote : Remote}
    (h : layer.remote = some remote) (command : Command χ) :
    (layer.wrapCommand command).stdinChannel = none := by
  cases layer with
  | localLayer layer => simp [Layer.remote] at h
  | sshLayer layer =>
    simp [Layer.wrapCommand, SshLayer.wrapCommand, Command.addArgs_eq, Command.new]
  | dockerLayer layer =>
    simp [Layer.wrapCommand, DockerLayer.wrapCommand, Command.addArgs_eq, Command.new]

/-- **No layer gives a command a channel.** -/
theorem transformCommand_noChannel : ∀ (layers : List Layer) (command : Command χ),
    command.stdinChannel = none → (transformCommand layers command).stdinChannel = none := by
  intro layers
  induction layers with
  | nil => intro command h; exact h
  | cons layer layers ih =>
    intro command h
    refine ih (layer.wrapCommand command) ?_
    cases hremote : layer.remote with
    | none => rw [stdinChannel_wrapLocal hremote, h]
    | some remote => exact stdinChannel_wrapRemote hremote command

/-- **A channel survives local layers only.** -/
theorem transformCommand_channel : ∀ (layers : List Layer) {command : Command χ} {channel : χ},
    command.stdinChannel = some channel →
      ((transformCommand layers command).stdinChannel = some channel ↔
        ∀ layer ∈ layers, layer.remote = none) := by
  intro layers
  induction layers with
  | nil => intro command channel h; simpa [transformCommand] using h
  | cons layer layers ih =>
    intro command channel h
    have hstep : transformCommand (layer :: layers) command =
      transformCommand layers (layer.wrapCommand command) := rfl
    rw [hstep, List.forall_mem_cons]
    cases hremote : layer.remote with
    | none =>
      rw [ih ((stdinChannel_wrapLocal hremote command).trans h)]
      simp
    | some remote =>
      -- lost here, and no later layer brings it back
      rw [transformCommand_noChannel layers _ (stdinChannel_wrapRemote hremote command)]
      simp

/-- **Standard input is forwarded through local layers only.** -/
theorem stdinForwarded_iff {spawn : AsyncCommand → Except String (Child π)}
    (hpiped : ∀ asyncCmd child, asyncCmd.stdin = .piped → spawn asyncCmd = .ok child →
      child.stdin.isSome = true) (layers : List Layer) (command : Command χ) :
    StdinForwarded spawn layers command ↔
      command.stdinChannel = none ∨ ∀ layer ∈ layers, ∃ inner, layer = .localLayer inner := by
  have hcarried : (transformCommand layers command).stdinChannel = command.stdinChannel ↔
      command.stdinChannel = none ∨ ∀ layer ∈ layers, ∃ inner, layer = .localLayer inner := by
    simp only [← remote_eq_none_iff]
    cases hchannel : command.stdinChannel with
    | none => simp [transformCommand_noChannel layers command hchannel]
    | some channel => simp [transformCommand_channel layers hchannel]
  rw [← hcarried]
  constructor
  · intro h
    exact h.carried
  · intro h
    refine ⟨h, ?_⟩
    intro target events handle hexecute
    obtain ⟨stdin, hstdin, hchannel⟩ := launch_stdin hpiped hexecute
    rw [h] at hchannel
    have hsame : stdin.hasChannel = command.hasStdinChannel := by
      rw [StdinHandle.hasChannel, hchannel]
      rfl
    exact ⟨stdin, hstdin, hsame, by rw [takeStdinForForwarding_eq hstdin, hsame], hchannel⟩

/-- A process that always starts, with the pipes it is configured for. -/
def spawnPiped (asyncCmd : AsyncCommand) : Except String (Child Unit) :=
  let pipe (stdio : Stdio) : Option Unit := if stdio = .piped then some () else none
  .ok ⟨1, pipe asyncCmd.stdin, pipe asyncCmd.stdout, pipe asyncCmd.stderr⟩

/-- `echo`, with a channel of stdin. -/
def echoWithChannel : Command Nat := ((Command.new "echo").arg "ssh layer test").setStdinChannel 7

/-- One local layer forwards stdin. -/
theorem stdinForwarded_local : StdinForwarded spawnPiped [.localLayer ⟨∅, none⟩] echoWithChannel :=
  (stdinForwarded_iff (by
    intro asyncCmd child hstdin hspawn
    obtain rfl := Except.ok.inj hspawn
    simp [hstdin]) _ _).mpr (Or.inr (by simp))

/-- **The channel does not survive an `ssh` layer.** -/
theorem not_stdinForwarded_ssh : ¬StdinForwarded spawnPiped
    [.sshLayer ⟨"localhost", none, none, [], ∅, none, false, false, false⟩] echoWithChannel := by
  intro h
  have hlost : (none : Option Nat) = some 7 := h.carried
  simp at hlost

end GraphHarness.Executor
