import GraphHarness.Executor.Command

/-!
# Execution layers (`layered/layers.rs`, `layered/executor.rs`)

How each layer wraps a command, and the fold over all of them. The wrapping never
fails, and the execution context is not looked at; both are left out of the types.
The first layer that is added is the innermost one.

`needs_quoting` and `shell_escape` work on characters, with the white space of Rust's
`char::is_whitespace`; the list of special characters is the source's own. The options of the
layers are written in the order in which the source pushes them.

`transformCommand` is the loop of `LayeredExecutor::execute`. An `OsStr` that is no UTF-8 would
be replaced by `to_string_lossy` in the source, and is left out here, as every string of the
model is text already.
-/

namespace GraphHarness.Executor

variable {χ : Type}

/-! ## Quoting -/

/-- The characters `shell_escape` looks for. -/
def specialChars : List Char := "\"'\\$`!*?<>|&;()[]\x7b\x7d".toList

/-- `needs_quoting`. -/
def needsQuoting (s : String) : Bool :=
  s.toList.any (fun c => isWhitespace c || specialChars.contains c)

/-- `s.replace('\'', "'\"'\"'")`. -/
def replaceQuotes (s : String) : String :=
  String.ofList (s.toList.flatMap (fun c => if c = '\'' then "'\"'\"'".toList else [c]))

/-- `shell_escape`. -/
def shellEscape (s : String) : String :=
  if needsQuoting s then "'" ++ replaceQuotes s ++ "'" else s

/-- `command_to_shell_string`. The program is not escaped. -/
def commandToShellString (command : Command χ) : String :=
  let args := command.args.map shellEscape
  if args = [] then command.program else command.program ++ " " ++ " ".intercalate args

/-! ## The layers -/

/-- `SshLayer`. -/
structure SshLayer where
  destination : String
  port : Option UInt16
  identityFile : Option String
  options : List String
  env : HashMap String String
  workingDir : Option String
  agentForwarding : Bool
  x11Forwarding : Bool
  allocateTty : Bool

/-- `DockerLayer`. -/
structure DockerLayer where
  container : String
  interactive : Bool
  tty : Bool
  user : Option String
  workdir : Option String
  env : HashMap String String

/-- `LocalLayer`. -/
structure LocalLayer where
  env : HashMap String String
  workingDir : Option String

/-- The options in front of the destination. -/
def SshLayer.optionArgs (layer : SshLayer) : List String :=
  (if layer.agentForwarding then ["-A"] else []) ++
  (if layer.x11Forwarding then ["-X"] else []) ++
  (if layer.allocateTty then ["-t"] else []) ++
  (match layer.port with
    | some port => ["-p", Nat.repr port.toNat]
    | none => []) ++
  (match layer.identityFile with
    | some identity => ["-i", identity]
    | none => []) ++
  layer.options

/-- The assignments in front of the remote command. -/
def envText (env : HashMap String String) : String :=
  if env.entries = [] then ""
  else " ".intercalate (env.entries.map
    (fun entry => shellEscape entry.1 ++ "=" ++ shellEscape entry.2)) ++ " "

/-- The change of directory in front of the remote command. -/
def cdText (workingDir : Option String) : String :=
  match workingDir with
  | some workdir => "cd " ++ shellEscape workdir ++ " && "
  | none => ""

/-- A directory that is set replaces the command's. -/
def applyWorkingDir (command : Command χ) : Option String → Command χ
  | some workdir => command.setCurrentDir workdir
  | none => command

/-- The layer's environment and directory are set on the inner command, which is
then written out as a text: without either. -/
def SshLayer.wrapCommand (layer : SshLayer) (command : Command χ) : Command χ :=
  let command := applyWorkingDir (command.setEnvs layer.env) layer.workingDir
  (((Command.new "ssh").addArgs layer.optionArgs).arg layer.destination).arg
    (envText layer.env ++ cdText layer.workingDir ++ commandToShellString command)

/-- The flags in front of the container. -/
def DockerLayer.optionArgs (layer : DockerLayer) : List String :=
  (if layer.interactive then ["-i"] else []) ++
  (if layer.tty then ["-t"] else []) ++
  (match layer.user with
    | some user => ["-u", user]
    | none => []) ++
  (match layer.workdir with
    | some workdir => ["-w", workdir]
    | none => []) ++
  layer.env.entries.flatMap (fun entry => ["-e", entry.1 ++ "=" ++ entry.2])

/-- `wrap_command` of the docker layer; the inner environment and directory are not carried over. -/
def DockerLayer.wrapCommand (layer : DockerLayer) (command : Command χ) : Command χ :=
  (((((Command.new "docker").arg "exec").addArgs layer.optionArgs).arg layer.container).addArgs
    ["sh", "-c"]).arg (commandToShellString command)

/-- `wrap_command` of the local layer, which keeps the command. -/
def LocalLayer.wrapCommand (layer : LocalLayer) (command : Command χ) : Command χ :=
  applyWorkingDir (command.setEnvs layer.env) layer.workingDir

/-- `ExecutionLayer`. -/
inductive Layer where
  | localLayer (layer : LocalLayer)
  | sshLayer (layer : SshLayer)
  | dockerLayer (layer : DockerLayer)

/-- The variables a layer sets. -/
def Layer.env : Layer → HashMap String String
  | .localLayer layer => layer.env
  | .sshLayer layer => layer.env
  | .dockerLayer layer => layer.env

/-- The directory a layer asks for. -/
def Layer.workingDir : Layer → Option String
  | .localLayer layer => layer.workingDir
  | .sshLayer layer => layer.workingDir
  | .dockerLayer layer => layer.workdir

/-- `wrap_command` of whichever layer it is. -/
def Layer.wrapCommand (layer : Layer) (command : Command χ) : Command χ :=
  match layer with
  | .localLayer layer => layer.wrapCommand command
  | .sshLayer layer => layer.wrapCommand command
  | .dockerLayer layer => layer.wrapCommand command

/-- The command that `LayeredExecutor::execute` hands to the launcher. -/
def transformCommand (layers : List Layer) (command : Command χ) : Command χ :=
  layers.foldl (fun command layer => layer.wrapCommand command) command

end GraphHarness.Executor
