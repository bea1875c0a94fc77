import GraphHarness.Collections

/-!
# Commands (`command-executor/src/command.rs`)

The builder the executors work with, its fields as they are set. Programs,
arguments and paths are `OsString`s in the source; here they are strings. `χ` is
the type of the channel lines for the standard input come from.

The environment is a map, so setting a variable twice keeps the later value. `setEnvs` is the
loop that layers use, and `lookup_setEnvs` says what a variable is afterwards: that of the map
which was set last, if it has it.

A channel is only handed on here, so its type stays open. `takeStdinChannel` leaves the
command without a channel, as `Option::take` does; a function that takes `&mut self` in the
source returns the changed command next to its result.
-/

namespace GraphHarness.Executor

/-- `Command`. The channel of stdin stays abstract. -/
structure Command (χ : Type) where
  program : String
  args : List String
  env : HashMap String String
  currentDir : Option String
  envClear : Bool
  stdinChannel : Option χ

namespace Command

variable {χ : Type}

/-- `Command::new`. -/
def new (program : String) : Command χ where
  program := program
  args := []
  env := ∅
  currentDir := none
  envClear := false
  stdinChannel := none

/-- `Command::arg`. -/
def arg (command : Command χ) (arg : String) : Command χ :=
  { command with args := command.args ++ [arg] }

/-- `args`: one `arg` after the other. -/
def addArgs (command : Command χ) (args : List String) : Command χ := args.foldl arg command

/-- `Command::env`. -/
def setEnv (command : Command χ) (key val : String) : Command χ :=
  { command with env := command.env.insert key val }

/-- The loop `for (key, value) in &layer.env { command.env(key, value) }`. -/
def setEnvs (command : Command χ) (env : HashMap String String) : Command χ :=
  env.entries.foldl (fun command entry => command.setEnv entry.1 entry.2) command

/-- `Command::current_dir`. -/
def setCurrentDir (command : Command χ) (dir : String) : Command χ :=
  { command with currentDir := some dir }

/-- `Command::stdin_channel`. -/
def setStdinChannel (command : Command χ) (receiver : χ) : Command χ :=
  { command with stdinChannel := some receiver }

/-- `has_stdin_channel`. -/
def hasStdinChannel (command : Command χ) : Bool := command.stdinChannel.isSome

/-- `take_stdin_channel`: the channel, and the command without it. -/
def takeStdinChannel (command : Command χ) : Option χ × Command χ :=
  (command.stdinChannel, { command with stdinChannel := none })

/-- The argument vector of the process. -/
def argv (command : Command χ) : List String := command.program :: command.args

@[simp] theorem arg_program (command : Command χ) (a : String) :
    (command.arg a).program = command.program := rfl

@[simp] theorem arg_args (command : Command χ) (a : String) :
    (command.arg a).args = command.args ++ [a] := rfl

@[simp] theorem arg_stdinChannel (command : Command χ) (a : String) :
    (command.arg a).stdinChannel = command.stdinChannel := rfl

/-- The arguments are added behind those there. -/
theorem addArgs_eq (command : Command χ) (args : List String) :
    command.addArgs args = { command with args := command.args ++ args } := by
  induction args generalizing command with
  | nil => simp [addArgs]
  | cons a args ih =>
    have hstep : command.addArgs (a :: args) = (command.arg a).addArgs args := rfl
    rw [hstep, ih]
    simp [arg]

/-- What `setEnvs` leaves alone. -/
theorem setEnvs_frame (command : Command χ) (env : HashMap String String) :
    (command.setEnvs env).program = command.program ∧
      (command.setEnvs env).args = command.args ∧
      (command.setEnvs env).currentDir = command.currentDir ∧
      (command.setEnvs env).stdinChannel = command.stdinChannel := by
  unfold setEnvs
  induction env.entries generalizing command with
  | nil => exact ⟨rfl, rfl, rfl, rfl⟩
  | cons entry entries ih => exact ih (command.setEnv entry.1 entry.2)

/-- Setting the entries of a map: the value of an entry, or the one from before. -/
theorem lookup_foldl_setEnv (key : String) : ∀ (entries : List (Σ _ : String, String)),
    entries.NodupKeys → ∀ (command : Command χ),
      (entries.foldl (fun command entry => command.setEnv entry.1 entry.2) command).env.lookup key =
        (List.dlookup key entries).or (command.env.lookup key) := by
  intro entries
  induction entries with
  | nil => intro _ command; simp
  | cons entry entries ih =>
    intro hnodup command
    obtain ⟨key', val⟩ := entry
    obtain ⟨hnew, hnodup⟩ := List.nodupKeys_cons.mp hnodup
    rw [List.foldl_cons, ih hnodup]
    by_cases hk : key' = key
    · subst hk
      rw [List.dlookup_eq_none.mpr hnew, List.dlookup_cons_eq]
      simp [setEnv]
    · have hne : key ≠ key' := fun he => hk he.symm
      rw [List.dlookup_cons_ne _ _ hne, setEnv, AList.lookup_insert_ne hne]

/-- The later value wins. -/
theorem lookup_setEnvs (command : Command χ) (env : HashMap String String) (key : String) :
    (command.setEnvs env).env.lookup key = (env.lookup key).or (command.env.lookup key) :=
  lookup_foldl_setEnv key env.entries env.nodupKeys command

end Command

end GraphHarness.Executor
