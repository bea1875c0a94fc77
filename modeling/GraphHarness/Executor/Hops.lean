import GraphHarness.Executor.Quoting

/-!
# Through the hops

What becomes of a command that `LayeredExecutor::execute` has wrapped. Every layer
but the local one starts a shell somewhere else and gives it a text, the last
argument of the `ssh` or `docker exec … sh -c` it builds; `unwrap` enters these
shells one after the other.

The options in front of a destination or a container are not interpreted, with the
exception of the flags `docker exec` has for the environment and the directory of
the shell; argument vectors are read from the right.

A layer with a shell is described by what it gives to that shell (`Remote`), so that `ssh` and
`docker exec` are two values of one description. `wrapCommand_remote` reads it off the code.
The text is then followed through the lexer part by part: the assignments (`scan_envText`),
the directory (`scan_cdText`) and the command (`Executor.Quoting`).

`hop_text_iff` is the result for one hop, with an exact condition; `unwrap_transformCommand`
carries it through the stack, where the words of a hop are the arguments of the next one
outside. Users, ports and keys are options that the remote side does not see, and the login
shell of `ssh` is taken to be a POSIX shell, as the `sh` in the container is.
-/

namespace GraphHarness.Executor

open Shell

variable {χ : Type}

/-! ## What is entered -/

/-- The value of a `-e` flag; without an equals sign it comes from the client. -/
def splitBinding (binding : String) : String × Option String :=
  match binding.toList.dropWhile (· != '=') with
  | _ :: val =>
    (String.ofList (binding.toList.takeWhile (· != '=')), some (String.ofList val))
  | [] => (binding, none)

/-- The flags of `docker exec`: the environment (the latest first) and the directory
of the process. An empty directory is none. -/
def dockerFlags : List (String × Option String) → Option String → List String →
    Option (List (String × Option String) × Option String)
  | env, cwd, [] => some (env, cwd)
  | env, cwd, "-i" :: flags => dockerFlags env cwd flags
  | env, cwd, "-t" :: flags => dockerFlags env cwd flags
  | env, cwd, "-u" :: _ :: flags => dockerFlags env cwd flags
  | env, _, "-w" :: dir :: flags => dockerFlags env (if dir = "" then none else some dir) flags
  | env, cwd, "-e" :: binding :: flags => dockerFlags (splitBinding binding :: env) cwd flags
  | _, _, _ => none

/-- The shell that `words`, with a text behind them, starts. -/
def enter : List String → Option (List (String × Option String) × Option String)
  | "ssh" :: words => if words = [] then none else some ([], none)
  | "docker" :: "exec" :: words =>
    match words.reverse with
    | "-c" :: "sh" :: _ :: flags => dockerFlags [] none flags.reverse
    | _ => none
  | _ => none

/-- One shell: the words in front of the text, and what the text runs. -/
def hop (argv : List String) : Option (List String × Process) :=
  match argv.reverse with
  | text :: words =>
    match enter words.reverse with
    | some (env, cwd) =>
      match run env cwd text.toList with
      | some inner => some (words.reverse, inner)
      | none => none
    | none => none
  | [] => none

/-- `n` shells, one inside the other. -/
def unwrap : Nat → Process → Option (List (List String) × Process)
  | 0, process => some ([], process)
  | n + 1, process =>
    match hop process.argv with
    | some (words, inner) =>
      match unwrap n inner with
      | some (hops, innermost) => some (words :: hops, innermost)
      | none => none
    | none => none

/-! ## The layers as hops -/

/-- A layer that starts a shell: the words in front of the text, what the shell has
got from them, and what the text does before the command. -/
structure Remote where
  words : List String
  env : List (String × Option String)
  cwd : Option String
  assigned : HashMap String String
  workingDir : Option String

/-- The remote side of `ssh`: the login shell reads the text, which carries environment and
directory. -/
def SshLayer.remote (layer : SshLayer) : Remote where
  words := "ssh" :: (layer.optionArgs ++ [layer.destination])
  env := []
  cwd := none
  assigned := layer.env
  workingDir := layer.workingDir

/-- The remote side of `docker exec`: environment and directory are options, and the text has
neither. -/
def DockerLayer.remote (layer : DockerLayer) : Remote where
  words := "docker" :: "exec" :: (layer.optionArgs ++ [layer.container, "sh", "-c"])
  env := (layer.env.entries.map (fun entry => (entry.1, some entry.2))).reverse
  cwd := if layer.workdir = some "" then none else layer.workdir
  assigned := ∅
  workingDir := none

/-- The remote side of a layer; a local layer has none. -/
def Layer.remote : Layer → Option Remote
  | .localLayer _ => none
  | .sshLayer layer => some layer.remote
  | .dockerLayer layer => some layer.remote

/-- A layer without a remote side is a local one. -/
theorem remote_eq_none_iff {layer : Layer} :
    layer.remote = none ↔ ∃ inner, layer = .localLayer inner := by
  cases layer with
  | localLayer inner => simp [Layer.remote]
  | sshLayer layer => simp [Layer.remote]
  | dockerLayer layer => simp [Layer.remote]

/-- The text that the remote shell reads. -/
def Remote.text (remote : Remote) (command : Command χ) : String :=
  envText remote.assigned ++ cdText remote.workingDir ++ commandToShellString command

/-- The hops of a stack, the innermost first. -/
def hops (layers : List Layer) : List (List String) :=
  layers.filterMap (fun layer => layer.remote.map Remote.words)

/-- One hop: the words are entered, and the shell runs the last of them. -/
theorem hop_eq_some {argv words : List String} {inner : Process} :
    hop argv = some (words, inner) ↔ ∃ text env cwd, argv = words ++ [text] ∧
      enter words = some (env, cwd) ∧ run env cwd text.toList = some inner := by
  constructor
  · intro h
    unfold hop at h
    split at h
    next text front hargv =>
      split at h
      next env cwd henter =>
        split at h
        next process hrun =>
          obtain ⟨rfl, rfl⟩ := Prod.mk.inj (Option.some.inj h)
          refine ⟨text, env, cwd, ?_, henter, hrun⟩
          rw [← List.reverse_reverse argv, hargv, List.reverse_cons]
        next => simp at h
      next => simp at h
    next => simp at h
  · intro ⟨text, env, cwd, hargv, henter, hrun⟩
    have hreverse : argv.reverse = text :: words.reverse := by
      rw [hargv, List.reverse_append]
      rfl
    unfold hop
    rw [hreverse]
    dsimp only
    rw [List.reverse_reverse, henter]
    dsimp only
    rw [hrun]

/-- The last of the shells. -/
theorem unwrap_succ : ∀ {n : Nat} {process innermost : Process} {hops : List (List String)}
    {words : List String}, unwrap (n + 1) process = some (hops ++ [words], innermost) ↔
      ∃ middle, unwrap n process = some (hops, middle) ∧
        hop middle.argv = some (words, innermost) := by
  intro n
  -- `unwrap` takes the outermost hop off first, so that the last one is reached by induction
  induction n with
  | zero =>
    intro process innermost hops words
    constructor
    · intro h
      rw [unwrap] at h
      split at h
      next front inner hhop =>
        simp only [unwrap, Option.some.injEq, Prod.mk.injEq] at h
        obtain ⟨hhops, rfl⟩ := h
        obtain ⟨rfl, rfl⟩ := singleton_eq_append_singleton.mp hhops
        exact ⟨process, rfl, hhop⟩
      next => simp at h
    · intro ⟨middle, hmiddle, hhop⟩
      obtain ⟨rfl, rfl⟩ : hops = [] ∧ process = middle := by simpa [unwrap, eq_comm] using hmiddle
      rw [unwrap, hhop]
      rfl
  | succ n ih =>
    intro process innermost hops words
    constructor
    · intro h
      rw [unwrap] at h
      split at h
      next front inner hhop =>
        split at h
        next rest last hrest =>
          obtain ⟨hhops, rfl⟩ := Prod.mk.inj (Option.some.inj h)
          cases hops with
          | nil =>
            obtain ⟨_, rfl⟩ : front = words ∧ rest = [] := by simpa using hhops
            rw [unwrap] at hrest
            split at hrest
            next => split at hrest <;> simp at hrest
            next => simp at hrest
          | cons f hops =>
            obtain ⟨rfl, rfl⟩ : front = f ∧ rest = hops ++ [words] := by simpa using hhops
            obtain ⟨middle, hmiddle, hlast⟩ := ih.mp hrest
            refine ⟨middle, ?_, hlast⟩
            rw [unwrap, hhop]
            dsimp only
            rw [hmiddle]
        next => simp at h
      next => simp at h
    · intro ⟨middle, hmiddle, hlast⟩
      rw [unwrap] at hmiddle
      split at hmiddle
      next front inner hhop =>
        split at hmiddle
        next rest _ hrest =>
          obtain ⟨rfl, rfl⟩ := Prod.mk.inj (Option.some.inj hmiddle)
          rw [unwrap, hhop]
          dsimp only
          rw [ih.mpr ⟨_, hrest, hlast⟩]
          rfl
        next => simp at hmiddle
      next => simp at hmiddle

/-! ## What the layers build -/

/-- A binding of a name is split at its first sign of equality. -/
theorem splitBinding_eq {key : String} (hkey : isName key = true) (val : String) :
    splitBinding (key ++ "=" ++ val) = (key, some val) := by
  have hin : ∀ c ∈ key.toList, (c != '=') = true := by
    intro c hc
    have hchar : isNameChar c = true := by
      have hall : key.toList.all isNameChar = true := by
        have hboth := hkey
        rw [isName, Bool.and_eq_true] at hboth
        exact hboth.2
      exact List.all_eq_true.mp hall c hc
    have hne : c ≠ '=' := by
      intro he
      rw [he] at hchar
      exact absurd hchar (by decide)
    simpa using hne
  have hlist : (key ++ "=" ++ val).toList = key.toList ++ '=' :: val.toList := by
    rw [String.toList_append, String.toList_append, List.append_assoc]
    rfl
  rw [splitBinding, hlist, List.dropWhile_append_of_pos hin, List.takeWhile_append_of_pos hin]
  simp

/-- The options `-e` are read back as the entries, the last first. -/
theorem dockerFlags_env : ∀ (entries : List (Σ _ : String, String)),
    (∀ entry ∈ entries, isName entry.1 = true) →
      ∀ (env : List (String × Option String)) (cwd : Option String),
        dockerFlags env cwd (entries.flatMap (fun entry => ["-e", entry.1 ++ "=" ++ entry.2])) =
          some ((entries.map (fun entry => (entry.1, some entry.2))).reverse ++ env, cwd) := by
  intro entries
  induction entries with
  | nil => intro _ env cwd; rfl
  | cons entry entries ih =>
    intro hnames env cwd
    obtain ⟨hname, hnames⟩ := List.forall_mem_cons.mp hnames
    rw [List.flatMap_cons, List.cons_append, List.cons_append, List.nil_append, dockerFlags,
      splitBinding_eq hname, ih hnames]
    simp

/-- The options of a container are read back as its environment and directory. -/
theorem dockerFlags_optionArgs (layer : DockerLayer)
    (hnames : ∀ entry ∈ layer.env.entries, isName entry.1 = true) :
    dockerFlags [] none layer.optionArgs = some (layer.remote.env, layer.remote.cwd) := by
  have henv := dockerFlags_env layer.env.entries hnames []
  simp only [List.append_nil] at henv
  obtain ⟨container, interactive, tty, user, workdir, env⟩ := layer
  cases interactive <;> cases tty <;> cases user <;> cases workdir <;>
    simp [DockerLayer.optionArgs, DockerLayer.remote, dockerFlags, henv]

/-- The words of a remote side are entered with its environment and directory. -/
theorem enter_remote {layer : Layer} {remote : Remote} (hremote : layer.remote = some remote)
    (hnames : ∀ entry ∈ layer.env.entries, isName entry.1 = true) :
    enter remote.words = some (remote.env, remote.cwd) := by
  cases layer with
  | localLayer layer => simp [Layer.remote] at hremote
  | sshLayer layer =>
    obtain rfl := Option.some.inj hremote
    simp [SshLayer.remote, enter]
  | dockerLayer layer =>
    obtain rfl := Option.some.inj hremote
    have hflags := dockerFlags_optionArgs layer hnames
    simpa [DockerLayer.remote, enter] using hflags

/-- What is assigned is among what the layer sets. -/
theorem names_assigned {layer : Layer} {remote : Remote} (hremote : layer.remote = some remote)
    (hnames : ∀ entry ∈ layer.env.entries, isName entry.1 = true) :
    ∀ entry ∈ remote.assigned.entries, isName entry.1 = true := by
  cases layer with
  | localLayer layer => simp [Layer.remote] at hremote
  | sshLayer layer =>
    obtain rfl := Option.some.inj hremote
    exact hnames
  | dockerLayer layer =>
    obtain rfl := Option.some.inj hremote
    intro entry hentry
    exact absurd hentry (by simp [DockerLayer.remote])

/-- What a command is written out as depends on its words only. -/
theorem commandToShellString_congr {command other : Command χ}
    (h : command.argv = other.argv) :
    commandToShellString command = commandToShellString other := by
  obtain ⟨hprogram, hargs⟩ := List.cons.inj h
  rw [commandToShellString, commandToShellString, hprogram, hargs]

/-- A directory is no part of the arguments. -/
theorem argv_applyWorkingDir (command : Command χ) (dir : Option String) :
    (applyWorkingDir command dir).argv = command.argv := by
  cases dir <;> rfl

/-- The environment is no part of the arguments. -/
theorem argv_setEnvs (command : Command χ) (env : HashMap String String) :
    (command.setEnvs env).argv = command.argv := by
  obtain ⟨hprogram, hargs, _⟩ := command.setEnvs_frame env
  rw [Command.argv, hprogram, hargs]
  rfl

/-- A local layer leaves the words alone. -/
theorem wrapCommand_local {layer : Layer} (hremote : layer.remote = none) (command : Command χ) :
    (layer.wrapCommand command).argv = command.argv := by
  obtain ⟨layer, rfl⟩ := remote_eq_none_iff.mp hremote
  show (applyWorkingDir (command.setEnvs layer.env) layer.workingDir).argv = command.argv
  rw [argv_applyWorkingDir, argv_setEnvs]

/-- **The other layers** build a new command: their own words, and the inner command
as the text. -/
theorem wrapCommand_remote {layer : Layer} {remote : Remote} (hremote : layer.remote = some remote)
    (command : Command χ) :
    (layer.wrapCommand command).argv = remote.words ++ [remote.text command] := by
  cases layer with
  | localLayer layer => simp [Layer.remote] at hremote
  | sshLayer layer =>
    obtain rfl := Option.some.inj hremote
    have htext := commandToShellString_congr (show
      (applyWorkingDir (command.setEnvs layer.env) layer.workingDir).argv = command.argv by
        rw [argv_applyWorkingDir, argv_setEnvs])
    simp [Layer.wrapCommand, SshLayer.wrapCommand, SshLayer.remote, Remote.text, Command.argv,
      Command.addArgs_eq, Command.arg, Command.new, htext]
  | dockerLayer layer =>
    obtain rfl := Option.some.inj hremote
    simp [Layer.wrapCommand, DockerLayer.wrapCommand, DockerLayer.remote, Remote.text, Command.argv,
      Command.addArgs_eq, Command.arg, Command.new, envText, cdText]

/-- The program of a hop is one of two plain words. -/
theorem words_remote {layer : Layer} {remote : Remote} (hremote : layer.remote = some remote) :
    ∃ program args, remote.words = program :: args ∧ PlainProgram program ∧
      program ∉ reservedWords ∧ args ≠ [] := by
  cases layer with
  | localLayer layer => simp [Layer.remote] at hremote
  | sshLayer layer =>
    obtain rfl := Option.some.inj hremote
    exact ⟨"ssh", _, rfl, by decide, by decide, by simp⟩
  | dockerLayer layer =>
    obtain rfl := Option.some.inj hremote
    exact ⟨"docker", _, rfl, by decide, by decide, by simp⟩

/-! ## The text in front of the command -/

/-- The word of an assignment. -/
def envWord (entry : Σ _ : String, String) : Word :=
  unquoted entry.1.toList ++ ('=', false) :: argWord entry.2

/-- What the shell assigns: nothing certain where a tilde is expanded. -/
def envAssignment (entry : Σ _ : String, String) : String × Option String :=
  (entry.1, assignedValue (argWord entry.2))

/-- The characters of a name by their numbers. -/
theorem isNameChar_range {c : Char} (h : isNameChar c = true) :
    (48 ≤ c.toNat ∧ c.toNat ≤ 57) ∨ (65 ≤ c.toNat ∧ c.toNat ≤ 90) ∨ c.toNat = 95 ∨
      (97 ≤ c.toNat ∧ c.toNat ≤ 122) := by
  delta isNameChar Char.isAlphanum Char.isAlpha Char.isUpper Char.isLower Char.isDigit at h
  simp only [Bool.or_eq_true, Bool.and_eq_true, decide_eq_true_eq, beq_iff_eq,
    UInt32.le_iff_toNat_le, ge_iff_le] at h
  rcases h with ((h | h) | h) | rfl
  · exact Or.inr (Or.inl h)
  · exact Or.inr (Or.inr (Or.inr h))
  · exact Or.inl h
  · exact Or.inr (Or.inr (Or.inl rfl))

/-- No character of a name is special. -/
theorem not_special_of_nameChar {c : Char} (h : isNameChar c = true) : isSpecial c = false := by
  have hrange := isNameChar_range h
  have hspace : isWhitespace c = false := by
    simp only [isWhitespace, Bool.or_eq_false_iff, Bool.and_eq_false_iff, decide_eq_false_iff_not,
      beq_eq_false_iff_ne]
    omega
  have hchars : specialChars.all (fun d => !isNameChar d) = true := by rfl
  have hmem : c ∉ specialChars := by
    intro hc
    have hnot := List.all_eq_true.mp hchars c hc
    rw [h] at hnot
    simp at hnot
  simp [isSpecial, hspace, hmem]

/-- A name needs no quoting and begins no comment. -/
theorem ordinary_of_name {key : String} (h : isName key = true) :
    needsQuoting key = false ∧ key ≠ "" ∧ key.toList.head? ≠ some '#' := by
  obtain ⟨hstart, hchars⟩ : key.toList.head?.any isNameStart = true ∧
      key.toList.all isNameChar = true := by simpa [isName] using h
  refine ⟨?_, ?_, ?_⟩
  · refine List.any_eq_false.mpr ?_
    intro c hc
    have hplain := not_special_of_nameChar (List.all_eq_true.mp hchars c hc)
    simpa [isSpecial] using hplain
  · intro hempty
    rw [hempty] at hstart
    simp at hstart
  · intro hhash
    rw [hhash] at hstart
    exact absurd hstart (by decide)

/-- The text of the environment, entry by entry. -/
theorem toList_envText (env : HashMap String String) : (envText env).toList =
    env.entries.flatMap (fun entry => (shellEscape entry.1).toList ++
      '=' :: ((shellEscape entry.2).toList ++ [' '])) := by
  have hjoin : ∀ (e : Σ _ : String, String) (es : List (Σ _ : String, String)),
      (" ".intercalate ((e :: es).map
        (fun entry => shellEscape entry.1 ++ "=" ++ shellEscape entry.2))).toList ++ " ".toList =
        (e :: es).flatMap (fun entry => (shellEscape entry.1).toList ++
          '=' :: ((shellEscape entry.2).toList ++ [' '])) := by
    intro e es
    induction es generalizing e with
    | nil => simp
    | cons f fs ih =>
      have hf := ih f
      simp only [List.flatMap_cons, List.map_cons, String.intercalate_cons_cons,
        String.toList_append] at hf ⊢
      rw [List.append_assoc, hf]
      simp
  unfold envText
  split
  next hnil => rw [hnil]; rfl
  next hne =>
    obtain ⟨e, es, hentries⟩ := List.exists_cons_of_ne_nil hne
    rw [hentries, String.toList_append, hjoin]

/-- An entry is read as one word. -/
theorem scan_envEntry {entry : Σ _ : String, String} (hname : isName entry.1 = true)
    (rest : List Char) :
    scan .between [] ((shellEscape entry.1).toList ++ '=' :: ((shellEscape entry.2).toList ++
        ' ' :: rest)) = emit [.word (envWord entry)] (scan .between [] rest) := by
  obtain ⟨hquote, hne, hhash⟩ := ordinary_of_name hname
  have hequals : isOrdinary '=' = true := by decide
  rw [scan_between_shellEscape (fun _ => ⟨hne, hhash⟩), scan_move (step_plain_ordinary hequals _),
    scan_plain_shellEscape, scan_plain_space, argWord, hquote]
  simp [envWord]

/-- The environment is read as one word for each entry. -/
theorem scan_envText {env : HashMap String String}
    (hnames : ∀ entry ∈ env.entries, isName entry.1 = true) (rest : List Char) :
    scan .between [] ((envText env).toList ++ rest) =
      emit ((env.entries.map envWord).map .word) (scan .between [] rest) := by
  rw [toList_envText]
  generalize env.entries = entries at hnames
  induction entries with
  | nil => simp
  | cons entry entries ih =>
    obtain ⟨hname, hnames⟩ := List.forall_mem_cons.mp hnames
    simp only [List.flatMap_cons, List.append_assoc, List.cons_append, List.nil_append]
    rw [scan_envEntry hname, ih hnames, emit_emit]
    rfl

/-- The word of an entry is an assignment. -/
theorem assignment_envWord {entry : Σ _ : String, String} (hname : isName entry.1 = true) :
    assignment (envWord entry) = some (envAssignment entry) := by
  rw [assignment, envWord, splitAssignment_name hname]
  simp [envAssignment]

/-- A directory `cd` takes: the text in front of it names one that is not an option,
or none. -/
def OperandOk (dir : String) : Prop :=
  dir = "" ∨ (QuotableArg dir ∧ dir.toList.head? ≠ some '-')

/-- The words of the `cd` in front of a command. -/
def cdWords (dir : String) : List Word :=
  unquoted "cd".toList :: if dir = "" then [] else [argWord dir]

/-- The directory is read as the words of `cd`, and what follows is run only if it succeeds. -/
theorem scan_cdText {dir : String}
    (h : needsQuoting dir = false → dir.toList.head? ≠ some '#') (rest : List Char) :
    scan .between [] ((cdText (some dir)).toList ++ rest) =
      emit ((cdWords dir).map .word ++ [.andIf]) (scan .between [] rest) := by
  have htext : (cdText (some dir)).toList ++ rest =
      "cd".toList ++ ' ' :: ((shellEscape dir).toList ++ ' ' :: '&' :: '&' :: ' ' :: rest) := by
    simp [cdText]
  rw [htext, scan_between_ordinary (by decide) (by decide) (by decide), scan_plain_space]
  by_cases hne : dir = ""
  · subst hne
    have hempty : (shellEscape "").toList = [] := by decide
    rw [hempty, List.nil_append, scan_between_space, scan_between_andIf, scan_between_space,
      emit_emit]
    rfl
  · rw [scan_between_shellEscape (fun hquote => ⟨hne, h hquote⟩), scan_plain_space,
      scan_between_andIf, scan_between_space, emit_emit, emit_emit, cdWords, if_neg hne]
    rfl

/-- The directory becomes a comment, and everything behind it. -/
theorem scan_cdText_hash {dir : String} (hquote : needsQuoting dir = false)
    (hhash : dir.toList.head? = some '#') (rest : List Char) :
    ∃ comment, scan .between [] ((cdText (some dir)).toList ++ rest) =
      emit [.word (unquoted "cd".toList)] (scan .comment [] comment) := by
  obtain ⟨cs, hcs⟩ := List.head?_eq_some_iff.mp hhash
  have htext : (cdText (some dir)).toList ++ rest =
      "cd".toList ++ ' ' :: '#' :: (cs ++ ' ' :: '&' :: '&' :: ' ' :: rest) := by
    have hescape : (shellEscape dir).toList = '#' :: cs := by
      rw [toList_shellEscape, if_neg (by simp [hquote]), hcs]
    simp [cdText, hescape]
  refine ⟨cs ++ ' ' :: '&' :: '&' :: ' ' :: rest, ?_⟩
  rw [htext, scan_between_ordinary (by decide) (by decide) (by decide), scan_plain_space,
    scan_between_hash]

/-- The command the `cd` is read as. -/
theorem simpleCommand_cdWords {assigned : List Word} {assignments : List (String × Option String)}
    (hassigned : assigned.map assignment = assignments.map some) {dir : String}
    (h : OperandOk dir) : ∃ simple, simpleCommand (assigned ++ cdWords dir) = some simple ∧
      changeDirectory simple.argv = some (if dir = "" then none else some dir) := by
  have hplain : PlainProgram "cd" := by decide
  by_cases hne : dir = ""
  · refine ⟨⟨assignments, ["cd"]⟩, ?_, ?_⟩
    · have hcd := @simpleCommand_commandText _ _ hassigned _ [] hplain (by simp)
        (fun _ => by decide)
      simpa [cdWords, hne] using hcd
    · simp [changeDirectory, hne]
  · obtain ⟨hquotable, hhyphen⟩ := h.resolve_left hne
    refine ⟨⟨assignments, ["cd", dir]⟩, ?_, ?_⟩
    · have hcd := @simpleCommand_commandText _ _ hassigned _ [dir] hplain (by simpa using hquotable)
        (fun _ => by decide)
      simpa [cdWords, hne] using hcd
    · simp [changeDirectory, hne, hhyphen]

/-- And nothing else is. -/
theorem operandOk_of_cdWords {assigned : List Word} {assignments : List (String × Option String)}
    (hassigned : assigned.map assignment = assignments.map some) {dir : String}
    (hhash : needsQuoting dir = false → dir.toList.head? ≠ some '#') {simple : SimpleCommand}
    (hsimple : simpleCommand (assigned ++ cdWords dir) = some simple) {cwd : Option String}
    (hcd : changeDirectory simple.argv = some cwd) : OperandOk dir := by
  by_cases hne : dir = ""
  · exact Or.inl hne
  · obtain ⟨more, args, hwords, hmore, _, hargv, hliteral, _⟩ :=
      simpleCommand_append hassigned hsimple
    obtain rfl : more = [] := by
      have hnone : (splitAssignments (cdWords dir)).1 = [] := by
        have hfirst : splitAssignment (unquoted "cd".toList) = none := by decide
        rw [cdWords, splitAssignments, hfirst]
      simpa [hnone] using hmore
    obtain rfl : cdWords dir = args := hwords
    rw [cdWords, if_neg hne] at hargv hliteral
    have hself : wordText (argWord dir) = dir := by
      rw [argWord]
      split
      next => exact wordText_quoted dir
      next => exact wordText_unquoted dir
    have hdir := hliteral (argWord dir) (by simp)
    rw [hself] at hdir
    have hcdargs : simple.argv = ["cd", dir] := by
      have hcdword : wordText (unquoted "cd".toList) = "cd" := wordText_unquoted "cd"
      rw [hargv, List.map_cons, List.map_cons, hself, hcdword]
      rfl
    refine Or.inr ⟨?_, ?_⟩
    · cases hquote : needsQuoting dir with
      | true => exact Or.inl hquote
      | false =>
        rw [argWord, if_neg (by simp [hquote])] at hdir
        exact Or.inr ⟨hne, hhash hquote, ((literal_unquoted_iff dir).mp hdir).1⟩
    · intro hhyphen
      rw [hcdargs] at hcd
      simp [changeDirectory, hhyphen] at hcd

/-! ## One hop -/

/-- The environment of the command that the text runs: the assignments are the
command's own only if there is no `cd` in front of it. -/
def Remote.processEnv (remote : Remote) : List (String × Option String) :=
  match remote.workingDir with
  | none =>
    (remote.assigned.entries.map envAssignment).reverse ++ initial remote.cwd remote.env
  | some _ => afterCd (initial remote.cwd remote.env)

/-- The directory in which the process is started. -/
def Remote.processCwd (remote : Remote) : Option String :=
  match remote.workingDir with
  | none => remote.cwd
  | some dir => if dir = "" then none else some dir

/-- Whether the command stands at the beginning of what the shell reads as one. -/
def Remote.CommandFirst (remote : Remote) : Prop :=
  remote.assigned.entries = [] ∨ remote.workingDir ≠ none

/-- The text, part by part. -/
theorem toList_text (remote : Remote) (command : Command χ) :
    (remote.text command).toList = (envText remote.assigned).toList ++
      ((cdText remote.workingDir).toList ++ (command.program.toList ++ argsText command.args)) := by
  simp [Remote.text, toList_commandToShellString]

/-- The words of the entries are assignments. -/
theorem map_assignment_envWord {entries : List (Σ _ : String, String)}
    (hnames : ∀ entry ∈ entries, isName entry.1 = true) :
    (entries.map envWord).map assignment = (entries.map envAssignment).map some := by
  rw [List.map_map, List.map_map]
  exact List.map_congr_left (fun entry hentry => assignment_envWord (hnames entry hentry))

/-- **What the text runs**, if nothing is lost. -/
theorem run_text {remote : Remote}
    (hnames : ∀ entry ∈ remote.assigned.entries, isName entry.1 = true)
    (hdir : ∀ dir ∈ remote.workingDir, OperandOk dir) {command : Command χ}
    (hprogram : PlainProgram command.program) (hargs : ∀ a ∈ command.args, QuotableArg a)
    (hreserved : remote.CommandFirst → command.program ∉ reservedWords) :
    run remote.env remote.cwd (remote.text command).toList =
      some ⟨command.argv, remote.processEnv, remote.processCwd⟩ := by
  have hassigned := map_assignment_envWord hnames
  have hcommand := scan_commandText hprogram hargs
  rw [run_eq_some, toList_text, scan_envText hnames]
  cases hworkingDir : remote.workingDir with
  | none =>
    have hempty : (cdText none).toList = [] := by decide
    have hsimple := simpleCommand_commandText hassigned hprogram hargs (fun hnil =>
      hreserved (Or.inl (by simpa using hnil)))
    rw [hempty, List.nil_append, hcommand, emit_some, ← List.map_append]
    refine ⟨_, _, rfl, splitAnd_words true _, ?_⟩
    rw [runList_single hsimple (by simp)]
    simp [Command.argv, Remote.processEnv, Remote.processCwd, hworkingDir]
  | some dir =>
    have hok := hdir dir (by simp [hworkingDir])
    have hhash : needsQuoting dir = false → dir.toList.head? ≠ some '#' := by
      intro hquote
      rcases hok with rfl | ⟨hquotable, _⟩
      · simp
      · exact (hquotable.begins hquote).2
    have hsimple := @simpleCommand_commandText [] [] rfl _ _ hprogram hargs
      (fun _ => hreserved (Or.inr (by simp [hworkingDir])))
    obtain ⟨simple, hcd, hchange⟩ := simpleCommand_cdWords hassigned hok
    rw [scan_cdText hhash, hcommand, emit_some, emit_some]
    refine ⟨_, [remote.assigned.entries.map envWord ++ cdWords dir,
      unquoted command.program.toList :: command.args.map argWord], rfl, ?_, ?_⟩
    · have hsplit := splitAnd_words_andIf true (remote.assigned.entries.map envWord ++ cdWords dir)
        (splitAnd_words true (unquoted command.program.toList :: command.args.map argWord))
      simpa using hsplit
    · rw [List.nil_append] at hsimple
      rw [runList, hcd]
      · dsimp only
        rw [hchange]
        dsimp only
        rw [runList_single hsimple (by simp)]
        simp [Command.argv, Remote.processEnv, Remote.processCwd, hworkingDir]
      · simp

/-- Without a directory the command is the last one, behind the assignments. -/
theorem run_text_here {remote : Remote}
    (hnames : ∀ entry ∈ remote.assigned.entries, isName entry.1 = true)
    (hnone : remote.workingDir = none) {command : Command χ} {inner : Process}
    (h : run remote.env remote.cwd (remote.text command).toList = some inner) :
    ∃ simple, inner.argv = simple.argv ∧
      EndsWith (remote.assigned.entries.map envWord) command.program command.args simple := by
  obtain ⟨tokens, commands, hscan, hsplit, hrun⟩ := run_eq_some.mp h
  have hempty : (cdText none).toList = [] := by decide
  rw [toList_text, scan_envText hnames, hnone, hempty, List.nil_append] at hscan
  obtain ⟨rest, hrest, rfl⟩ := emit_eq_some.mp hscan
  obtain ⟨front, ws, simple, rfl, hsimple, hargv, _⟩ := runList_last hrun
  exact ⟨simple, hargv, rest, _, true, front, ws, hrest, map_assignment_envWord hnames, hsplit,
    hsimple⟩

/-- A directory that reads as a comment swallows the command: a bare `cd` is left. -/
theorem run_text_comment {remote : Remote}
    (hnames : ∀ entry ∈ remote.assigned.entries, isName entry.1 = true) {dir : String}
    (hdir : remote.workingDir = some dir) (hquote : needsQuoting dir = false)
    (hhash : dir.toList.head? = some '#') {command : Command χ} {inner : Process}
    (h : run remote.env remote.cwd (remote.text command).toList = some inner) :
    inner.argv = ["cd"] ∧ inner.cwd = remote.cwd := by
  have hassigned := map_assignment_envWord hnames
  obtain ⟨tokens, commands, hscan, hsplit, hrun⟩ := run_eq_some.mp h
  obtain ⟨comment, hcomment⟩ := scan_cdText_hash hquote hhash
    (command.program.toList ++ argsText command.args)
  rw [toList_text, scan_envText hnames, hdir, hcomment, emit_emit] at hscan
  obtain ⟨rest, hrest, rfl⟩ := emit_eq_some.mp hscan
  have hwords : splitAnd true ((remote.assigned.entries.map envWord ++
      [unquoted "cd".toList]).map .word ++ rest) = some commands := by simpa using hsplit
  obtain ⟨ws, others, hothers, rfl⟩ := splitAnd_words_append _ hwords
  rw [List.isEmpty_eq_false_iff.mpr (by simp), Bool.and_false] at hothers
  obtain ⟨rfl, rfl⟩ := List.cons.inj (splitAnd_comment (scan_comment_eq _ hrest) hothers)
  obtain ⟨front, ws, simple, hlast, hsimple, hargv, hcwd⟩ := runList_last hrun
  obtain ⟨rfl, rfl⟩ := singleton_eq_append_singleton.mp hlast
  have hcd := @simpleCommand_commandText _ _ hassigned "cd" [] (by decide) (by simp)
    (fun _ => by decide)
  rw [List.append_nil] at hsimple
  rw [List.map_nil, hsimple] at hcd
  obtain rfl := Option.some.inj hcd
  exact ⟨hargv, hcwd rfl⟩

/-- Behind a `cd` the command is the last one, and the shell could change its directory. -/
theorem run_text_there {remote : Remote}
    (hnames : ∀ entry ∈ remote.assigned.entries, isName entry.1 = true) {dir : String}
    (hdir : remote.workingDir = some dir)
    (hhash : needsQuoting dir = false → dir.toList.head? ≠ some '#') {command : Command χ}
    {inner : Process} (h : run remote.env remote.cwd (remote.text command).toList = some inner) :
    OperandOk dir ∧ ∃ simple, inner.argv = simple.argv ∧
      EndsWith [] command.program command.args simple := by
  have hassigned := map_assignment_envWord hnames
  obtain ⟨tokens, commands, hscan, hsplit, hrun⟩ := run_eq_some.mp h
  rw [toList_text, scan_envText hnames, hdir, scan_cdText hhash, emit_emit] at hscan
  obtain ⟨rest, hrest, rfl⟩ := emit_eq_some.mp hscan
  have hwords : splitAnd true ((remote.assigned.entries.map envWord ++ cdWords dir).map
      .word ++ (.andIf :: rest)) = some commands := by simpa using hsplit
  obtain ⟨ws, others, hothers, rfl⟩ := splitAnd_words_append _ hwords
  rw [splitAnd] at hothers
  split at hothers
  next later hlater =>
    obtain ⟨rfl, rfl⟩ := List.cons.inj (Option.some.inj hothers)
    cases later with
    | nil => exact absurd hlater (splitAnd_ne_nil _ _)
    | cons next later =>
      rw [runList] at hrun
      · split at hrun
        next cd hcd =>
          split at hrun
          next cwd hchange =>
            rw [List.append_nil] at hcd
            obtain ⟨front, ws, simple, hlast, hsimple, hargv, _⟩ := runList_last hrun
            rw [hlast] at hlater
            exact ⟨operandOk_of_cdWords hassigned hhash hcd hchange, simple, hargv,
              rest, [], true, front, ws, hrest, rfl, hlater, hsimple⟩
          next => simp at hrun
        next => simp at hrun
      · simp
  next => simp at hothers

/-- **What can come of the text** otherwise: the last command of it is read from the
text of the command, or a directory has become a comment. -/
theorem run_text_cases {remote : Remote}
    (hnames : ∀ entry ∈ remote.assigned.entries, isName entry.1 = true) {command : Command χ}
    {inner : Process} (h : run remote.env remote.cwd (remote.text command).toList = some inner) :
    (∃ assigned simple, EndsWith assigned command.program command.args simple ∧
      inner.argv = simple.argv ∧ (∀ dir ∈ remote.workingDir, OperandOk dir) ∧
      (remote.CommandFirst → assigned = [])) ∨
    (inner.argv = ["cd"] ∧ inner.cwd = remote.cwd ∧ remote.workingDir ≠ none) := by
  cases hworkingDir : remote.workingDir with
  | none =>
    obtain ⟨simple, hargv, hends⟩ := run_text_here hnames hworkingDir h
    refine Or.inl ⟨_, simple, hends, hargv, by simp, ?_⟩
    intro hfirst
    rcases hfirst with hnil | hsome
    · rw [hnil]
      rfl
    · exact absurd hworkingDir hsome
  | some dir =>
    by_cases hhash : needsQuoting dir = false ∧ dir.toList.head? = some '#'
    · obtain ⟨hargv, hcwd⟩ := run_text_comment hnames hworkingDir hhash.1 hhash.2 h
      exact Or.inr ⟨hargv, hcwd, by simp⟩
    · obtain ⟨hoperand, simple, hargv, hends⟩ := run_text_there hnames hworkingDir
        (fun hquote he => hhash ⟨hquote, he⟩) h
      refine Or.inl ⟨[], simple, hends, hargv, ?_, fun _ => rfl⟩
      intro dir' hdir'
      obtain rfl : dir = dir' := by simpa using hdir'
      exact hoperand

/-- A plain program can be quoted. -/
theorem PlainProgram.quotable {program : String} (h : PlainProgram program) :
    QuotableArg program := by
  obtain ⟨hne, _, hhash, htilde, _⟩ := h
  exact Or.inr ⟨hne, hhash, htilde⟩

/-- A text that runs something survives as an argument: it is not empty, it is not all
comment, and it does not begin with a tilde unless it is quoted. -/
theorem quotable_of_run {env : List (String × Option String)} {cwd : Option String} {text : String}
    {process : Process} (h : run env cwd text.toList = some process) : QuotableArg text := by
  obtain ⟨tokens, commands, hscan, hsplit, hrun⟩ := run_eq_some.mp h
  have hnothing : commands ≠ [[]] := by
    intro hnil
    rw [hnil] at hrun
    simp [runList, simpleCommand, splitAssignments, literals] at hrun
  cases hquote : needsQuoting text with
  | true => exact Or.inl hquote
  | false =>
    have hord := ordinary_of_not_needsQuoting hquote
    have hne : text ≠ "" := by
      intro hempty
      rw [hempty] at hscan
      obtain rfl : [] = tokens := by simpa [scan, finish] using hscan
      exact hnothing (by simpa [splitAnd, eq_comm] using hsplit)
    have hhash : text.toList.head? ≠ some '#' := by
      intro hhash
      obtain ⟨cs, hcs⟩ := List.head?_eq_some_iff.mp hhash
      rw [hcs] at hord hscan
      have hline : ∀ c ∈ cs, isNewline c = false := by
        intro c hc
        exact (isOrdinary_iff.mp (List.all_eq_true.mp hord c (List.mem_cons_of_mem _ hc))).2.1
      rw [scan_between_hash, scan_comment_line hline] at hscan
      obtain rfl : [] = tokens := by simpa using hscan
      exact hnothing (by simpa [splitAnd, eq_comm] using hsplit)
    refine Or.inr ⟨hne, hhash, ?_⟩
    intro htilde
    -- the text is one word, and that word is expanded
    have hword := scan_between_ordinary hord (toList_ne_nil hne) hhash []
    rw [List.append_nil, hscan] at hword
    obtain rfl : tokens = [.word (unquoted text.toList)] := by simpa [scan, finish] using hword
    obtain ⟨front, ws, simple, rfl, hsimple, _⟩ := runList_last hrun
    have hone := splitAnd_words true [unquoted text.toList]
    rw [List.map_singleton, hsplit] at hone
    obtain ⟨rfl, rfl⟩ := singleton_eq_append_singleton.mp (Option.some.inj hone).symm
    obtain ⟨cs, hcs⟩ := List.head?_eq_some_iff.mp htilde
    have hnone : splitAssignment (unquoted text.toList) = none := by
      have hstart : inName ('~', false) = false := by decide
      have hcons : unquoted ('~' :: cs) = ('~', false) :: unquoted cs := rfl
      rw [hcs, hcons, splitAssignment, List.dropWhile_cons_of_neg (by simp [hstart])]
      rfl
    have hliteral : literal (unquoted text.toList) = none := by
      rw [literal, hasTilde_unquoted, htilde]
      rfl
    simp [simpleCommand, splitAssignments, hnone, literals, hliteral] at hsimple

/-- The hops around a command whose words are `words`, with a text behind them: none
of their words is lost, and no directory is an option. -/
def HopsQuotable : List String → List Layer → Prop
  | _, [] => True
  | words, layer :: layers =>
    match layer.remote with
    | none => HopsQuotable words layers
    | some remote => (∀ a ∈ words, QuotableArg a) ∧ (∀ dir ∈ remote.workingDir, OperandOk dir) ∧
        HopsQuotable remote.words layers

/-- The shell of a layer runs the text that the layer has built. -/
theorem hop_wrapCommand {layer : Layer} {remote : Remote} (hremote : layer.remote = some remote)
    (hnames : ∀ entry ∈ layer.env.entries, isName entry.1 = true) (command : Command χ)
    (middle : Process) : hop (layer.wrapCommand command).argv = some (remote.words, middle) ↔
      run remote.env remote.cwd (remote.text command).toList = some middle := by
  have henter := enter_remote hremote hnames
  rw [wrapCommand_remote hremote, hop_eq_some]
  constructor
  · intro h
    obtain ⟨text, env, cwd, htext, henter', hrun⟩ := h
    obtain rfl : remote.text command = text := by simpa using htext
    obtain ⟨rfl, rfl⟩ : remote.env = env ∧ remote.cwd = cwd := by
      rw [henter] at henter'
      simpa using henter'
    exact hrun
  · intro hrun
    exact ⟨_, _, _, rfl, henter, hrun⟩

/-- **One hop around another**: the inner one is found exactly if its words and the
directory are. -/
theorem hop_text_iff {layer : Layer} {remote : Remote} (hremote : layer.remote = some remote)
    (hnames : ∀ entry ∈ layer.env.entries, isName entry.1 = true) {command : Command χ}
    {words : List String} {text program : String} {args : List String}
    (hargv : command.argv = words ++ [text]) (hwords : words = program :: args)
    (hprogram : PlainProgram program) (hreserved : program ∉ reservedWords) (innermost : Process) :
    (∃ middle, hop (layer.wrapCommand command).argv = some (remote.words, middle) ∧
      hop middle.argv = some (words, innermost)) ↔
    (∀ a ∈ words, QuotableArg a) ∧ (∀ dir ∈ remote.workingDir, OperandOk dir) ∧
      hop command.argv = some (words, innermost) := by
  have hassigned := names_assigned hremote hnames
  obtain ⟨rfl, hargs⟩ : command.program = program ∧ command.args = args ++ [text] := by
    rw [hwords] at hargv
    exact List.cons.inj hargv
  constructor
  · intro ⟨middle, houter, hinner⟩
    have hrun := (hop_wrapCommand hremote hnames command middle).mp houter
    obtain ⟨text', _, _, hmiddle, _⟩ := hop_eq_some.mp hinner
    rcases run_text_cases hassigned hrun with ⟨assigned, simple, hends, hsimple, hdir, _⟩ | ⟨hcd, _⟩
    · -- as many words come back as there were, so the last command is the inner hop
      have hquotable : ∀ a ∈ command.args, QuotableArg a := by
        refine quotable_of_argv_length hprogram hends ?_
        rw [← hsimple, hmiddle, hwords, hargs]
        simp
      rw [run_text hassigned hdir hprogram hquotable (fun _ => hreserved)] at hrun
      obtain rfl := Option.some.inj hrun
      refine ⟨?_, hdir, hinner⟩
      rw [hwords]
      refine List.forall_mem_cons.mpr ⟨hprogram.quotable, ?_⟩
      intro a ha
      exact hquotable a (by simp [hargs, ha])
    · -- a bare `cd` is no hop
      rw [hcd, hwords] at hmiddle
      simp at hmiddle
  · intro ⟨hquotable, hdir, hinner⟩
    obtain ⟨text', env, cwd, htext, _, hrun⟩ := hop_eq_some.mp hinner
    obtain rfl : text = text' := by simpa [hargv] using htext
    have hall : ∀ a ∈ command.args, QuotableArg a := by
      intro a ha
      rcases List.mem_append.mp (hargs ▸ ha) with hmem | hmem
      · exact hquotable a (by simp [hwords, hmem])
      · rw [List.mem_singleton.mp hmem]
        exact quotable_of_run hrun
    have houter := run_text hassigned hdir hprogram hall (fun _ => hreserved)
    exact ⟨_, (hop_wrapCommand hremote hnames command _).mpr houter, hinner⟩

/-- **Every hop of a stack**: from the outside the hops are entered in their order,
and the innermost text is run, exactly if no hop loses a word. -/
theorem unwrap_transformCommand : ∀ {layers : List Layer},
    (∀ layer ∈ layers, ∀ entry ∈ layer.env.entries, isName entry.1 = true) →
    ∀ {command : Command χ} {words : List String} {text program : String} {args : List String},
      command.argv = words ++ [text] → words = program :: args → PlainProgram program →
      program ∉ reservedWords → ∀ (env : List (String × Option String)) (cwd : Option String)
        (innermost : Process),
        unwrap ((hops layers).length + 1) ⟨(transformCommand layers command).argv, env, cwd⟩ =
            some ((hops layers).reverse ++ [words], innermost) ↔
          HopsQuotable words layers ∧ hop command.argv = some (words, innermost) := by
  intro layers
  induction layers with
  | nil =>
    intro _ command words text program args _ _ _ _ env cwd innermost
    have hone := @unwrap_succ 0 ⟨command.argv, env, cwd⟩ innermost [] words
    rw [List.nil_append] at hone
    show unwrap 1 ⟨command.argv, env, cwd⟩ = some ([words], innermost) ↔ _
    rw [hone]
    simp [unwrap, HopsQuotable]
  | cons layer layers ih =>
    intro hnames command words text program args hargv hwords hprogram hreserved env cwd innermost
    obtain ⟨hlayer, hlayers⟩ := List.forall_mem_cons.mp hnames
    show unwrap _ ⟨(transformCommand layers (layer.wrapCommand command)).argv, env, cwd⟩ = _ ↔ _
    cases hremote : layer.remote with
    | none =>
      have hhops : hops (layer :: layers) = hops layers := by simp [hops, hremote]
      have hlocal := wrapCommand_local hremote command
      rw [hhops, HopsQuotable, hremote]
      dsimp only
      rw [ih hlayers (hlocal.trans hargv) hwords hprogram hreserved, hlocal]
    | some remote =>
      have hhops : hops (layer :: layers) = remote.words :: hops layers := by simp [hops, hremote]
      -- this layer is one hop more on the inside: `unwrap_succ` takes it off
      obtain ⟨outer, outerArgs, houter, houterPlain, houterFree, _⟩ := words_remote hremote
      have hstep := hop_text_iff hremote hlayer hargv hwords hprogram hreserved innermost
      rw [hhops, List.length_cons, List.reverse_cons, unwrap_succ, HopsQuotable, hremote]
      dsimp only
      constructor
      · intro ⟨middle, hmiddle, hinner⟩
        obtain ⟨hothers, hhop⟩ := (ih hlayers (wrapCommand_remote hremote command) houter
          houterPlain houterFree env cwd middle).mp hmiddle
        obtain ⟨hquotable, hdir, hcommand⟩ := hstep.mp ⟨middle, hhop, hinner⟩
        exact ⟨⟨hquotable, hdir, hothers⟩, hcommand⟩
      · intro ⟨⟨hquotable, hdir, hothers⟩, hcommand⟩
        obtain ⟨middle, hhop, hinner⟩ := hstep.mpr ⟨hquotable, hdir, hcommand⟩
        exact ⟨middle, (ih hlayers (wrapCommand_remote hremote command) houter
          houterPlain houterFree env cwd middle).mpr ⟨hothers, hhop⟩, hinner⟩

end GraphHarness.Executor
