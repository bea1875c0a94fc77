import GraphHarness.Executor.Hops

/-!
# The environment and the directory of the command

What the innermost program gets of the variables and the directory it should run
with. A command that meets a layer with a shell is written out as a text, and the
text has only what that layer sets itself, as assignments or as flags: the
environment and the directory the command has brought are dropped.

> `delivered_iff` — **exactly if** the first layer that starts a shell sets again
> all that is requested inside it, and sets it in a form that reaches the program,
> the program finds the requested environment and directory.

The stack is cut at the first layer with a shell (`visibleLayers`): the layers inside it are
local and only set variables of the command, and those outside of it carry the words of the
hop and nothing else. So `Delivered`, which speaks of the whole run, comes down to `CarriedBy`,
which speaks of one layer and the command it gets (`delivered_iff_carried`).

What the shell does with its environment is that of `Shell.Command`: it starts with its own
value for some variables, which the flags of `docker exec` cannot set (`Kept`). In the text
the assignments of a layer stand before its `cd`, and hold for the `cd` alone; this is why
a layer on a host cannot carry both (`exclusive`). An image's own environment is not
modelled: what is requested is found, and there may be more.
-/

namespace GraphHarness.Executor

open Shell

variable {χ : Type}

/-! ## What is requested -/

/-- The layers the program can see: up to the first that starts a shell. -/
def visibleLayers : List Layer → List Layer
  | [] => []
  | layer :: layers =>
    match layer.remote with
    | none => layer :: visibleLayers layers
    | some _ => [layer]

/-- The later value wins. -/
def requestedEnv (layers : List Layer) (command : Command χ) (key : String) : Option String :=
  (visibleLayers layers).foldl (fun value layer => (layer.env.lookup key).or value)
    (command.env.lookup key)

/-- The directory asked for: that of the outermost visible layer that names one, or the
command's. -/
def requestedDir (layers : List Layer) (command : Command χ) : Option String :=
  (visibleLayers layers).foldl (fun dir layer => layer.workingDir.or dir) command.currentDir

/-- What the launcher starts, on the machine it runs on. -/
def Command.process (command : Command χ) : Process where
  argv := command.argv
  env := (command.env.entries.map (fun entry => (entry.1, some entry.2))).reverse
  cwd := command.currentDir

/-- The program runs behind all hops, with its arguments, and with the environment and
the directory that are requested. -/
def Delivered (layers : List Layer) (command : Command χ) : Prop :=
  ∃ process, unwrap (hops layers).length (transformCommand layers command).process =
      some ((hops layers).reverse, process) ∧
    process.argv = command.argv ∧
    (∀ key value, requestedEnv layers command key = some value →
      process.env.lookup key = some (some value)) ∧
    ∀ dir, requestedDir layers command = some dir → process.cwd = some dir

/-! ## What is carried -/

/-- A value in which no tilde is expanded when it is assigned. -/
def TildeFree (value : String) : Prop :=
  needsQuoting value = true ∨
    (value.toList.head? ≠ some '~' ∧ ¬[':', '~'] <:+: value.toList)

/-- The layer that starts the innermost shell takes over everything from the command
and the local layers `inner` that are wrapped around it. -/
structure CarriedBy (command : Command χ) (inner : List Layer) (layer : Layer) (remote : Remote) :
    Prop where
  program : PlainProgram command.program
  args : ∀ a ∈ command.args, QuotableArg a
  reserved : remote.CommandFirst → command.program ∉ reservedWords
  commandEnv : ∀ key ∈ command.env, key ∈ layer.env
  innerEnv : ∀ l ∈ inner, ∀ key ∈ l.env, key ∈ layer.env
  values : ∀ entry ∈ remote.assigned.entries, TildeFree entry.2
  exclusive : remote.workingDir ≠ none → remote.assigned.entries = []
  kept : ∀ key value, (key, some value) ∈ remote.env → Kept remote.cwd key value
  dir : layer.workingDir = none → command.currentDir = none ∧ ∀ l ∈ inner, l.workingDir = none
  nonempty : layer.workingDir ≠ some ""
  operand : ∀ dir ∈ remote.workingDir, OperandOk dir

/-- If there is such a layer; and the layers outside it lose none of its words. -/
def Carried (layers : List Layer) (command : Command χ) : Prop :=
  ∀ inner layer remote outer, layers = inner ++ layer :: outer → (∀ l ∈ inner, l.remote = none) →
    layer.remote = some remote →
    CarriedBy command inner layer remote ∧ HopsQuotable remote.words outer

/-! ## Values and variables -/

/-- A tilde behind a colon, in a text without quotes. -/
theorem tildeAfterColon_unquoted (text : List Char) :
    tildeAfterColon (unquoted text) = true ↔ [':', '~'] <:+: text := by
  induction text with
  | nil => simp [unquoted, tildeAfterColon]
  | cons c cs ih =>
    have hcons : unquoted (c :: cs) = (c, false) :: unquoted cs := rfl
    rw [hcons, tildeAfterColon, Bool.or_eq_true, ih, hasTilde_unquoted, List.infix_cons_iff]
    refine or_congr ?_ Iff.rfl
    cases cs with
    | nil => simp
    | cons d ds =>
      simp only [Bool.and_eq_true, beq_iff_eq, Bool.not_false, List.head?_cons, Option.some.injEq,
        List.cons_prefix_cons, List.nil_prefix, and_true]
      exact and_congr eq_comm eq_comm

/-- A value is assigned as it is if and only if it is free of tildes to expand. -/
theorem assignedValue_iff (value : String) :
    assignedValue (argWord value) = some value ↔ TildeFree value := by
  unfold argWord TildeFree
  split
  next hquote => simp [assignedValue, hasTilde_quoted, tildeAfterColon_quoted, hquote]
  next hquote =>
    have hcolon := tildeAfterColon_unquoted value.toList
    rw [assignedValue, hasTilde_unquoted, wordText_unquoted]
    cases htilde : tildeAfterColon (unquoted value.toList) with
    | true => simp [hquote, hcolon.mp htilde]
    | false =>
      have hnot : ¬[':', '~'] <:+: value.toList := by
        intro hinfix
        rw [hcolon.mpr hinfix] at htilde
        simp at htilde
      simp [hquote, hnot]

/-- A list of distinct keys may be searched from its end. -/
theorem lookup_reverse_map (f : String → Option String) (key : String) :
    ∀ {entries : List (Σ _ : String, String)}, entries.NodupKeys →
      ((entries.map (fun entry => (entry.1, f entry.2))).reverse).lookup key =
        (List.dlookup key entries).map f := by
  intro entries
  induction entries with
  | nil => intro _; rfl
  | cons entry entries ih =>
    intro hnodup
    obtain ⟨key', value⟩ := entry
    obtain ⟨hnew, hnodup⟩ := List.nodupKeys_cons.mp hnodup
    rw [List.map_cons, List.reverse_cons, List.lookup_append, ih hnodup]
    by_cases hk : key = key'
    · subst hk
      rw [List.dlookup_eq_none.mpr hnew, List.dlookup_cons_eq]
      simp
    · have hbeq : (key == key') = false := by simpa using hk
      rw [List.dlookup_cons_ne _ _ hk, List.lookup_cons, hbeq]
      simp

/-- The environment of the process is that of the command. -/
theorem lookup_process (command : Command χ) (key : String) :
    command.process.env.lookup key = (command.env.lookup key).map some :=
  lookup_reverse_map some key command.env.nodupKeys

/-- The two kinds of layers that start a shell. -/
theorem remote_cases {layer : Layer} {remote : Remote} (hremote : layer.remote = some remote) :
    (remote.assigned = layer.env ∧ remote.workingDir = layer.workingDir ∧ remote.env = [] ∧
      remote.cwd = none) ∨
    (remote.assigned.entries = [] ∧ remote.workingDir = none ∧
      remote.env = (layer.env.entries.map (fun entry => (entry.1, some entry.2))).reverse ∧
      remote.cwd = if layer.workingDir = some "" then none else layer.workingDir) := by
  cases layer with
  | localLayer layer => simp [Layer.remote] at hremote
  | sshLayer layer =>
    obtain rfl := Option.some.inj hremote
    exact Or.inl ⟨rfl, rfl, rfl, rfl⟩
  | dockerLayer layer =>
    obtain rfl := Option.some.inj hremote
    exact Or.inr ⟨rfl, rfl, rfl, rfl⟩

/-- A value is found if and only if it is an entry. -/
theorem lookup_eq_some_iff {env : HashMap String String} {key value : String} :
    env.lookup key = some value ↔ ⟨key, value⟩ ∈ env.entries := AList.mem_lookup_iff

/-- A shell that sets a working directory, or assigns, was started with nothing. -/
theorem kept_of_env_nil {remote : Remote} (henv : remote.env = []) :
    ∀ key value, (key, some value) ∈ remote.env → Kept remote.cwd key value := by
  intro key value hmem
  rw [henv] at hmem
  cases hmem

/-- The options `-e` of a container are the entries of its layer. -/
theorem mem_dockerEnv_iff {env : HashMap String String} {key value : String} :
    (key, some value) ∈ (env.entries.map (fun entry => (entry.1, some entry.2))).reverse ↔
      env.lookup key = some value := by
  rw [List.mem_reverse, List.mem_map, lookup_eq_some_iff]
  constructor
  · rintro ⟨entry, hentry, hsame⟩
    obtain ⟨rfl, hvalue⟩ := Prod.mk.inj hsame
    obtain rfl := Option.some.inj hvalue
    exact hentry
  · intro hentry
    exact ⟨_, hentry, rfl⟩

/-- **The variables of the layer reach the program** if they are assigned to the program
and nothing in them is expanded, or the shell starts with them and leaves them. -/
theorem processEnv_iff {layer : Layer} {remote : Remote} (hremote : layer.remote = some remote) :
    (∀ key value, layer.env.lookup key = some value →
      remote.processEnv.lookup key = some (some value)) ↔
    (∀ entry ∈ remote.assigned.entries, TildeFree entry.2) ∧
      (remote.workingDir ≠ none → remote.assigned.entries = []) ∧
      ∀ key value, (key, some value) ∈ remote.env → Kept remote.cwd key value := by
  rcases remote_cases hremote with ⟨hassigned, _, henv, _⟩ | ⟨hassigned, hnone, henv, _⟩
  -- on a host the text sets them, in front of the directory or of the command
  · cases hdir : remote.workingDir with
    | none =>
      have hlookup : ∀ key, remote.processEnv.lookup key =
          (layer.env.lookup key).map (fun value => assignedValue (argWord value)) := by
        intro key
        rw [Remote.processEnv, hdir, henv, hassigned, initial_nil, List.append_nil]
        exact lookup_reverse_map (fun value => assignedValue (argWord value)) key
          layer.env.nodupKeys
      constructor
      · intro h
        refine ⟨?_, by simp, kept_of_env_nil henv⟩
        intro entry hentry
        rw [hassigned] at hentry
        have hvalue := lookup_eq_some_iff.mpr hentry
        have harrives := h _ _ hvalue
        rw [hlookup, hvalue] at harrives
        exact (assignedValue_iff entry.2).mp (by simpa using harrives)
      · intro h key value hvalue
        have htilde := h.1 ⟨key, value⟩ (by rw [hassigned]; exact lookup_eq_some_iff.mp hvalue)
        rw [hlookup, hvalue, Option.map_some, (assignedValue_iff value).mpr htilde]
    | some dir =>
      -- the assignments are those of the `cd`
      have hlookup : ∀ key, remote.processEnv.lookup key = none := by
        intro key
        simp [Remote.processEnv, hdir, henv]
      constructor
      · intro h
        have hnil : remote.assigned.entries = [] := by
          rw [hassigned]
          refine List.eq_nil_iff_forall_not_mem.mpr ?_
          intro entry hentry
          have harrives := h _ _ (lookup_eq_some_iff.mpr hentry)
          rw [hlookup] at harrives
          simp at harrives
        exact ⟨by simp [hnil], fun _ => hnil, kept_of_env_nil henv⟩
      · intro h key value hvalue
        have hmem := lookup_eq_some_iff.mp hvalue
        rw [← hassigned, h.2.1 (by simp)] at hmem
        simp at hmem
  · -- the variables are those that the shell starts with
    have hlookup : ∀ key, remote.processEnv.lookup key = (layer.env.lookup key).map
        (fun value => initialValue remote.cwd key (some value)) := by
      intro key
      rw [Remote.processEnv, hnone, hassigned]
      refine (lookup_initial remote.cwd remote.env key).trans ?_
      rw [henv, lookup_reverse_map some key layer.env.nodupKeys, Option.map_map]
      rfl
    constructor
    · intro h
      refine ⟨by simp [hassigned], fun _ => hassigned, ?_⟩
      intro key value hmem
      rw [henv, mem_dockerEnv_iff] at hmem
      have harrives := h key value hmem
      rw [hlookup, hmem] at harrives
      exact initialValue_eq_some_iff.mp (Option.some.inj harrives)
    · intro h key value hvalue
      have hkept := h.2.2 key value (by rw [henv]; exact mem_dockerEnv_iff.mpr hvalue)
      rw [hlookup, hvalue, Option.map_some, initialValue_eq_some_iff.mpr hkept]

/-- Nothing else is set. -/
theorem processEnv_none {layer : Layer} {remote : Remote} (hremote : layer.remote = some remote)
    {key : String} (h : layer.env.lookup key = none) : remote.processEnv.lookup key = none := by
  have habsent : List.dlookup key layer.env.entries = none := h
  rcases remote_cases hremote with ⟨hassigned, _, henv, _⟩ | ⟨hassigned, hnone, henv, _⟩
  · cases hdir : remote.workingDir with
    | none =>
      have hlookup := lookup_reverse_map (fun value => assignedValue (argWord value)) key
        layer.env.nodupKeys
      rw [Remote.processEnv, hdir, henv, hassigned, initial_nil, List.append_nil]
      refine hlookup.trans ?_
      rw [habsent]
      rfl
    | some dir => simp [Remote.processEnv, hdir, henv]
  · have hlookup := lookup_reverse_map some key layer.env.nodupKeys
    rw [Remote.processEnv, hnone, hassigned]
    refine (lookup_initial remote.cwd remote.env key).trans ?_
    rw [henv, hlookup, habsent]
    rfl

/-- The directory of the layer, if it names one. -/
theorem processCwd_eq {layer : Layer} {remote : Remote} (hremote : layer.remote = some remote) :
    remote.processCwd = if layer.workingDir = some "" then none else layer.workingDir := by
  rcases remote_cases hremote with ⟨_, hdir, _, hcwd⟩ | ⟨_, hnone, _, hcwd⟩
  · rw [Remote.processCwd, hdir, hcwd]
    cases layer.workingDir with
    | none => simp
    | some dir => simp
  · rw [Remote.processCwd, hnone, hcwd]

/-! ## The first shell -/

/-- A key has a value. -/
theorem mem_env_iff {env : HashMap String String} {key : String} :
    key ∈ env ↔ ∃ value, env.lookup key = some value := by
  rw [← AList.lookup_isSome, Option.isSome_iff_exists]

/-- What is requested arrives if the layer has all variables of the command itself. -/
theorem env_arrives_iff {layer : Layer} {remote : Remote} (hremote : layer.remote = some remote)
    (env : HashMap String String) :
    (∀ key value, (layer.env.lookup key).or (env.lookup key) = some value →
      remote.processEnv.lookup key = some (some value)) ↔
    (∀ key ∈ env, key ∈ layer.env) ∧ (∀ entry ∈ remote.assigned.entries, TildeFree entry.2) ∧
      (remote.workingDir ≠ none → remote.assigned.entries = []) ∧
      ∀ key value, (key, some value) ∈ remote.env → Kept remote.cwd key value := by
  constructor
  · intro h
    have hlayer : ∀ key value, layer.env.lookup key = some value →
        remote.processEnv.lookup key = some (some value) := by
      intro key value hvalue
      exact h key value (by rw [hvalue]; rfl)
    refine ⟨?_, (processEnv_iff hremote).mp hlayer⟩
    intro key hkey
    obtain ⟨value, hvalue⟩ := mem_env_iff.mp hkey
    cases hlookup : layer.env.lookup key with
    | some value' => exact mem_env_iff.mpr ⟨value', hlookup⟩
    | none =>
      have harrives := h key value (by rw [hlookup, hvalue]; rfl)
      -- a variable of the command alone is not set by the shell
      rw [processEnv_none hremote hlookup] at harrives
      simp at harrives
  · intro h key value hvalue
    refine (processEnv_iff hremote).mpr h.2 key value ?_
    cases hlookup : layer.env.lookup key with
    | some value' => simpa [hlookup] using hvalue
    | none =>
      rw [hlookup, Option.none_or] at hvalue
      obtain ⟨value', hvalue'⟩ := mem_env_iff.mp (h.1 key (mem_env_iff.mpr ⟨value, hvalue⟩))
      rw [hlookup] at hvalue'
      simp at hvalue'

/-- The directory of the command itself never arrives. -/
theorem dir_arrives_iff {layer : Layer} {remote : Remote} (hremote : layer.remote = some remote)
    (current : Option String) :
    (∀ dir, layer.workingDir.or current = some dir → remote.processCwd = some dir) ↔
      (layer.workingDir = none → current = none) ∧ layer.workingDir ≠ some "" := by
  rw [processCwd_eq hremote]
  cases layer.workingDir with
  | none => cases current <;> simp
  | some dir => simp

/-- **At the first shell**: the text runs the command, with all that is requested of the
command and the layer, exactly if the layer carries it. -/
theorem run_delivers_iff {layer : Layer} {remote : Remote} (hremote : layer.remote = some remote)
    (hnames : ∀ entry ∈ layer.env.entries, isName entry.1 = true) (command : Command χ) :
    (∃ process, run remote.env remote.cwd (remote.text command).toList = some process ∧
      process.argv = command.argv ∧
      (∀ key value, (layer.env.lookup key).or (command.env.lookup key) = some value →
        process.env.lookup key = some (some value)) ∧
      ∀ dir, layer.workingDir.or command.currentDir = some dir → process.cwd = some dir) ↔
    CarriedBy command [] layer remote := by
  have hassigned := names_assigned hremote hnames
  constructor
  · intro ⟨process, hrun, hargv, henv, hdir⟩
    rcases run_text_cases hassigned hrun with
      ⟨assigned, simple, hends, hsimple, hoperand, hfirst⟩ | ⟨_, hlost, hcd⟩
    · obtain ⟨hprogram, hargs, hreserved⟩ := plain_of_read hends (hsimple.symm.trans hargv)
      have hreserved' : remote.CommandFirst → command.program ∉ reservedWords :=
        fun h => hreserved (hfirst h)
      rw [run_text hassigned hoperand hprogram hargs hreserved'] at hrun
      obtain rfl := Option.some.inj hrun
      obtain ⟨hcommandEnv, hvalues, hexclusive, hkept⟩ := (env_arrives_iff hremote command.env).mp henv
      obtain ⟨hcurrent, hnonempty⟩ := (dir_arrives_iff hremote command.currentDir).mp hdir
      exact ⟨hprogram, hargs, hreserved', hcommandEnv, by simp, hvalues, hexclusive, hkept,
        fun hnone => ⟨hcurrent hnone, by simp⟩, hnonempty, hoperand⟩
    · -- the directory has become a comment: the program is not run in it
      exfalso
      rcases remote_cases hremote with ⟨_, hsame, _, hnocwd⟩ | ⟨_, hnone, _⟩
      · cases hworkingDir : layer.workingDir with
        | none => exact hcd (by rw [hsame, hworkingDir])
        | some dir =>
          have harrives := hdir dir (by rw [hworkingDir]; rfl)
          rw [hlost, hnocwd] at harrives
          simp at harrives
      · exact hcd hnone
  · intro h
    have hrun := run_text hassigned h.operand h.program h.args h.reserved
    have henv := (env_arrives_iff hremote command.env).mpr
      ⟨h.commandEnv, h.values, h.exclusive, h.kept⟩
    have hdir := (dir_arrives_iff hremote command.currentDir).mpr
      ⟨fun hnone => (h.dir hnone).1, h.nonempty⟩
    exact ⟨_, hrun, rfl, henv, hdir⟩

/-! ## The local layers inside it -/

/-- A local layer puts its environment before the command's. -/
theorem lookup_wrapCommand {layer : Layer} (h : layer.remote = none) (command : Command χ)
    (key : String) : (layer.wrapCommand command).env.lookup key =
      (layer.env.lookup key).or (command.env.lookup key) := by
  obtain ⟨layer, rfl⟩ := remote_eq_none_iff.mp h
  have hlookup := command.lookup_setEnvs layer.env key
  show (applyWorkingDir (command.setEnvs layer.env) layer.workingDir).env.lookup key = _
  cases layer.workingDir with
  | none => exact hlookup
  | some dir => exact hlookup

/-- A local layer puts its directory before the command's. -/
theorem currentDir_wrapCommand {layer : Layer} (h : layer.remote = none) (command : Command χ) :
    (layer.wrapCommand command).currentDir = layer.workingDir.or command.currentDir := by
  obtain ⟨layer, rfl⟩ := remote_eq_none_iff.mp h
  obtain ⟨_, _, hdir, _⟩ := command.setEnvs_frame layer.env
  show (applyWorkingDir (command.setEnvs layer.env) layer.workingDir).currentDir =
    layer.workingDir.or command.currentDir
  cases layer.workingDir with
  | none => exact hdir
  | some dir => rfl

/-- A local layer inside asks for no more than the command it has wrapped does. -/
theorem carriedBy_wrapCommand {l : Layer} (hlocal : l.remote = none) (command : Command χ)
    (inner : List Layer) (layer : Layer) (remote : Remote) :
    CarriedBy (l.wrapCommand command) inner layer remote ↔
      CarriedBy command (l :: inner) layer remote := by
  obtain ⟨hprogram, hargs⟩ := List.cons.inj (wrapCommand_local hlocal command)
  have henv : ∀ key, key ∈ (l.wrapCommand command).env ↔ key ∈ l.env ∨ key ∈ command.env := by
    intro key
    rw [← AList.lookup_isSome, ← AList.lookup_isSome, ← AList.lookup_isSome,
      lookup_wrapCommand hlocal, Option.isSome_or, Bool.or_eq_true]
  have hdir : (l.wrapCommand command).currentDir = none ↔
      l.workingDir = none ∧ command.currentDir = none := by
    rw [currentDir_wrapCommand hlocal, Option.or_eq_none_iff]
  constructor
  · intro h
    refine ⟨hprogram ▸ h.program, hargs ▸ h.args, hprogram ▸ h.reserved, ?_, ?_, h.values,
      h.exclusive, h.kept, ?_, h.nonempty, h.operand⟩
    · exact fun key hkey => h.commandEnv key ((henv key).mpr (Or.inr hkey))
    · exact List.forall_mem_cons.mpr
        ⟨fun key hkey => h.commandEnv key ((henv key).mpr (Or.inl hkey)), h.innerEnv⟩
    · intro hnone
      obtain ⟨hcurrent, hinner⟩ := h.dir hnone
      obtain ⟨hl, hcommand⟩ := hdir.mp hcurrent
      exact ⟨hcommand, List.forall_mem_cons.mpr ⟨hl, hinner⟩⟩
  · intro h
    obtain ⟨hlEnv, hinnerEnv⟩ := List.forall_mem_cons.mp h.innerEnv
    refine ⟨hprogram ▸ h.program, hargs ▸ h.args, hprogram ▸ h.reserved, ?_, hinnerEnv, h.values,
      h.exclusive, h.kept, ?_, h.nonempty, h.operand⟩
    · intro key hkey
      exact ((henv key).mp hkey).elim (hlEnv key) (h.commandEnv key)
    · intro hnone
      obtain ⟨hcommand, hall⟩ := h.dir hnone
      obtain ⟨hl, hinner⟩ := List.forall_mem_cons.mp hall
      exact ⟨hdir.mpr ⟨hl, hcommand⟩, hinner⟩

/-- What is carried through a local layer. -/
theorem carried_local {l : Layer} (hlocal : l.remote = none) (layers : List Layer)
    (command : Command χ) :
    Carried (l :: layers) command ↔ Carried layers (l.wrapCommand command) := by
  constructor
  · intro h inner layer remote outer hlayers hinner hremote
    obtain ⟨hcarried, hhops⟩ := h (l :: inner) layer remote outer (by rw [hlayers]; rfl)
      (List.forall_mem_cons.mpr ⟨hlocal, hinner⟩) hremote
    exact ⟨(carriedBy_wrapCommand hlocal command inner layer remote).mpr hcarried, hhops⟩
  · intro h inner layer remote outer hlayers hinner hremote
    cases inner with
    | nil =>
      -- the innermost layer with a shell is not a local one
      obtain rfl : l = layer := (List.cons.inj hlayers).1
      rw [hlocal] at hremote
      simp at hremote
    | cons l' inner =>
      obtain ⟨rfl, rfl⟩ := List.cons.inj hlayers
      obtain ⟨hcarried, hhops⟩ := h inner layer remote outer rfl
        (fun x hx => hinner x (List.mem_cons_of_mem _ hx)) hremote
      exact ⟨(carriedBy_wrapCommand hlocal command inner layer remote).mp hcarried, hhops⟩

/-- What is carried through a remote layer: what the layer itself carries, quoted for the layers
outside. -/
theorem carried_remote {layer : Layer} {remote : Remote} (hremote : layer.remote = some remote)
    (layers : List Layer) (command : Command χ) : Carried (layer :: layers) command ↔
      CarriedBy command [] layer remote ∧ HopsQuotable remote.words layers := by
  constructor
  · intro h
    exact h [] layer remote layers rfl (by simp) hremote
  · intro h inner layer' remote' outer hlayers hinner hremote'
    cases inner with
    | nil =>
      obtain ⟨rfl, rfl⟩ := List.cons.inj hlayers
      obtain rfl : remote = remote' := by
        rw [hremote] at hremote'
        exact Option.some.inj hremote'
      exact h
    | cons l inner =>
      obtain ⟨rfl, _⟩ := List.cons.inj hlayers
      rw [hinner layer List.mem_cons_self] at hremote
      simp at hremote

/-- What is delivered through a local layer. -/
theorem delivered_local {l : Layer} (hlocal : l.remote = none) (layers : List Layer)
    (command : Command χ) :
    Delivered (l :: layers) command ↔ Delivered layers (l.wrapCommand command) := by
  have hhops : hops (l :: layers) = hops layers := by simp [hops, hlocal]
  have hvisible : visibleLayers (l :: layers) = l :: visibleLayers layers := by
    simp [visibleLayers, hlocal]
  have henv : ∀ key, requestedEnv (l :: layers) command key =
      requestedEnv layers (l.wrapCommand command) key := by
    intro key
    rw [requestedEnv, hvisible, List.foldl_cons, requestedEnv, lookup_wrapCommand hlocal]
  have hdir : requestedDir (l :: layers) command = requestedDir layers (l.wrapCommand command) := by
    rw [requestedDir, hvisible, List.foldl_cons, requestedDir, currentDir_wrapCommand hlocal]
  have htransform : transformCommand (l :: layers) command =
      transformCommand layers (l.wrapCommand command) := rfl
  simp only [Delivered, hhops, henv, hdir, htransform, wrapCommand_local hlocal]

/-- What is delivered through a remote layer: what its own shell hands to the process. -/
theorem delivered_remote {layer : Layer} {remote : Remote} (hremote : layer.remote = some remote)
    {layers : List Layer} (hlayer : ∀ entry ∈ layer.env.entries, isName entry.1 = true)
    (hlayers : ∀ layer ∈ layers, ∀ entry ∈ layer.env.entries, isName entry.1 = true)
    (command : Command χ) : Delivered (layer :: layers) command ↔
      HopsQuotable remote.words layers ∧
      ∃ process, run remote.env remote.cwd (remote.text command).toList = some process ∧
        process.argv = command.argv ∧
        (∀ key value, (layer.env.lookup key).or (command.env.lookup key) = some value →
          process.env.lookup key = some (some value)) ∧
        ∀ dir, layer.workingDir.or command.currentDir = some dir → process.cwd = some dir := by
  have hhops : hops (layer :: layers) = remote.words :: hops layers := by simp [hops, hremote]
  have hvisible : visibleLayers (layer :: layers) = [layer] := by simp [visibleLayers, hremote]
  obtain ⟨outer, outerArgs, houter, houterPlain, houterFree, _⟩ := words_remote hremote
  have hargv := wrapCommand_remote hremote command
  have hunwrap : ∀ process, unwrap (hops (layer :: layers)).length
      (transformCommand (layer :: layers) command).process =
        some ((hops (layer :: layers)).reverse, process) ↔
      HopsQuotable remote.words layers ∧
        run remote.env remote.cwd (remote.text command).toList = some process := by
    intro process
    rw [hhops, List.length_cons, List.reverse_cons]
    rw [← hop_wrapCommand hremote hlayer]
    exact unwrap_transformCommand hlayers hargv houter houterPlain houterFree _ _ process
  simp only [Delivered, hunwrap, requestedEnv, requestedDir, hvisible, List.foldl_cons,
    List.foldl_nil]
  constructor
  · intro h
    obtain ⟨process, ⟨hquotable, hrun⟩, h⟩ := h
    exact ⟨hquotable, process, hrun, h⟩
  · intro h
    obtain ⟨hquotable, process, hrun, h⟩ := h
    exact ⟨process, ⟨hquotable, hrun⟩, h⟩

/-- The shells deliver exactly what the layers carry. -/
theorem delivered_iff_carried : ∀ {layers : List Layer},
    (∀ layer ∈ layers, ∀ entry ∈ layer.env.entries, isName entry.1 = true) →
    ∀ (command : Command χ), Delivered layers command ↔ Carried layers command := by
  intro layers
  induction layers with
  | nil =>
    intro _ command
    constructor
    · intro _ inner layer remote outer hlayers
      simp at hlayers
    · intro _
      -- no layer at all: the launcher starts the command itself
      refine ⟨command.process, rfl, rfl, ?_, fun dir hdir => hdir⟩
      intro key value hvalue
      have hcommand : command.env.lookup key = some value := hvalue
      rw [lookup_process, hcommand]
      rfl
  | cons layer layers ih =>
    intro hnames command
    obtain ⟨hlayer, hlayers⟩ := List.forall_mem_cons.mp hnames
    cases hremote : layer.remote with
    | none => rw [delivered_local hremote, carried_local hremote, ih hlayers]
    | some remote =>
      rw [delivered_remote hremote hlayer hlayers, carried_remote hremote,
        run_delivers_iff hremote hlayer, and_comm]

/-- **The environment and the directory are delivered exactly if they are carried.** -/
theorem delivered_iff {layers : List Layer}
    (hnames : ∀ layer ∈ layers, ∀ key ∈ layer.env, isName key = true) (command : Command χ) :
    Delivered layers command ↔ Carried layers command := by
  refine delivered_iff_carried ?_ command
  intro layer hlayer entry hentry
  exact hnames layer hlayer entry.1 (AList.mem_keys.mpr (List.mem_map_of_mem hentry))

/-- A host without any settings. -/
def sshHost : SshLayer := ⟨"u@host", none, none, [], ∅, none, false, false, false⟩

/-- `env`, with a variable set on the command. -/
def envOfRust : Command Unit := (Command.new "env").setEnv "RUST_LOG" "debug"

/-- A host with that variable set on the layer. -/
def sshHostInfo : SshLayer :=
  { sshHost with env := (∅ : HashMap String String).insert "RUST_LOG" "info" }

/-- The layer sets the variable again, and its own value arrives. -/
theorem delivered_rust_info : Delivered [.sshLayer sshHostInfo] envOfRust := by
  refine (delivered_iff ?_ envOfRust).mpr ((carried_remote rfl [] envOfRust).mpr ⟨?_, trivial⟩)
  · intro layer hlayer
    obtain rfl := List.mem_singleton.mp hlayer
    intro key hkey
    obtain rfl : key = "RUST_LOG" := by simpa [Layer.env, sshHostInfo, AList.mem_keys] using hkey
    decide
  · exact {
      program := by decide
      args := by decide
      reserved := fun _ => by decide
      commandEnv := by
        intro key hkey
        obtain rfl : key = "RUST_LOG" := by
          simpa [envOfRust, Command.setEnv, Command.new, AList.mem_keys] using hkey
        exact AList.mem_insert _ |>.mpr (Or.inl rfl)
      innerEnv := by simp
      values := by
        intro entry hentry
        obtain rfl : entry = ⟨"RUST_LOG", "info"⟩ := by
          exact List.mem_singleton.mp hentry
        exact Or.inr (by decide)
      exclusive := fun h => absurd rfl h
      kept := by simp [SshLayer.remote]
      dir := fun _ => ⟨rfl, by simp⟩
      nonempty := by decide
      operand := by simp [SshLayer.remote, sshHostInfo, sshHost] }

/-- A host with a variable and a directory. -/
def sshWorkspace : SshLayer :=
  { sshHost with
    env := (∅ : HashMap String String).insert "REMOTE_VAR" "remote_value"
    workingDir := some "/remote/workspace" }

/-- `node app.js`. -/
def nodeApp : Command Unit := (Command.new "node").arg "app.js"

/-- **With a directory, the variables of the layer are lost**: they are assigned to the
`cd`. -/
theorem not_delivered_workspace : ¬Delivered [.sshLayer sshWorkspace] nodeApp := by
  intro ⟨process, hunwrap, _, henv, _⟩
  have hreached : unwrap 1 (transformCommand [.sshLayer sshWorkspace] nodeApp).process =
      some ([["ssh", "u@host"]], ⟨["node", "app.js"], [], some "/remote/workspace"⟩) := by
    decide +kernel
  have hprocess : process = ⟨["node", "app.js"], [], some "/remote/workspace"⟩ :=
    ((Prod.mk.inj (Option.some.inj (hreached.symm.trans hunwrap))).2).symm
  have hlost := henv "REMOTE_VAR" "remote_value" (by decide)
  rw [hprocess] at hlost
  simp at hlost

end GraphHarness.Executor
