import GraphHarness.Executor.Hops

/-!
# Any number of hops

The folded command is the original one at the end of all hops

> `unwrap_delivers_command` — **the hops are entered from the last layer to the
> first**, and the innermost shell runs the program with its arguments, however
> often these have been quoted,

for layers without environment and directory, and strings that need no more than
the quoting they get.

This is `Executor.Hops` put together for whole stacks, with conditions that can be read off
the layers: `Layer.Plain` says that no string of a layer needs anything but its quoting, and
`hopsQuotable_of_plain` that the words of one hop then survive all hops outside of it. The
induction is over the stack, from the layer that is entered last.

The general statement, with environments and directories, is that of `Executor.Environment`.
`sampleLayers` has a container, a local layer and a host, and an argument with quotes and a
line break that has to pass all of them.
-/

namespace GraphHarness.Executor

open Shell

variable {χ : Type}

/-- Neither empty, nor a comment, nor a tilde expansion. -/
def Harmless (s : String) : Prop :=
  s ≠ "" ∧ s.toList.head? ≠ some '#' ∧ s.toList.head? ≠ some '~'

/-- Letters, digits, and the other characters of a plain path. -/
def isProgramChar (c : Char) : Bool :=
  c.isAlphanum || c == '/' || c == '.' || c == '_' || c == '-' || decide (128 ≤ c.toNat)

/-- The strings a layer without environment and directory is made of. -/
def Layer.strings : Layer → List String
  | .localLayer _ => []
  | .sshLayer layer => layer.destination :: (layer.identityFile.toList ++ layer.options)
  | .dockerLayer layer => layer.container :: layer.user.toList

instance (s : String) : Decidable (Harmless s) := inferInstanceAs (Decidable (_ ∧ _))

/-- A harmless word can be quoted. -/
theorem Harmless.quotable {s : String} (h : Harmless s) : QuotableArg s := Or.inr h

/-- A number can be quoted. -/
theorem quotable_repr (n : Nat) : QuotableArg (Nat.repr n) := by
  have hdigit : ∀ c ∈ (Nat.repr n).toList, c.isDigit = true := by
    intro c hc
    rw [Nat.toList_repr] at hc
    exact Nat.isDigit_of_mem_toDigits (by decide) (by decide) hc
  have hhead : ∀ c, c.isDigit = false → (Nat.repr n).toList.head? ≠ some c := by
    intro c hc he
    rw [hdigit c (List.mem_of_head? he)] at hc
    simp at hc
  exact Harmless.quotable ⟨Nat.repr_ne_empty, hhead '#' (by decide), hhead '~' (by decide)⟩

/-- The program of the statement is a plain word: it has no character with a meaning. -/
theorem plain_of_programChars {program : String} (hne : program ≠ "")
    (h : program.toList.all isProgramChar = true) : PlainProgram program := by
  have hfree : ∀ d, isProgramChar d = false → d ∉ program.toList := by
    intro d hd hmem
    rw [List.all_eq_true.mp h d hmem] at hd
    simp at hd
  have hnot : ∀ c ∈ program.toList, ∀ d, isProgramChar d = false → c ≠ d := by
    intro c hc d hd he
    exact hfree d hd (he ▸ hc)
  have hord : program.toList.all isOrdinary = true := by
    rw [List.all_eq_true]
    intro c hc
    have hne := hnot c hc
    simp [isOrdinary, isSeparator, isBlank, isNewline, isExpansion, isOperator,
      hne ' ' (by decide), hne '\t' (by decide), hne '\n' (by decide), hne '$' (by decide),
      hne '`' (by decide), hne '|' (by decide), hne ';' (by decide), hne '<' (by decide),
      hne '>' (by decide), hne '(' (by decide), hne ')' (by decide), hne '&' (by decide),
      hne '\\' (by decide), hne '\'' (by decide), hne '"' (by decide)]
  have hhead : ∀ d, isProgramChar d = false → program.toList.head? ≠ some d := by
    intro d hd he
    exact hfree d hd (List.mem_of_head? he)
  refine ⟨hne, hord, hhead '#' (by decide), hhead '~' (by decide), ?_, ?_⟩
  · refine hasPattern_unquoted ?_
    intro c hc
    exact ⟨hnot c hc '*' (by decide), hnot c hc '?' (by decide), hnot c hc '[' (by decide)⟩
  · -- an assignment would have an equals sign
    unfold splitAssignment
    split
    next c q rest hdrop =>
      have hmem : (c, q) ∈ unquoted program.toList :=
        (List.dropWhile_suffix _).subset (hdrop ▸ List.mem_cons_self)
      obtain ⟨c', hc', he⟩ := List.mem_map.mp hmem
      obtain ⟨rfl, rfl⟩ := Prod.mk.inj he
      have hequals : (c' == '=') = false := by simpa using hnot c' hc' '=' (by decide)
      simp [hequals]
    next => rfl

/-- The words of a layer made of harmless strings. -/
theorem quotable_words {layer : Layer} {remote : Remote} (hremote : layer.remote = some remote)
    (henv : layer.env.entries = []) (hdir : layer.workingDir = none)
    (hstrings : ∀ s ∈ layer.strings, Harmless s) : ∀ a ∈ remote.words, QuotableArg a := by
  cases layer with
  | localLayer layer => simp [Layer.remote] at hremote
  | sshLayer layer =>
    obtain rfl := Option.some.inj hremote
    obtain ⟨hdestination, hothers⟩ := List.forall_mem_cons.mp hstrings
    obtain ⟨hidentity, hoptions⟩ := List.forall_mem_append.mp hothers
    intro a ha
    simp only [SshLayer.remote, SshLayer.optionArgs, List.mem_cons, List.mem_append,
      List.not_mem_nil, or_false] at ha
    -- the options in the order in which they are pushed
    rcases ha with rfl | ((((((ha | ha) | ha) | ha) | ha) | ha) | rfl)
    · decide
    · split at ha <;> simp at ha; subst ha; decide
    · split at ha <;> simp at ha; subst ha; decide
    · split at ha <;> simp at ha; subst ha; decide
    · split at ha
      next port _ =>
        simp only [List.mem_cons, List.not_mem_nil, or_false] at ha
        rcases ha with rfl | rfl
        · decide
        · exact quotable_repr _
      next => simp at ha
    · split at ha
      next identity hid =>
        simp only [List.mem_cons, List.not_mem_nil, or_false] at ha
        rcases ha with rfl | rfl
        · decide
        · exact (hidentity _ (by simp [hid])).quotable
      next => simp at ha
    · exact (hoptions a ha).quotable
    · exact hdestination.quotable
  | dockerLayer layer =>
    obtain rfl := Option.some.inj hremote
    obtain ⟨hcontainer, huser⟩ := List.forall_mem_cons.mp hstrings
    have henv' : layer.env.entries = [] := henv
    have hdir' : layer.workdir = none := hdir
    intro a ha
    simp only [DockerLayer.remote, DockerLayer.optionArgs, henv', hdir', List.mem_cons,
      List.mem_append, List.not_mem_nil, or_false, List.flatMap_nil] at ha
    -- without environment and directory there are three kinds of options left
    rcases ha with rfl | rfl | (((ha | ha) | ha) | rfl | rfl | rfl)
    · decide
    · decide
    · split at ha <;> simp at ha; subst ha; decide
    · split at ha <;> simp at ha; subst ha; decide
    · split at ha
      next user hu =>
        simp only [List.mem_cons, List.not_mem_nil, or_false] at ha
        rcases ha with rfl | rfl
        · decide
        · exact (huser _ (by simp [hu])).quotable
      next => simp at ha
    · exact hcontainer.quotable
    · decide
    · decide

/-- A layer that sets no environment and no directory, of harmless strings. -/
def Layer.Plain (layer : Layer) : Prop :=
  layer.env.entries = [] ∧ layer.workingDir = none ∧ ∀ s ∈ layer.strings, Harmless s

/-- The environment of a plain layer has names as keys. -/
theorem Layer.Plain.names {layer : Layer} (h : layer.Plain) :
    ∀ entry ∈ layer.env.entries, isName entry.1 = true := by
  rw [h.1]
  simp

/-- Nothing is done in front of the command, then. -/
theorem Layer.Plain.remote {layer : Layer} (h : layer.Plain) {remote : Remote}
    (hremote : layer.remote = some remote) :
    remote.assigned.entries = [] ∧ remote.workingDir = none := by
  obtain ⟨henv, hdir, _⟩ := h
  cases layer with
  | localLayer layer => simp [Layer.remote] at hremote
  | sshLayer layer =>
    obtain rfl := Option.some.inj hremote
    exact ⟨henv, hdir⟩
  | dockerLayer layer =>
    obtain rfl := Option.some.inj hremote
    exact ⟨rfl, rfl⟩

/-- The hops of plain layers can be quoted. -/
theorem hopsQuotable_of_plain : ∀ {layers : List Layer}, (∀ layer ∈ layers, layer.Plain) →
    ∀ {words : List String}, (∀ a ∈ words, QuotableArg a) → HopsQuotable words layers := by
  intro layers
  induction layers with
  | nil => intro _ words _; trivial
  | cons layer layers ih =>
    intro hplain words hwords
    obtain ⟨hlayer, hlayers⟩ := List.forall_mem_cons.mp hplain
    rw [HopsQuotable]
    cases hremote : layer.remote with
    | none => exact ih hlayers hwords
    | some remote =>
      obtain ⟨henv, hdir, hstrings⟩ := hlayer
      obtain ⟨_, hnone⟩ := Layer.Plain.remote ⟨henv, hdir, hstrings⟩ hremote
      exact ⟨hwords, by simp [hnone], ih hlayers (quotable_words hremote henv hdir hstrings)⟩

/-- The command behind any number of local layers, and then through the hops. -/
theorem unwrap_plain : ∀ {layers : List Layer}, (∀ layer ∈ layers, layer.Plain) →
    ∀ {command : Command χ}, PlainProgram command.program → command.program ∉ reservedWords →
      (∀ a ∈ command.args, QuotableArg a) →
      ∀ (env : List (String × Option String)) (cwd : Option String),
        ∃ process, unwrap (hops layers).length ⟨(transformCommand layers command).argv, env, cwd⟩ =
          some ((hops layers).reverse, process) ∧ process.argv = command.argv := by
  intro layers
  induction layers with
  | nil => intro _ command _ _ _ env cwd; exact ⟨_, rfl, rfl⟩
  | cons layer layers ih =>
    intro hplain command hprogram hreserved hargs env cwd
    obtain ⟨hlayer, hlayers⟩ := List.forall_mem_cons.mp hplain
    show ∃ process, unwrap _
        ⟨(transformCommand layers (layer.wrapCommand command)).argv, env, cwd⟩ = _ ∧ _
    cases hremote : layer.remote with
    | none =>
      have hhops : hops (layer :: layers) = hops layers := by simp [hops, hremote]
      have hlocal := wrapCommand_local hremote command
      obtain ⟨hsame, hsameArgs⟩ := List.cons.inj hlocal
      obtain ⟨process, hunwrap, hargv⟩ := @ih hlayers (layer.wrapCommand command)
        (hsame ▸ hprogram) (hsame ▸ hreserved) (hsameArgs ▸ hargs) env cwd
      exact ⟨process, by rw [hhops, hunwrap], hargv.trans hlocal⟩
    | some remote =>
      -- the innermost hop; all others are around it
      have hhops : hops (layer :: layers) = remote.words :: hops layers := by simp [hops, hremote]
      obtain ⟨outer, outerArgs, houter, houterPlain, houterFree, _⟩ := words_remote hremote
      obtain ⟨henv, hdir⟩ := hlayer.remote hremote
      have hargv := wrapCommand_remote hremote command
      have hrun := @run_text _ remote (by simp [henv]) (by simp [hdir]) _ hprogram hargs
        (fun _ => hreserved)
      have hhop := (hop_wrapCommand hremote hlayer.names command _).mpr hrun
      have hquotable := hopsQuotable_of_plain hlayers
        (quotable_words hremote hlayer.1 hlayer.2.1 hlayer.2.2)
      refine ⟨⟨command.argv, remote.processEnv, remote.processCwd⟩, ?_, rfl⟩
      rw [hhops, List.length_cons, List.reverse_cons]
      exact (unwrap_transformCommand (fun l hl => (hlayers l hl).names) hargv houter houterPlain
        houterFree env cwd _).mpr ⟨hquotable, hhop⟩

/-- **The command is delivered through any number of hops**: for every stack of layers
without environment and directory, the shells of the layers are entered from the last
to the first, and the process inside them has the program and the arguments. -/
theorem unwrap_delivers_command {layers : List Layer} {command : Command χ}
    (hlayers : ∀ layer ∈ layers, layer.env.entries = [] ∧ layer.workingDir = none)
    (hstrings : ∀ layer ∈ layers, ∀ s ∈ layer.strings, Harmless s)
    (hne : command.program ≠ "") (hchars : command.program.toList.all isProgramChar = true)
    (hreserved : command.program ∉ reservedWords) (hargs : ∀ a ∈ command.args, Harmless a)
    (env : List (String × Option String)) (cwd : Option String) :
    ∃ process, unwrap (hops layers).length ⟨(transformCommand layers command).argv, env, cwd⟩ =
        some ((hops layers).reverse, process) ∧
      process.argv = command.program :: command.args :=
  unwrap_plain (fun layer h => ⟨(hlayers layer h).1, (hlayers layer h).2, hstrings layer h⟩)
    (plain_of_programChars hne hchars) hreserved (fun a ha => (hargs a ha).quotable) env cwd

/-- A container, a local layer and a host, with the options they take. -/
def sampleLayers : List Layer :=
  [.dockerLayer ⟨"box", true, false, some "root", none, ∅⟩, .localLayer ⟨∅, none⟩,
    .sshLayer ⟨"u@host", some 22, none, ["-o", "User=it's"], ∅, none, true, false, false⟩]

/-- Arguments that a shell would expand or split. -/
def sampleCommand : Command Unit := ((Command.new "/bin/echo").arg "it's $5").arg "a\n'b'"

/-- Two hops and a local layer; quotes, a dollar sign and a newline. -/
theorem unwrap_delivers_sample :
    ∃ process, unwrap 2 ⟨(transformCommand sampleLayers sampleCommand).argv, [], none⟩ =
        some ([["ssh", "-A", "-p", "22", "-o", "User=it's", "u@host"],
          ["docker", "exec", "-i", "-u", "root", "box", "sh", "-c"]], process) ∧
      process.argv = ["/bin/echo", "it's $5", "a\n'b'"] :=
  @unwrap_delivers_command Unit sampleLayers sampleCommand
    (by simp [sampleLayers, Layer.env, Layer.workingDir, AList.empty_entries])
    (by simp [sampleLayers, Layer.strings]; decide) (by decide) (by decide) (by decide) (by decide)
    [] none

end GraphHarness.Executor
