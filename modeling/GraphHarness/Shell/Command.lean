import GraphHarness.Shell.Loss

/-!
# Commands: what a text runs

From tokens to processes. A text is a list of simple commands joined by `&&`; a
simple command is a list of words, the first of which may be assignments. The words
of the command have to stand for themselves (no tilde, no pathname pattern), since
what they expand to depends on the machine; the value of an assignment may be
unknown (`none`) for the same reason.

Only `cd` can come before the last command of the list: of any other program it is
not known whether it succeeds. `run` returns the last command as a `Process`, with
the environment it adds to the one of the shell, and the directory if it is known.

What the shell finds in its environment it hands on to what it runs, with the exception
of the variables that the standard has it set when it is invoked: whatever `IFS`, `OPTIND`,
`PPID` or `PWD` was before, the program finds what the shell has made of it. `LINENO`, whose
value the standard leaves open, is unknown (`none`): some shells reset an inherited one, some
leave it. Assigned in front of a command these are variables like others. The shell has no
variables beside those of the standard (`SHLVL` or `UID`, as some shells have them).

The order of a run is that of the standard: the text is cut into commands, the assignments of
the last one are added to the environment of the shell, and its words are what is executed. An
assignment in front of `cd` is gone behind it. A command that is a reserved word, or a list
with anything but `cd` before its last command, has no reading here, so the statements are
about what is known in any POSIX shell.

The lemmas at the end describe a run by its parts, and the layers of `Executor` use nothing
else.
-/

namespace GraphHarness.Shell

/-! ## Words -/

/-- The characters of a word without its quoting. -/
def wordText (w : Word) : String := String.ofList (value w)

/-- A leading `~`, no character of which is quoted up to one of `ends`. -/
def hasTilde (ends : List Char) : Word → Bool
  | (c, q) :: w =>
    c == '~' && !q && (w.takeWhile (fun x => x.2 || !ends.contains x.1)).all (fun x => !x.2)
  | [] => false

/-- A bracket expression is closed, without a slash on the way. -/
def closesBracket : Word → Bool
  | [] => false
  | (c, q) :: w => (c == ']' && !q) || (c != '/' && closesBracket w)

/-- What follows a `[` makes it a bracket expression: a `!`, one character of any
kind, and a `]` later on. -/
def opensBracket : Word → Bool
  | [] => false
  | (c, q) :: w =>
    if c == '!' && !q then
      match w with
      | [] => false
      | (d, _) :: w => d != '/' && closesBracket w
    else c != '/' && closesBracket w

/-- The word has a pattern, which the shell would replace by file names. -/
def hasPattern : Word → Bool
  | [] => false
  | (c, q) :: w => (!q && (c == '*' || c == '?' || (c == '[' && opensBracket w))) || hasPattern w

/-- The argument a word stands for. -/
def literal (w : Word) : Option String :=
  if hasTilde ['/'] w || hasPattern w then none else some (wordText w)

/-- The arguments of some words, if each stands for one. -/
def literals : List Word → Option (List String)
  | [] => some []
  | w :: ws =>
    match literal w with
    | some arg =>
      match literals ws with
      | some args => some (arg :: args)
      | none => none
    | none => none

/-- The first character of a name. -/
def isNameStart (c : Char) : Bool := c.isAlpha || c == '_'

/-- The other characters of a name. -/
def isNameChar (c : Char) : Bool := c.isAlphanum || c == '_'

/-- An unquoted character of a name. -/
def inName (x : Char × Bool) : Bool := !x.2 && isNameChar x.1

/-- The name and the value of an assignment word. -/
def splitAssignment (w : Word) : Option (List Char × Word) :=
  match w.dropWhile inName with
  | (c, q) :: rest =>
    if c == '=' && !q && (w.takeWhile inName).head?.any (fun x => isNameStart x.1) then
      some (value (w.takeWhile inName), rest)
    else none
  | [] => none

/-- A tilde that an assignment expands. -/
def tildeAfterColon : Word → Bool
  | [] => false
  | (c, q) :: w => (c == ':' && !q && hasTilde ['/', ':'] w) || tildeAfterColon w

/-- The value that is assigned, if it does not depend on the machine. -/
def assignedValue (w : Word) : Option String :=
  if hasTilde ['/', ':'] w || tildeAfterColon w then none else some (wordText w)

/-- The names with a meaning of their own at the beginning of a command. -/
def reservedWords : List String :=
  ["!", "\x7b", "\x7d", "case", "do", "done", "elif", "else", "esac", "fi", "for", "if", "in", "then",
    "until", "while"]

/-- A reserved word, unquoted. -/
def isReserved (w : Word) : Bool := w.all (fun x => !x.2) && reservedWords.contains (wordText w)

/-- A name of a variable. -/
def isName (key : String) : Bool :=
  key.toList.head?.any isNameStart && key.toList.all isNameChar

/-! ## Simple commands -/

/-- A simple command: its assignments, without a value where the machine decides it, and its
words. -/
structure SimpleCommand where
  assignments : List (String × Option String)
  argv : List String
  deriving DecidableEq, Repr

/-- The assignments in front, and the words of the command. -/
def splitAssignments : List Word → List (String × Option String) × List Word
  | [] => ([], [])
  | w :: ws =>
    match splitAssignment w with
    | some (name, assigned) =>
      let (assignments, args) := splitAssignments ws
      ((String.ofList name, assignedValue assigned) :: assignments, args)
    | none => ([], w :: ws)

/-- The simple command of some words. -/
def simpleCommand (ws : List Word) : Option SimpleCommand :=
  let (assignments, args) := splitAssignments ws
  if assignments = [] ∧ args.head?.any isReserved then none
  else
    match literals args with
    | some argv => some ⟨assignments, argv⟩
    | none => none

/-! ## Lists -/

/-- The token of a line break. -/
def isNewlineToken : Token → Bool
  | .newline => true
  | _ => false

/-- The commands between the `&&`. A line break may stand in front of a command
(`start`); behind the last one there can be nothing else. -/
def splitAnd (start : Bool) : List Token → Option (List (List Word))
  | [] => some [[]]
  | .word w :: tokens =>
    match splitAnd false tokens with
    | some (ws :: commands) => some ((w :: ws) :: commands)
    | _ => none
  | .andIf :: tokens =>
    match splitAnd true tokens with
    | some commands => some ([] :: commands)
    | none => none
  | .newline :: tokens =>
    if start then splitAnd true tokens
    else if tokens.all isNewlineToken then some [[]]
    else none

/-- The list a text of one line consists of. -/
def commands (text : List Char) : Option (List (List Word)) :=
  match scan .between [] text with
  | some tokens => splitAnd true tokens
  | none => none

/-- The arguments of a text that is one simple command. -/
def readArgv (text : List Char) : Option (List String) :=
  match commands text with
  | some [ws] =>
    match simpleCommand ws with
    | some command => some command.argv
    | none => none
  | _ => none

/-- A program with its arguments, what is known of its environment beyond the one
it was started in (the latest first), and its directory, if known. -/
structure Process where
  argv : List String
  env : List (String × Option String)
  cwd : Option String
  deriving DecidableEq, Repr

/-- Where `cd` leads: `none` when it fails or is something else, `some none` when it
is not known where. An operand with a hyphen in front is an option. -/
def changeDirectory : List String → Option (Option String)
  | ["cd"] => some none
  | ["cd", dir] =>
    if dir.toList.head? = some '-' then none
    else if dir = "" then some none
    else some (some dir)
  | _ => none

/-- What `cd` leaves of the environment: it sets these two to where it leads. -/
def afterCd (env : List (String × Option String)) : List (String × Option String) :=
  env.map (fun entry => if entry.1 = "PWD" ∨ entry.1 = "OLDPWD" then (entry.1, none) else entry)

/-- The last command of a list, run in `env` and `cwd`. -/
def runList : List (String × Option String) → List (List Word) → Option String → Option Process
  | _, [], _ => none
  | env, [ws], cwd =>
    match simpleCommand ws with
    | some command =>
      if command.argv = [] then none
      else some ⟨command.argv, command.assignments.reverse ++ env, cwd⟩
    | none => none
  | env, ws :: rest, _ =>
    match simpleCommand ws with
    | some command =>
      match changeDirectory command.argv with
      | some cwd' => runList (afterCd env) rest cwd'
      | none => none
    | none => none

/-! ## The start of a shell -/

/-- The path of a directory as every shell writes it, with no component that stands for
nothing; `none` where that depends on the links that are there. -/
def logicalPath (path : String) : Option String :=
  let components := (path.toList.splitOn '/').filter (fun name => name ≠ [] ∧ name ≠ ['.'])
  if path.toList.head? ≠ some '/' ∨ ['.', '.'] ∈ components then none
  else some (String.ofList ('/' :: List.intercalate ['/'] components))

/-- What a shell that is started in `cwd` makes of a variable in its environment. `IFS` and
`OPTIND` get their default, `PPID` the number of a process; `PWD` stays as it is if it
names the directory. -/
def initialValue (cwd : Option String) (key : String) (value : Option String) : Option String :=
  if key = "IFS" then some " \t\n"
  else if key = "OPTIND" then some "1"
  else if key = "PPID" ∨ key = "LINENO" then none
  else if key = "PWD" then (if value = cwd.bind logicalPath then value else none)
  else value

/-- The environment that a shell works with. -/
def initial (cwd : Option String) (env : List (String × Option String)) :
    List (String × Option String) :=
  env.map (fun entry => (entry.1, initialValue cwd entry.1 entry.2))

/-- What a text runs in a shell that is started with `env`, in `cwd`. -/
def run (env : List (String × Option String)) (cwd : Option String) (text : List Char) :
    Option Process :=
  match commands text with
  | some commands => runList (initial cwd env) commands cwd
  | none => none

/-- A variable that a shell started in `cwd` hands on as it is. -/
structure Kept (cwd : Option String) (key value : String) : Prop where
  ifs : key = "IFS" → value = " \t\n"
  optind : key = "OPTIND" → value = "1"
  ppid : key ≠ "PPID"
  lineno : key ≠ "LINENO"
  pwd : key = "PWD" → cwd.bind logicalPath = some value

/-! ## Words that stand for themselves -/

theorem wordText_eq {w : Word} {s : String} (h : wordText w = s) : value w = s.toList := by
  rw [← h]
  simp [wordText]

@[simp] theorem wordText_unquoted (s : String) : wordText (unquoted s.toList) = s := by
  simp [wordText]

@[simp] theorem wordText_quoted (s : String) : wordText (quoted s.toList) = s := by
  simp [wordText]

theorem literal_eq_some {w : Word} {arg : String} (h : literal w = some arg) :
    hasTilde ['/'] w = false ∧ hasPattern w = false ∧ arg = wordText w := by
  unfold literal at h
  split at h
  next => simp at h
  next hw =>
    simp only [Bool.or_eq_true, not_or, Bool.not_eq_true] at hw
    exact ⟨hw.1, hw.2, (Option.some.inj h).symm⟩

theorem hasPattern_quoted (text : List Char) : hasPattern (quoted text) = false := by
  induction text with
  | nil => rfl
  | cons c cs ih =>
    have hcons : quoted (c :: cs) = (c, true) :: quoted cs := rfl
    rw [hcons, hasPattern, ih]
    simp

theorem hasTilde_quoted (ends text : List Char) : hasTilde ends (quoted text) = false := by
  cases text with
  | nil => rfl
  | cons c cs =>
    have hcons : quoted (c :: cs) = (c, true) :: quoted cs := rfl
    rw [hcons, hasTilde]
    simp

theorem tildeAfterColon_quoted (text : List Char) : tildeAfterColon (quoted text) = false := by
  induction text with
  | nil => rfl
  | cons c cs ih =>
    have hcons : quoted (c :: cs) = (c, true) :: quoted cs := rfl
    rw [hcons, tildeAfterColon, ih]
    simp

/-- A quoted word stands for itself. -/
theorem literal_quoted (s : String) : literal (quoted s.toList) = some s := by
  simp [literal, hasTilde_quoted, hasPattern_quoted]

theorem hasPattern_unquoted {text : List Char}
    (h : ∀ c ∈ text, c ≠ '*' ∧ c ≠ '?' ∧ c ≠ '[') : hasPattern (unquoted text) = false := by
  induction text with
  | nil => rfl
  | cons c cs ih =>
    obtain ⟨⟨hstar, hmark, hopen⟩, htail⟩ := List.forall_mem_cons.mp h
    have hcons : unquoted (c :: cs) = (c, false) :: unquoted cs := rfl
    rw [hcons, hasPattern, ih htail]
    simp [hstar, hmark, hopen]

/-- The whole tilde prefix of an unquoted word is unquoted. -/
theorem hasTilde_unquoted (ends text : List Char) :
    hasTilde ends (unquoted text) = (text.head? == some '~') := by
  cases text with
  | nil => rfl
  | cons c cs =>
    have hcons : unquoted (c :: cs) = (c, false) :: unquoted cs := rfl
    -- nothing in the prefix is quoted, wherever it ends
    have hall : ∀ w : List (Char × Bool), (∀ x ∈ w, x.2 = false) →
        (w.takeWhile (fun x => x.2 || !ends.contains x.1)).all (fun x => !x.2) = true := by
      intro w hw
      rw [List.all_eq_true]
      intro x hx
      simp [hw x ((List.takeWhile_prefix _).subset hx)]
    rw [hcons, hasTilde, hall (unquoted cs) (by simp [unquoted])]
    simp

theorem literals_eq_some : ∀ {ws : List Word} {args : List String}, literals ws = some args →
    args = ws.map wordText ∧ ∀ w ∈ ws, literal w = some (wordText w) := by
  intro ws
  induction ws with
  | nil =>
    intro args h
    obtain rfl : [] = args := by simpa [literals] using h
    simp
  | cons w ws ih =>
    intro args h
    rw [literals] at h
    split at h
    next arg hw =>
      split at h
      next args' hws =>
        obtain rfl : arg :: args' = args := by simpa using h
        obtain ⟨rfl, hall⟩ := ih hws
        obtain ⟨_, _, rfl⟩ := literal_eq_some hw
        exact ⟨rfl, List.forall_mem_cons.mpr ⟨hw, hall⟩⟩
      next => simp at h
    next => simp at h

theorem literals_of_forall : ∀ {ws : List Word} {args : List String},
    ws.map literal = args.map some → literals ws = some args := by
  intro ws
  induction ws with
  | nil =>
    intro args h
    obtain rfl : args = [] := by simpa using h.symm
    rfl
  | cons w ws ih =>
    intro args h
    cases args with
    | nil => simp at h
    | cons arg args =>
      obtain ⟨hw, hws⟩ : literal w = some arg ∧ ws.map literal = args.map some := by simpa using h
      rw [literals, hw, ih hws]

/-! ## Assignments in front -/

/-- An assignment, as `splitAssignments` records it. -/
def assignment (w : Word) : Option (String × Option String) :=
  match splitAssignment w with
  | some (name, assigned) => some (String.ofList name, assignedValue assigned)
  | none => none

/-- A name and an equals sign in front of a word make it an assignment. -/
theorem splitAssignment_name {key : String} (h : isName key = true) (w : Word) :
    splitAssignment (unquoted key.toList ++ ('=', false) :: w) = some (key.toList, w) := by
  obtain ⟨hstart, hchars⟩ : key.toList.head?.any isNameStart = true ∧
      key.toList.all isNameChar = true := by simpa [isName] using h
  have hin : ∀ x ∈ unquoted key.toList, inName x = true := by
    intro x hx
    obtain ⟨c, hc, rfl⟩ := List.mem_map.mp hx
    simpa [inName] using List.all_eq_true.mp hchars c hc
  -- the name ends at the equals sign, which is no part of a name
  have hout : inName ('=', false) = false := by decide
  have hhead : (unquoted key.toList).head?.any (fun x => isNameStart x.1) = true := by
    simpa [unquoted, Option.any_map] using hstart
  rw [splitAssignment, List.dropWhile_append_of_pos hin, List.takeWhile_append_of_pos hin,
    List.dropWhile_cons_of_neg (by simp [hout]), List.takeWhile_cons_of_neg (by simp [hout]),
    List.append_nil]
  simp [hhead]

theorem splitAssignments_append : ∀ {assigned : List Word}
    {assignments : List (String × Option String)},
    assigned.map assignment = assignments.map some → ∀ (ws : List Word),
      splitAssignments (assigned ++ ws) =
        (assignments ++ (splitAssignments ws).1, (splitAssignments ws).2) := by
  intro assigned
  induction assigned with
  | nil =>
    intro assignments h ws
    obtain rfl : assignments = [] := by simpa using h.symm
    rfl
  | cons w assigned ih =>
    intro assignments h ws
    cases assignments with
    | nil => simp at h
    | cons a assignments =>
      obtain ⟨hw, hws⟩ :
          assignment w = some a ∧ assigned.map assignment = assignments.map some := by
        simpa using h
      unfold assignment at hw
      split at hw
      next name rest hs =>
        obtain rfl := Option.some.inj hw
        rw [List.cons_append, splitAssignments, hs]
        dsimp only
        rw [ih hws]
        rfl
      next => simp at hw

theorem splitAssignments_spec : ∀ (ws : List Word), ∃ assigned,
    ws = assigned ++ (splitAssignments ws).2 ∧
      assigned.map assignment = (splitAssignments ws).1.map some ∧
      ∀ w ∈ (splitAssignments ws).2.head?, splitAssignment w = none := by
  intro ws
  induction ws with
  | nil => exact ⟨[], rfl, rfl, by simp [splitAssignments]⟩
  | cons w ws ih =>
    rw [splitAssignments]
    cases hw : splitAssignment w with
    | none =>
      refine ⟨[], rfl, rfl, ?_⟩
      intro w' hw'
      obtain rfl : w = w' := by simpa using hw'
      exact hw
    | some split =>
      obtain ⟨name, rest⟩ := split
      obtain ⟨assigned, hws, hmap, hhead⟩ := ih
      refine ⟨w :: assigned, ?_, ?_, hhead⟩
      · rw [List.cons_append, ← hws]
      · rw [List.map_cons, hmap, List.map_cons]
        simp [assignment, hw]

/-- A simple command behind known assignments. -/
theorem simpleCommand_append {assigned : List Word} {assignments : List (String × Option String)}
    (hassigned : assigned.map assignment = assignments.map some) {ws : List Word}
    {command : SimpleCommand} (h : simpleCommand (assigned ++ ws) = some command) :
    ∃ more args, ws = more ++ args ∧ more.map assignment = (splitAssignments ws).1.map some ∧
      command.assignments = assignments ++ (splitAssignments ws).1 ∧
      command.argv = args.map wordText ∧ (∀ w ∈ args, literal w = some (wordText w)) ∧
      (∀ w ∈ args.head?, splitAssignment w = none) ∧
      (assigned = [] → more = [] → ∀ w ∈ args.head?, isReserved w = false) := by
  obtain ⟨more, hws, hmore, hhead⟩ := splitAssignments_spec ws
  unfold simpleCommand at h
  rw [splitAssignments_append hassigned] at h
  dsimp only at h
  split at h
  next => simp at h
  next hreserved =>
    split at h
    next argv hargv =>
      obtain rfl := Option.some.inj h
      obtain ⟨rfl, hall⟩ := literals_eq_some hargv
      refine ⟨more, (splitAssignments ws).2, hws, hmore, rfl, rfl, hall, hhead, ?_⟩
      intro hnil hmorenil w hw
      cases hr : isReserved w with
      | false => rfl
      | true =>
        -- a reserved word in front would have been no simple command
        refine absurd ⟨?_, ?_⟩ hreserved
        · have h₁ : assignments = [] := by simpa [hnil] using hassigned.symm
          have h₂ : (splitAssignments ws).1 = [] := by simpa [hmorenil] using hmore.symm
          rw [h₁, h₂]
          rfl
        · rw [Option.any_eq_true]
          exact ⟨w, hw, hr⟩
    next => simp at h

/-- The simple command of words that stand for themselves. -/
theorem simpleCommand_of_literals {assigned : List Word}
    {assignments : List (String × Option String)}
    (hassigned : assigned.map assignment = assignments.map some) {w : Word} {ws : List Word}
    {args : List String} (hargs : (w :: ws).map literal = args.map some)
    (hhead : splitAssignment w = none) (hreserved : assigned = [] → isReserved w = false) :
    simpleCommand (assigned ++ w :: ws) = some ⟨assignments, args⟩ := by
  have hsplit : splitAssignments (w :: ws) = ([], w :: ws) := by
    rw [splitAssignments, hhead]
  unfold simpleCommand
  rw [splitAssignments_append hassigned, hsplit]
  dsimp only
  rw [literals_of_forall hargs, List.append_nil, if_neg]
  intro ⟨hnil, hany⟩
  have hassigned₀ : assigned = [] := by
    simpa [hnil] using hassigned
  simp [hreserved hassigned₀] at hany

/-! ## Lists of commands -/

/-- The words among the tokens. -/
def wordsOf (tokens : List Token) : List Word :=
  tokens.filterMap fun
    | .word w => some w
    | _ => none

theorem cost_eq_wordsOf (tokens : List Token) :
    cost tokens = cost ((wordsOf tokens).map .word) := by
  induction tokens with
  | nil => rfl
  | cons token tokens ih =>
    cases token with
    | word w => rw [cost, ih]; rfl
    | andIf => rw [cost, ih]; rfl
    | newline => rw [cost, ih]; rfl

theorem splitAnd_words (start : Bool) (ws : List Word) :
    splitAnd start (ws.map .word) = some [ws] := by
  induction ws generalizing start with
  | nil => rfl
  | cons w ws ih => rw [List.map_cons, splitAnd, ih]

/-- A command in front of an `&&`. -/
theorem splitAnd_words_andIf (start : Bool) (ws : List Word) {tokens : List Token}
    {commands : List (List Word)} (h : splitAnd true tokens = some commands) :
    splitAnd start (ws.map .word ++ .andIf :: tokens) = some (ws :: commands) := by
  induction ws generalizing start with
  | nil => rw [List.map_nil, List.nil_append, splitAnd, h]
  | cons w ws ih => rw [List.map_cons, List.cons_append, splitAnd, ih]

theorem splitAnd_ne_nil : ∀ (tokens : List Token) (start : Bool),
    splitAnd start tokens ≠ some [] := by
  intro tokens
  induction tokens with
  | nil => intro start h; simp [splitAnd] at h
  | cons token tokens ih =>
    intro start h
    cases token with
    | word w | andIf =>
      rw [splitAnd] at h
      split at h
      next => simp at h
      next => simp at h
    | newline =>
      rw [splitAnd] at h
      split at h
      next => exact ih true h
      next =>
        split at h
        next => simp at h
        next => simp at h

/-- Words in front of a list belong to its first command. -/
theorem splitAnd_words_append : ∀ (assigned : List Word) {start : Bool} {tokens : List Token}
    {commands : List (List Word)}, splitAnd start (assigned.map .word ++ tokens) = some commands →
      ∃ ws rest, splitAnd (start && assigned.isEmpty) tokens = some (ws :: rest) ∧
        commands = (assigned ++ ws) :: rest := by
  intro assigned
  induction assigned with
  | nil =>
    intro start tokens commands h
    cases commands with
    | cons ws rest => exact ⟨ws, rest, by simpa using h, rfl⟩
    | nil => exact absurd h (splitAnd_ne_nil _ _)
  | cons w assigned ih =>
    intro start tokens commands h
    rw [List.map_cons, List.cons_append, splitAnd] at h
    split at h
    next ws rest hs =>
      obtain rfl := Option.some.inj h
      obtain ⟨ws', rest', ht, hc⟩ := ih hs
      obtain ⟨rfl, rfl⟩ := List.cons.inj hc
      exact ⟨ws', _, by simpa using ht, rfl⟩
    next => simp at h

/-- Behind words, a comment is the end. -/
theorem splitAnd_comment {tokens : List Token} {commands : List (List Word)}
    (hcomment : tokens = [] ∨ ∃ later, tokens = .newline :: later)
    (h : splitAnd false tokens = some commands) : commands = [[]] := by
  rcases hcomment with rfl | ⟨later, rfl⟩
  · simpa [splitAnd, eq_comm] using h
  · rw [splitAnd, if_neg (by simp)] at h
    split at h
    next => exact (Option.some.inj h).symm
    next => simp at h

theorem wordsOf_newlines {tokens : List Token} (h : tokens.all isNewlineToken = true) :
    wordsOf tokens = [] ∧ .andIf ∉ tokens := by
  induction tokens with
  | nil => simp [wordsOf]
  | cons token tokens ih =>
    obtain ⟨htoken, htail⟩ : isNewlineToken token = true ∧ tokens.all isNewlineToken = true := by
      simpa using h
    obtain ⟨hwords, hand⟩ := ih htail
    cases token with
    | word w => simp [isNewlineToken] at htoken
    | andIf => simp [isNewlineToken] at htoken
    | newline => exact ⟨hwords, by simpa using hand⟩

theorem singleton_eq_append_singleton {α : Type*} {x y : α} {front : List α} :
    [x] = front ++ [y] ↔ front = [] ∧ x = y := by
  cases front with
  | nil => simp
  | cons f front => simp

/-- **The last command** of a list: its words are what stands behind the last `&&`. -/
theorem splitAnd_last : ∀ (tokens : List Token) {start : Bool} {front : List (List Word)}
    {ws : List Word}, splitAnd start tokens = some (front ++ [ws]) →
      ∃ earlier later, tokens = earlier ++ later ∧ .andIf ∉ later ∧ wordsOf later = ws ∧
        (earlier = [] ∨ ∃ e, earlier = e ++ [.andIf]) ∧ (earlier = [] ↔ front = []) := by
  intro tokens
  induction tokens with
  | nil =>
    intro start front ws h
    obtain ⟨rfl, rfl⟩ := singleton_eq_append_singleton.mp (Option.some.inj h)
    exact ⟨[], [], rfl, by simp, rfl, Or.inl rfl, by simp⟩
  | cons token tokens ih =>
    intro start front ws h
    cases token with
    | word w =>
      rw [splitAnd] at h
      split at h
      next ws₀ rest hs =>
        have h := Option.some.inj h
        cases front with
        | nil =>
          obtain ⟨rfl, rfl⟩ : w :: ws₀ = ws ∧ rest = [] := by simpa using h
          obtain ⟨earlier, later, rfl, hand, rfl, _, hfront⟩ := @ih _ [] _ hs
          -- one command only: there is no `&&`, and the word joins it
          obtain rfl := hfront.mpr rfl
          exact ⟨[], .word w :: later, rfl, by simpa using hand, rfl, Or.inl rfl, by simp⟩
        | cons f front =>
          obtain ⟨rfl, rfl⟩ : w :: ws₀ = f ∧ rest = front ++ [ws] := by simpa using h
          obtain ⟨earlier, later, rfl, hand, hwords, hearlier, hfront⟩ :=
            @ih _ (ws₀ :: front) _ hs
          rcases hearlier with rfl | ⟨e, rfl⟩
          · exact absurd (hfront.mp rfl) (by simp)
          · exact ⟨.word w :: (e ++ [.andIf]), later, rfl, hand, hwords, Or.inr ⟨.word w :: e, rfl⟩,
              by simp⟩
      next => simp at h
    | andIf =>
      rw [splitAnd] at h
      split at h
      next commands hs =>
        have h := Option.some.inj h
        cases front with
        | nil =>
          obtain ⟨_, rfl⟩ : [] = ws ∧ commands = [] := by simpa using h
          exact absurd hs (splitAnd_ne_nil _ _)
        | cons f front =>
          obtain ⟨_, rfl⟩ : [] = f ∧ commands = front ++ [ws] := by simpa using h
          obtain ⟨earlier, later, rfl, hand, hwords, hearlier, hfront⟩ := ih hs
          refine ⟨.andIf :: earlier, later, rfl, hand, hwords, Or.inr ?_, by simp⟩
          rcases hearlier with rfl | ⟨e, rfl⟩
          · exact ⟨[], rfl⟩
          · exact ⟨.andIf :: e, rfl⟩
      next => simp at h
    | newline =>
      rw [splitAnd] at h
      split at h
      next =>
        obtain ⟨earlier, later, rfl, hand, hwords, hearlier, hfront⟩ := ih h
        rcases hearlier with rfl | ⟨e, rfl⟩
        · exact ⟨[], .newline :: later, rfl, by simpa using hand, hwords, Or.inl rfl, hfront⟩
        · exact ⟨.newline :: (e ++ [.andIf]), later, rfl, hand, hwords, Or.inr ⟨.newline :: e, rfl⟩,
            by simpa using hfront⟩
      next =>
        split at h
        next hall =>
          obtain ⟨rfl, rfl⟩ := singleton_eq_append_singleton.mp (Option.some.inj h)
          obtain ⟨hwords, hand⟩ := wordsOf_newlines hall
          exact ⟨[], .newline :: tokens, rfl, by simpa using hand, hwords, Or.inl rfl, by simp⟩
        next => simp at h

/-! ## One simple command -/

theorem readArgv_eq_some {text : List Char} {argv : List String} : readArgv text = some argv ↔
    ∃ tokens ws command, scan .between [] text = some tokens ∧
      splitAnd true tokens = some [ws] ∧ simpleCommand ws = some command ∧
      command.argv = argv := by
  rw [readArgv, commands]
  constructor
  · intro h
    split at h
    next ws hcommands =>
      split at h
      next command hsimple =>
        split at hcommands
        next tokens hscan =>
          exact ⟨tokens, ws, command, hscan, hcommands, hsimple, Option.some.inj h⟩
        next => simp at hcommands
      next => simp at h
    next => simp at h
  · intro ⟨tokens, ws, command, hscan, hsplit, hsimple, hargv⟩
    rw [hscan]
    dsimp only
    rw [hsplit]
    dsimp only
    rw [hsimple]
    exact congrArg some hargv

/-- The words behind the assignments, each standing for itself. -/
theorem readArgv_words {text : List Char} {argv : List String} (h : readArgv text = some argv) :
    ∃ tokens more words, scan .between [] text = some tokens ∧ .andIf ∉ tokens ∧
      wordsOf tokens = more ++ words ∧ words.map wordText = argv ∧
      (∀ w ∈ words, literal w = some (wordText w)) ∧
      (∀ w ∈ words.head?, splitAssignment w = none) ∧
      (more = [] → ∀ w ∈ words.head?, isReserved w = false) := by
  obtain ⟨tokens, ws, command, hscan, hsplit, hsimple, rfl⟩ := readArgv_eq_some.mp h
  obtain ⟨earlier, later, rfl, hand, rfl, _, hfront⟩ := @splitAnd_last tokens _ [] _ hsplit
  obtain rfl := hfront.mpr rfl
  obtain ⟨more, words, hwords, _, _, hargv, hliteral, hhead, hreserved⟩ :=
    @simpleCommand_append [] [] rfl _ command hsimple
  exact ⟨later, more, words, hscan, hand, hwords, hargv.symm, hliteral, hhead, hreserved rfl⟩

/-! ## What a shell sets itself -/

theorem initialValue_eq_some_iff {cwd : Option String} {key value : String} :
    initialValue cwd key (some value) = some value ↔ Kept cwd key value := by
  unfold initialValue
  constructor
  · intro h
    split at h
    next hifs => exact ⟨fun _ => (Option.some.inj h).symm, by simp [hifs], by simp [hifs],
        by simp [hifs], by simp [hifs]⟩
    next hifs =>
      split at h
      next hoptind => exact ⟨by simp [hoptind], fun _ => (Option.some.inj h).symm,
          by simp [hoptind], by simp [hoptind], by simp [hoptind]⟩
      next hoptind =>
        split at h
        next => cases h
        next hunknown =>
          obtain ⟨hppid, hlineno⟩ := not_or.mp hunknown
          refine ⟨fun he => absurd he hifs, fun he => absurd he hoptind, hppid, hlineno, ?_⟩
          intro hpwd
          rw [if_pos hpwd] at h
          split at h
          next hsame => exact hsame.symm
          next => cases h
  · intro h
    split
    next hifs => rw [h.ifs hifs]
    next hifs =>
      split
      next hoptind => rw [h.optind hoptind]
      next hoptind =>
        rw [if_neg (not_or.mpr ⟨h.ppid, h.lineno⟩)]
        split
        next hpwd => rw [h.pwd hpwd, if_pos rfl]
        next => rfl

theorem lookup_initial (cwd : Option String) (env : List (String × Option String))
    (key : String) : (initial cwd env).lookup key = (env.lookup key).map (initialValue cwd key) := by
  induction env with
  | nil => rfl
  | cons entry env ih =>
    obtain ⟨key', value⟩ := entry
    rw [initial, List.map_cons, List.lookup_cons, List.lookup_cons]
    cases hkey : key == key' with
    | true =>
      obtain rfl := eq_of_beq hkey
      rfl
    | false => exact ih

@[simp] theorem initial_nil (cwd : Option String) : initial cwd [] = [] := rfl

@[simp] theorem afterCd_nil : afterCd [] = [] := rfl

/-! ## Runs -/

theorem run_eq_some {env : List (String × Option String)} {cwd : Option String}
    {text : List Char} {process : Process} : run env cwd text = some process ↔
      ∃ tokens commands, scan .between [] text = some tokens ∧
        splitAnd true tokens = some commands ∧
        runList (initial cwd env) commands cwd = some process := by
  rw [run, commands]
  constructor
  · intro h
    split at h
    next commands hcommands =>
      split at hcommands
      next tokens hscan => exact ⟨tokens, commands, hscan, hcommands, h⟩
      next => simp at hcommands
    next => simp at h
  · intro ⟨tokens, commands, hscan, hsplit, h⟩
    rw [hscan]
    dsimp only
    rw [hsplit]
    exact h

theorem runList_single {env : List (String × Option String)} {cwd : Option String}
    {ws : List Word} {command : SimpleCommand} (h : simpleCommand ws = some command)
    (hargv : command.argv ≠ []) :
    runList env [ws] cwd = some ⟨command.argv, command.assignments.reverse ++ env, cwd⟩ := by
  rw [runList, h]
  dsimp only
  rw [if_neg hargv]

/-- What a list runs is its last command. -/
theorem runList_last :
    ∀ {commands : List (List Word)} {env : List (String × Option String)} {cwd : Option String}
      {process : Process}, runList env commands cwd = some process →
      ∃ front ws command, commands = front ++ [ws] ∧ simpleCommand ws = some command ∧
        process.argv = command.argv ∧ (front = [] → process.cwd = cwd) := by
  intro commands
  induction commands with
  | nil => intro env cwd process h; simp [runList] at h
  | cons ws rest ih =>
    intro env cwd process h
    cases rest with
    | nil =>
      rw [runList] at h
      split at h
      next command hcommand =>
        split at h
        next => simp at h
        next =>
          obtain rfl := Option.some.inj h
          exact ⟨[], ws, command, rfl, hcommand, rfl, fun _ => rfl⟩
      next => simp at h
    | cons ws' rest =>
      rw [runList] at h
      · split at h
        next command hcommand =>
          split at h
          next cwd' hcd =>
            obtain ⟨front, last, lastCommand, hlast, hsimple, hargv, _⟩ := ih h
            exact ⟨ws :: front, last, lastCommand, by rw [hlast]; rfl, hsimple, hargv, by simp⟩
          next => simp at h
        next => simp at h
      · simp

end GraphHarness.Shell
