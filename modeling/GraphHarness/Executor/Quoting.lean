import GraphHarness.Executor.Layers
import GraphHarness.Shell.Command

/-!
# What a shell reads of a command

`command_to_shell_string` quotes the arguments it finds special characters in, and
the program never. Read back by a shell the text is the command again

> `readArgv_commandToShellString_iff` — **if and only if** the program stands for
> itself as a word and every argument either was quoted or is a non-empty text that
> begins neither a comment nor a tilde expansion.

For the arguments a text is followed word by word; for the program, which can be
any text whatever, the count of the separators decides (`ordinary_of_first_word`).

The direction from the quoting to the shell's reading goes along the text (`scan_commandText`).
For the other direction the shell's words are given, and the number of separators in the text
bounds how many words there can be (`Shell.Loss`): each argument needs one, so no word can
have been split and none been lost, and each can be looked at alone.

An empty argument needs no quoting to the source and disappears from the text
(`readArgv_empty_argument`). A tilde at the beginning and a `#` are not among the special
characters either.
-/

namespace GraphHarness.Executor

open Shell

variable {χ : Type}

/-! ## The escaped text -/

/-- Every argument with the blank in front of it. -/
def argsText (args : List String) : List Char :=
  args.flatMap (fun a => ' ' :: (shellEscape a).toList)

/-- An escaped argument is quoted, or left as it is. -/
theorem toList_shellEscape (s : String) :
    (shellEscape s).toList = if needsQuoting s then singleQuoted s.toList else s.toList := by
  unfold shellEscape
  split
  next =>
    have hquote : "'".toList = ['\''] := by decide
    have hescape : "'\"'\"'".toList = ['\'', '"', '\'', '"', '\''] := by decide
    simp [replaceQuotes, singleQuoted, hquote, hescape]
  next => rfl

/-- Every word with a blank in front of it. -/
def wordsText (words : List String) : List Char := words.flatMap (fun w => ' ' :: w.toList)

/-- The text of the arguments is that of the escaped words. -/
theorem argsText_eq (args : List String) : argsText args = wordsText (args.map shellEscape) := by
  rw [argsText, wordsText, List.flatMap_map]

/-- Words with a blank between them. -/
theorem toList_intercalate (word : String) (words : List String) :
    (" ".intercalate (word :: words)).toList = word.toList ++ wordsText words := by
  induction words generalizing word with
  | nil => simp [wordsText]
  | cons next words ih =>
    have hnext := ih next
    simp only [wordsText, String.intercalate_cons_cons, String.toList_append,
      List.flatMap_cons] at hnext ⊢
    rw [hnext]
    simp

/-- The text of a command is its program and that of its arguments. -/
theorem toList_commandToShellString (command : Command χ) :
    (commandToShellString command).toList = command.program.toList ++ argsText command.args := by
  unfold commandToShellString
  rw [argsText_eq]
  cases command.args.map shellEscape with
  | nil => simp [wordsText]
  | cons a as =>
    dsimp only
    rw [if_neg (by simp), String.toList_append, String.toList_append, List.append_assoc,
      toList_intercalate]
    rfl

/-- What makes `shell_escape` quote a text. -/
def isSpecial (c : Char) : Bool := isWhitespace c || specialChars.contains c

/-- A shell reads a character that is not special as itself. -/
theorem ordinary_of_not_special {c : Char} (h : isSpecial c = false) : isOrdinary c = true := by
  have hne : ∀ d, isSpecial d = true → c ≠ d := by
    intro d hd he
    rw [he, hd] at h
    simp at h
  simp [isOrdinary, isSeparator, isBlank, isNewline, isExpansion, isOperator,
    hne ' ' (by decide), hne '\t' (by decide), hne '\n' (by decide), hne '$' (by decide),
    hne '`' (by decide), hne '|' (by decide), hne ';' (by decide), hne '<' (by decide),
    hne '>' (by decide), hne '(' (by decide), hne ')' (by decide), hne '&' (by decide),
    hne '\\' (by decide), hne '\'' (by decide), hne '"' (by decide)]

/-- A text that is not quoted has none of these characters. -/
theorem not_special_of_not_needsQuoting {s : String} (h : needsQuoting s = false) :
    ∀ c ∈ s.toList, isSpecial c = false := by
  intro c hc
  simpa [isSpecial] using (List.any_eq_false.mp h) c hc

/-- What needs no quoting is read as itself. -/
theorem ordinary_of_not_needsQuoting {s : String} (h : needsQuoting s = false) :
    s.toList.all isOrdinary = true := by
  rw [List.all_eq_true]
  intro c hc
  exact ordinary_of_not_special (not_special_of_not_needsQuoting h c hc)

/-- Escaping adds no separators. -/
theorem separators_shellEscape (s : String) :
    separators (shellEscape s).toList = separators s.toList := by
  rw [toList_shellEscape]
  split
  next => exact separators_singleQuoted s.toList
  next => rfl

/-- What the arguments need: their own separators, and one each. -/
def argsCost : List String → Nat
  | [] => 0
  | a :: as => separators a.toList + 1 + argsCost as

/-- The separators of a text of arguments. -/
theorem separators_argsText : ∀ (args : List String),
    separators (argsText args) = argsCost args := by
  intro args
  induction args with
  | nil => rfl
  | cons a as ih =>
    have hblank : isSeparator ' ' = true := by decide
    have hsplit : argsText (a :: as) = ' ' :: ((shellEscape a).toList ++ argsText as) := rfl
    rw [hsplit, separators_cons, if_pos hblank, separators_append, separators_shellEscape, ih]
    rw [argsCost]
    omega

/-! ## What survives -/

/-- An argument that the shell reads as it is. -/
def QuotableArg (a : String) : Prop :=
  needsQuoting a = true ∨
    (a ≠ "" ∧ a.toList.head? ≠ some '#' ∧ a.toList.head? ≠ some '~')

/-- A program that stands for itself as the first word of a command. -/
def PlainProgram (program : String) : Prop :=
  program ≠ "" ∧ program.toList.all isOrdinary = true ∧ program.toList.head? ≠ some '#' ∧
    program.toList.head? ≠ some '~' ∧ hasPattern (unquoted program.toList) = false ∧
    splitAssignment (unquoted program.toList) = none

instance (a : String) : Decidable (QuotableArg a) := inferInstanceAs (Decidable (_ ∨ _))

instance (program : String) : Decidable (PlainProgram program) :=
  inferInstanceAs (Decidable (_ ∧ _))

/-- The word an escaped argument is read as. -/
def argWord (a : String) : Word := if needsQuoting a then quoted a.toList else unquoted a.toList

/-- A string that is not empty has characters. -/
theorem toList_ne_nil {s : String} (h : s ≠ "") : s.toList ≠ [] := by
  intro hnil
  exact h (String.toList_eq_nil_iff.mp hnil)

/-- An unquoted text stands for itself without a tilde in front and a pattern in it. -/
theorem literal_unquoted_iff (s : String) : literal (unquoted s.toList) = some s ↔
    s.toList.head? ≠ some '~' ∧ hasPattern (unquoted s.toList) = false := by
  rw [literal, hasTilde_unquoted, wordText_unquoted]
  simp

/-- What needs no quoting has no pattern. -/
theorem hasPattern_of_not_needsQuoting {s : String} (h : needsQuoting s = false) :
    hasPattern (unquoted s.toList) = false := by
  refine hasPattern_unquoted ?_
  intro c hc
  have hplain := not_special_of_not_needsQuoting h c hc
  have hne : ∀ d, isSpecial d = true → c ≠ d := by
    intro d hd he
    rw [he, hd] at hplain
    simp at hplain
  exact ⟨hne '*' (by decide), hne '?' (by decide), hne '[' (by decide)⟩

/-- A word that can be quoted stands for itself. -/
theorem literal_argWord {a : String} (h : QuotableArg a) : literal (argWord a) = some a := by
  unfold argWord
  split
  next => exact literal_quoted a
  next hquote =>
    have hquote : needsQuoting a = false := by simpa using hquote
    rcases h with hneeds | ⟨_, _, htilde⟩
    · rw [hneeds] at hquote
      simp at hquote
    · exact (literal_unquoted_iff a).mpr ⟨htilde, hasPattern_of_not_needsQuoting hquote⟩

/-- An escaped argument begins a word, if it is not lost. -/
theorem scan_between_shellEscape {a : String}
    (h : needsQuoting a = false → a ≠ "" ∧ a.toList.head? ≠ some '#') (rest : List Char) :
    scan .between [] ((shellEscape a).toList ++ rest) = scan .plain (argWord a) rest := by
  rw [toList_shellEscape, argWord]
  split
  next => exact scan_between_singleQuoted a.toList rest
  next hquote =>
    have hquote : needsQuoting a = false := by simpa using hquote
    obtain ⟨hne, hhash⟩ := h hquote
    exact scan_between_ordinary (ordinary_of_not_needsQuoting hquote) (toList_ne_nil hne) hhash rest

/-- Behind something else, an escaped argument is added to the word. -/
theorem scan_plain_shellEscape (a : String) (word : Word) (rest : List Char) :
    scan .plain word ((shellEscape a).toList ++ rest) = scan .plain (word ++ argWord a) rest := by
  rw [toList_shellEscape, argWord]
  split
  next => exact scan_singleQuoted a.toList word rest
  next hquote =>
    have hquote : needsQuoting a = false := by simpa using hquote
    exact scan_ordinary _ (ordinary_of_not_needsQuoting hquote) word rest

/-- What needs no quoting begins no comment. -/
theorem QuotableArg.begins {a : String} (h : QuotableArg a) :
    needsQuoting a = false → a ≠ "" ∧ a.toList.head? ≠ some '#' := by
  intro hquote
  rcases h with hneeds | ⟨hne, hhash, _⟩
  · rw [hneeds] at hquote
    simp at hquote
  · exact ⟨hne, hhash⟩

/-- The text of the arguments is read as one word for each. -/
theorem scan_argsText : ∀ {args : List String}, (∀ a ∈ args, QuotableArg a) → ∀ (word : Word),
    scan .plain word (argsText args) = some ((word :: args.map argWord).map .word) := by
  intro args
  induction args with
  | nil => intro _ word; rfl
  | cons a as ih =>
    intro h word
    obtain ⟨ha, has⟩ := List.forall_mem_cons.mp h
    have hsplit : argsText (a :: as) = ' ' :: ((shellEscape a).toList ++ argsText as) := rfl
    rw [hsplit, scan_plain_space, scan_between_shellEscape ha.begins, ih has]
    rfl

/-- The words of a command that is written out. -/
theorem scan_commandText {program : String} {args : List String} (hprogram : PlainProgram program)
    (hargs : ∀ a ∈ args, QuotableArg a) :
    scan .between [] (program.toList ++ argsText args) =
      some ((unquoted program.toList :: args.map argWord).map .word) := by
  obtain ⟨hne, hord, hhash, _⟩ := hprogram
  rw [scan_between_ordinary hord (toList_ne_nil hne) hhash, scan_argsText hargs]

/-- A reserved word, unquoted. -/
theorem isReserved_unquoted (s : String) :
    isReserved (unquoted s.toList) = reservedWords.contains s := by
  have hall : (unquoted s.toList).all (fun x => !x.2) = true := by simp [unquoted]
  rw [isReserved, hall, wordText_unquoted, Bool.true_and]

/-- The simple command they are, behind known assignments. -/
theorem simpleCommand_commandText {assigned : List Word}
    {assignments : List (String × Option String)}
    (hassigned : assigned.map assignment = assignments.map some) {program : String}
    {args : List String} (hprogram : PlainProgram program) (hargs : ∀ a ∈ args, QuotableArg a)
    (hreserved : assigned = [] → program ∉ reservedWords) :
    simpleCommand (assigned ++ unquoted program.toList :: args.map argWord) =
      some ⟨assignments, program :: args⟩ := by
  obtain ⟨_, _, _, htilde, hpattern, hsplit⟩ := hprogram
  refine simpleCommand_of_literals hassigned ?_ hsplit ?_
  · rw [List.map_cons, List.map_map, (literal_unquoted_iff program).mpr ⟨htilde, hpattern⟩,
      List.map_cons]
    congr 1
    exact List.map_congr_left (fun a ha => literal_argWord (hargs a ha))
  · intro hnil
    rw [isReserved_unquoted]
    simpa using hreserved hnil

/-! ## Nothing else survives -/

/-- The cost of tokens that are words. -/
theorem cost_map_word (ws : List Word) : cost (ws.map .word) = argsCost (ws.map wordText) := by
  induction ws with
  | nil => rfl
  | cons w ws ih =>
    rw [List.map_cons, cost, ih, List.map_cons, argsCost, wordText, String.toList_ofList]

/-- A blank ends the word before it. -/
theorem scan_plain_wordsText (words : List String) (word : Word) :
    scan .plain word (wordsText words) = emit [.word word] (scan .between [] (wordsText words)) := by
  cases words with
  | nil => rfl
  | cons next words =>
    have htext : wordsText (next :: words) = ' ' :: (next.toList ++ wordsText words) := rfl
    rw [htext, scan_plain_space, scan_between_space]

/-- The arguments begin behind the word of the program. -/
theorem scan_plain_argsText (args : List String) (word : Word) :
    scan .plain word (argsText args) = emit [.word word] (scan .between [] (argsText args)) := by
  rw [argsText_eq]
  exact scan_plain_wordsText _ word

/-- **No argument gains a word**: there are at most as many words as arguments, and as
many only if every argument was quotable. -/
theorem quotable_of_length : ∀ {args : List String} {tokens : List Token}
    {commands : List (List Word)}, scan .between [] (argsText args) = some tokens →
      splitAnd false tokens = some commands →
      ∃ ws, commands = [ws] ∧ ws.length ≤ args.length ∧
        (ws.length = args.length → (∀ w ∈ ws, literal w ≠ none) → ∀ a ∈ args, QuotableArg a) := by
  intro args
  induction args with
  | nil =>
    intro tokens commands hscan hsplit
    obtain rfl : [] = tokens := by simpa [argsText, scan, finish] using hscan
    obtain rfl : [[]] = commands := by simpa [splitAnd] using hsplit
    exact ⟨[], rfl, Nat.le_refl _, by simp⟩
  | cons a as ih =>
    intro tokens commands hscan hsplit
    have htext : argsText (a :: as) = ' ' :: ((shellEscape a).toList ++ argsText as) := rfl
    rw [htext, scan_between_space] at hscan
    -- the argument begins a word
    have hword : ∀ w, scan .plain w (argsText as) = some tokens →
        (literal w ≠ none → QuotableArg a) →
        ∃ ws, commands = [ws] ∧ ws.length ≤ (a :: as).length ∧ (ws.length = (a :: as).length →
          (∀ w ∈ ws, literal w ≠ none) → ∀ b ∈ a :: as, QuotableArg b) := by
      intro w hw hquotable
      rw [scan_plain_argsText] at hw
      obtain ⟨later, hlater, rfl⟩ := emit_eq_some.mp hw
      rw [List.singleton_append, splitAnd] at hsplit
      split at hsplit
      next ws₀ rest hrest =>
        obtain ⟨ws, hws, hlength, hall⟩ := ih hlater hrest
        obtain ⟨rfl, rfl⟩ := List.cons.inj hws
        obtain rfl := Option.some.inj hsplit
        refine ⟨w :: ws₀, rfl, by simpa using hlength, ?_⟩
        intro heq hliteral
        obtain ⟨hfirst, hothers⟩ := List.forall_mem_cons.mp hliteral
        exact List.forall_mem_cons.mpr ⟨hquotable hfirst, hall (by simpa using heq) hothers⟩
      next => simp at hsplit
    rw [toList_shellEscape] at hscan
    cases hquote : needsQuoting a with
    | true =>
      rw [if_pos hquote, scan_between_singleQuoted] at hscan
      exact hword _ hscan (fun _ => Or.inl hquote)
    | false =>
      rw [if_neg (by simp [hquote])] at hscan
      by_cases hne : a = ""
      · -- it leaves nothing
        subst hne
        obtain ⟨ws, hws, hlength, _⟩ := ih (by simpa using hscan) hsplit
        refine ⟨ws, hws, by simp only [List.length_cons]; omega, ?_⟩
        intro heq
        simp only [List.length_cons] at heq
        omega
      · by_cases hhash : a.toList.head? = some '#'
        · -- it is a comment, and so are the other arguments
          obtain ⟨cs, hcs⟩ := List.head?_eq_some_iff.mp hhash
          rw [hcs, List.cons_append, scan_between_hash] at hscan
          refine ⟨[], ?_, Nat.zero_le _, by simp⟩
          exact splitAnd_comment (scan_comment_eq _ hscan) hsplit
        · rw [scan_between_ordinary (ordinary_of_not_needsQuoting hquote) (toList_ne_nil hne) hhash]
            at hscan
          refine hword _ hscan ?_
          intro hliteral
          obtain ⟨arg, harg⟩ := Option.ne_none_iff_exists'.mp hliteral
          have hself : literal (unquoted a.toList) = some a := by
            rw [harg, (literal_eq_some harg).2.2, wordText_unquoted]
          exact Or.inr ⟨hne, hhash, ((literal_unquoted_iff a).mp hself).1⟩

/-- The text of a command, behind assignments, ends with the command `simple`. -/
def EndsWith (assigned : List Word) (program : String) (args : List String)
    (simple : SimpleCommand) : Prop :=
  ∃ tokens assignments start front ws,
    scan .between [] (program.toList ++ argsText args) = some tokens ∧
    assigned.map assignment = List.map some assignments ∧
    splitAnd start (assigned.map .word ++ tokens) = some (front ++ [ws]) ∧
    simpleCommand ws = some simple

/-- Its words stand behind the last `&&`, and behind the assignments only if there is
no `&&`. -/
theorem EndsWith.last {assigned : List Word} {program : String} {args : List String}
    {simple : SimpleCommand} (hends : EndsWith assigned program args simple) :
    ∃ earlier later start front before, ∃ known : List (String × Option String),
      scan .between [] (program.toList ++ argsText args) = some (earlier ++ later) ∧
      splitAnd start (earlier ++ later) = some (front ++ [wordsOf later]) ∧ .andIf ∉ later ∧
      (earlier = [] ∨ ∃ e, earlier = e ++ [.andIf]) ∧ before.map assignment = known.map some ∧
      (earlier = [] → front = [] ∧ before = assigned) ∧
      simpleCommand (before ++ wordsOf later) = some simple := by
  obtain ⟨tokens, assignments, start, front, ws, hscan, hassigned, hsplit, hcommand⟩ := hends
  obtain ⟨ws', rest, hsplit', hcommands⟩ := splitAnd_words_append assigned hsplit
  cases front with
  | nil =>
    obtain ⟨rfl, rfl⟩ : ws = assigned ++ ws' ∧ rest = [] := by simpa [eq_comm] using hcommands
    obtain ⟨earlier, later, rfl, hand, rfl, hearlier, _⟩ := @splitAnd_last tokens _ [] _ hsplit'
    exact ⟨earlier, later, _, [], assigned, assignments, hscan, hsplit', hand, hearlier, hassigned,
      fun _ => ⟨rfl, rfl⟩, hcommand⟩
  | cons f front =>
    obtain ⟨rfl, rfl⟩ : f = assigned ++ ws' ∧ front ++ [ws] = rest := by simpa using hcommands
    obtain ⟨earlier, later, rfl, hand, rfl, hearlier, hnil⟩ :=
      @splitAnd_last tokens _ (ws' :: front) _ hsplit'
    refine ⟨earlier, later, _, ws' :: front, [], [], hscan, hsplit', hand, hearlier, rfl, ?_,
      hcommand⟩
    intro hempty
    exact absurd (hnil.mp hempty) (by simp)

/-- **What comes back was plain**, whatever the shell makes of the text in front of
its last command. -/
theorem plain_of_read {assigned : List Word} {program : String} {args : List String}
    {command : SimpleCommand} (hends : EndsWith assigned program args command)
    (hargv : command.argv = program :: args) :
    PlainProgram program ∧ (∀ a ∈ args, QuotableArg a) ∧
      (assigned = [] → program ∉ reservedWords) := by
  -- the shell has read the words of the last command from its part of the text
  obtain ⟨earlier, later, start, front, before, known, hscan, hsplit, hand, hearlier, hbefore,
    hfirst, hcommand⟩ := hends.last
  obtain ⟨more, words, hwords, hmore, _, hwordText, hliteral, hhead, hreserved⟩ :=
    simpleCommand_append hbefore hcommand
  have hliterals : words.map literal = (program :: args).map some := by
    rw [← hargv, hwordText, List.map_map]
    exact List.map_congr_left (fun w hw => hliteral w hw)
  -- the separators pay for the program and the arguments, and for no word besides
  have hcost : cost later = cost (more.map .word) +
      (separators (program.toList ++ argsText args) + 1) := by
    rw [cost_eq_wordsOf, hwords, List.map_append, cost_append, cost_map_word words, ← hwordText,
      hargv, separators_append, separators_argsText, argsCost]
    omega
  have hbound := cost_last_le hscan hearlier hand
  obtain rfl : more = [] := by
    cases more with
    | nil => rfl
    | cons w more =>
      rw [List.map_cons, cost] at hcost
      omega
  obtain ⟨w, words, rfl⟩ : ∃ w words', words = w :: words' := by
    cases words with
    | nil => simp at hliterals
    | cons w words => exact ⟨w, words, rfl⟩
  obtain ⟨hw, hrest⟩ : literal w = some program ∧ words.map literal = args.map some := by
    simpa using hliterals
  rw [List.nil_append] at hwords
  have hvalue : ∀ w' rest', later = .word w' :: rest' → value w' = program.toList := by
    intro w' rest' hlater
    rw [hlater] at hwords
    obtain rfl : w' = w := (List.cons.inj hwords).1
    exact wordText_eq (literal_eq_some hw).2.2.symm
  -- a program of the right value has lost nothing, so it is ordinary throughout
  obtain ⟨rfl, hne, hord, hhash⟩ := ordinary_of_first_word
    (by
      cases args with
      | nil => exact Or.inl rfl
      | cons a as => exact Or.inr ⟨_, rfl⟩)
    hscan rfl hearlier hand (by omega) hvalue
  obtain ⟨rfl, rfl⟩ := hfirst rfl
  rw [List.nil_append, scan_between_ordinary hord hne hhash, scan_plain_argsText] at hscan
  obtain ⟨rest', hrest', rfl⟩ := emit_eq_some.mp hscan
  obtain ⟨rfl, _⟩ := List.cons.inj hwords
  obtain ⟨htilde, hpattern⟩ := (literal_unquoted_iff program).mp hw
  -- the rest is about the arguments, now that the first word is done with
  refine ⟨⟨?_, hord, hhash, htilde, hpattern, hhead _ rfl⟩, ?_, ?_⟩
  · exact fun hempty => hne (by rw [hempty]; rfl)
  · rw [List.nil_append, List.singleton_append, splitAnd] at hsplit
    split at hsplit
    next ws₀ _ hs =>
      obtain ⟨ws, hws, _, hquotable⟩ := quotable_of_length hrest' hs
      obtain ⟨rfl, rfl⟩ := List.cons.inj hws
      obtain ⟨_, hws₀⟩ := singleton_eq_append_singleton.mp (Option.some.inj hsplit)
      obtain rfl : ws₀ = words := (List.cons.inj (hws₀.trans hwords)).2
      refine hquotable (by simpa using congrArg List.length hrest) ?_
      intro w hw'
      rw [hliteral w (by simp [hw'])]
      simp
    next => simp at hsplit
  · intro hassigned₀
    have hfree := hreserved hassigned₀ rfl _ rfl
    rw [isReserved_unquoted] at hfree
    simpa using hfree

/-- A command that comes back with as many words as it had was quotable: when the
program is known to be plain, counting is enough. -/
theorem quotable_of_argv_length {assigned : List Word} {program : String} {args : List String}
    {command : SimpleCommand} (hprogram : PlainProgram program)
    (hends : EndsWith assigned program args command)
    (hlength : args.length < command.argv.length) : ∀ a ∈ args, QuotableArg a := by
  obtain ⟨tokens, assignments, start, front, ws, hscan, hassigned, hsplit, hcommand⟩ := hends
  obtain ⟨hne, hord, hhash, _⟩ := hprogram
  rw [scan_between_ordinary hord (toList_ne_nil hne) hhash, scan_plain_argsText] at hscan
  obtain ⟨later, hlater, rfl⟩ := emit_eq_some.mp hscan
  obtain ⟨ws', rest, hsplit', hcommands⟩ := splitAnd_words_append assigned hsplit
  rw [List.singleton_append, splitAnd] at hsplit'
  split at hsplit'
  next ws₀ _ hs =>
    obtain ⟨ws₁, hws, hle, hquotable⟩ := quotable_of_length hlater hs
    obtain ⟨rfl, rfl⟩ := List.cons.inj hws
    obtain ⟨rfl, rfl⟩ : unquoted program.toList :: ws₀ = ws' ∧ [] = rest := by simpa using hsplit'
    obtain ⟨_, rfl⟩ := singleton_eq_append_singleton.mp hcommands.symm
    obtain ⟨more, words, hws₀, _, _, hargv, hliteral, _⟩ := simpleCommand_append hassigned hcommand
    have hcount := congrArg List.length hws₀
    rw [hargv, List.length_map] at hlength
    simp only [List.length_append, List.length_cons] at hcount
    obtain rfl : more = [] := List.eq_nil_of_length_eq_zero (by omega)
    rw [List.nil_append] at hws₀
    subst hws₀
    refine hquotable (by omega) ?_
    intro w hw
    rw [hliteral w (List.mem_cons_of_mem _ hw)]
    simp
  next => simp at hsplit'

/-! ## The command as one simple command -/

/-- **Shell quoting is faithful exactly here**: the program is a word that stands for
itself, and no argument is lost (empty, or a comment) or expanded (a tilde). -/
theorem readArgv_commandToShellString_iff (command : Command χ) :
    readArgv (commandToShellString command).toList = some (command.program :: command.args) ↔
      PlainProgram command.program ∧ command.program ∉ reservedWords ∧
        ∀ a ∈ command.args, QuotableArg a := by
  rw [toList_commandToShellString]
  constructor
  · intro h
    obtain ⟨tokens, ws, simple, hscan, hsplit, hsimple, hargv⟩ := readArgv_eq_some.mp h
    obtain ⟨hprogram, hargs, hreserved⟩ := @plain_of_read [] _ _ simple
      ⟨tokens, [], true, [], ws, hscan, rfl, hsplit, hsimple⟩ hargv
    exact ⟨hprogram, hreserved rfl, hargs⟩
  · intro ⟨hprogram, hreserved, hargs⟩
    have hsimple := @simpleCommand_commandText [] [] rfl _ _ hprogram hargs (fun _ => hreserved)
    exact readArgv_eq_some.mpr
      ⟨_, _, _, scan_commandText hprogram hargs, splitAnd_words true _, hsimple, rfl⟩

/-- An empty argument is lost. -/
theorem readArgv_empty_argument :
    readArgv (commandToShellString ((Command.new "echo" : Command Unit).arg "")).toList ≠
      some ["echo", ""] := by
  decide

example : readArgv (commandToShellString
    (((Command.new "echo" : Command Unit).arg "it's $5").arg "a\\b")).toList =
      some ["echo", "it's $5", "a\\b"] := by
  decide

end GraphHarness.Executor
