import Mathlib.Data.List.Basic

/-!
# Reading words: the POSIX shell's lexer

The token recognition and the quoting of the POSIX shell command language, for
texts without expansions: a word is a list of characters, each with the
information whether it was quoted. An unquoted `$` or backquote, an operator other
than `&&` and an unclosed quotation have no reading (`none`); pathname patterns
and tildes are ordinary here and are judged per word (`Shell.Command`).

`scan mode word text` reads `text` with `word` begun. It is written without an
accumulator of tokens, so that every law about a piece of text holds in front of
any rest: `scan_ordinary` and `scan_singleQuoted` say what a plain and a
single-quoted text add to the word, whatever follows.

The modes are those of the standard: between words, in a word, behind a backslash, in single
or double quotes, behind one `&`, and in a comment. `emit` puts tokens in front of a reading,
so that a law about a piece of text is an equation between two readings. A line break is a
token of its own, as it ends a list.
-/

namespace GraphHarness.Shell

/-- A word, each character with whether it was quoted. -/
abbrev Word := List (Char × Bool)

/-- A token of the shell. -/
inductive Token where
  | word (w : Word)
  | andIf
  | newline
  deriving DecidableEq, Repr

/-- Where the reader is; in the modes of the second line a word is begun. -/
inductive Mode where
  | between | betweenEscape | comment | amp
  | plain | escape | single | double | doubleEscape | wordAmp
  deriving DecidableEq, Repr

/-- A blank of the shell. -/
def isBlank (c : Char) : Bool := c == ' ' || c == '\t'

/-- A line break. -/
def isNewline (c : Char) : Bool := c == '\n'

/-- What ends a word. -/
def isSeparator (c : Char) : Bool := isBlank c || isNewline c

/-- Parameter expansion and command substitution. -/
def isExpansion (c : Char) : Bool := c == '$' || c == '`'

/-- The characters of operators that are not modelled. -/
def isOperator (c : Char) : Bool :=
  c == '|' || c == ';' || c == '<' || c == '>' || c == '(' || c == ')'

/-- Characters that stand for themselves inside an unquoted word. -/
def isOrdinary (c : Char) : Bool :=
  !(isSeparator c || isExpansion c || isOperator c || c == '&' || c == '\\' || c == '\'' || c == '"')

/-- The characters a backslash quotes inside double quotes. -/
def isDoubleSpecial (c : Char) : Bool := isExpansion c || c == '"' || c == '\\'

/-- Where an unquoted character of a word leads, with what it adds to the word. -/
def wordChar (c : Char) : Option (Mode × Word) :=
  if c == '\\' then some (.escape, [])
  else if c == '\'' then some (.single, [])
  else if c == '"' then some (.double, [])
  else if isExpansion c || isOperator c then none
  else some (.plain, [(c, false)])

/-- One character: the tokens it completes, and where it leads. -/
def step : Mode → Word → Char → Option (List Token × Mode × Word)
  | .between, _, c =>
    if isBlank c then some ([], .between, [])
    else if isNewline c then some ([.newline], .between, [])
    else if c == '#' then some ([], .comment, [])
    else if c == '&' then some ([], .amp, [])
    else if c == '\\' then some ([], .betweenEscape, [])
    else
      match wordChar c with
      | some (mode, added) => some ([], mode, added)
      | none => none
  | .betweenEscape, _, c =>
    -- a line continuation in front of a word begins no word
    if isNewline c then some ([], .between, []) else some ([], .plain, [(c, true)])
  | .comment, _, c =>
    if isNewline c then some ([.newline], .between, []) else some ([], .comment, [])
  | .amp, _, c => if c == '&' then some ([.andIf], .between, []) else none
  | .plain, word, c =>
    if isBlank c then some ([.word word], .between, [])
    else if isNewline c then some ([.word word, .newline], .between, [])
    else if c == '&' then some ([], .wordAmp, word)
    else
      match wordChar c with
      | some (mode, added) => some ([], mode, word ++ added)
      | none => none
  | .escape, word, c =>
    if isNewline c then some ([], .plain, word) else some ([], .plain, word ++ [(c, true)])
  | .single, word, c =>
    if c == '\'' then some ([], .plain, word) else some ([], .single, word ++ [(c, true)])
  | .double, word, c =>
    if c == '"' then some ([], .plain, word)
    else if c == '\\' then some ([], .doubleEscape, word)
    else if isExpansion c then none
    else some ([], .double, word ++ [(c, true)])
  | .doubleEscape, word, c =>
    if isNewline c then some ([], .double, word)
    else if isDoubleSpecial c then some ([], .double, word ++ [(c, true)])
    else some ([], .double, word ++ [('\\', true), (c, true)])
  | .wordAmp, word, c => if c == '&' then some ([.word word, .andIf], .between, []) else none

/-- The end of the text. -/
def finish : Mode → Word → Option (List Token)
  | .between, _ => some []
  | .comment, _ => some []
  | .plain, word => some [.word word]
  | _, _ => none

/-- The tokens of `text`, read in `mode` with `word` begun. -/
def scan (mode : Mode) (word : Word) : List Char → Option (List Token)
  | [] => finish mode word
  | c :: cs =>
    match step mode word c with
    | some (completed, mode', word') =>
      match scan mode' word' cs with
      | some later => some (completed ++ later)
      | none => none
    | none => none

/-! ## Plain and quoted text -/

/-- A text none of which was quoted. -/
def unquoted (text : List Char) : Word := text.map (fun c => (c, false))

/-- A text all of which was quoted. -/
def quoted (text : List Char) : Word := text.map (fun c => (c, true))

/-- The characters of a word, the quotes gone. -/
def value (w : Word) : List Char := w.map Prod.fst

@[simp] theorem value_unquoted (text : List Char) : value (unquoted text) = text := by
  simp [value, unquoted, Function.comp_def]

@[simp] theorem value_quoted (text : List Char) : value (quoted text) = text := by
  simp [value, quoted, Function.comp_def]

@[simp] theorem value_append (v w : Word) : value (v ++ w) = value v ++ value w := by
  simp [value]

theorem isOrdinary_iff {c : Char} : isOrdinary c = true ↔
    isBlank c = false ∧ isNewline c = false ∧ isExpansion c = false ∧ isOperator c = false ∧
      c ≠ '&' ∧ c ≠ '\\' ∧ c ≠ '\'' ∧ c ≠ '"' := by
  simp [isOrdinary, isSeparator, and_assoc]

theorem wordChar_of_ordinary {c : Char} (h : isOrdinary c = true) :
    wordChar c = some (.plain, [(c, false)]) := by
  obtain ⟨_, _, he, ho, _, hb, hs, hd⟩ := isOrdinary_iff.mp h
  simp [wordChar, he, ho, hb, hs, hd]

/-- A character that completes no token only moves the reader. -/
theorem scan_move {mode mode' : Mode} {word word' : Word} {c : Char}
    (h : step mode word c = some ([], mode', word')) (rest : List Char) :
    scan mode word (c :: rest) = scan mode' word' rest := by
  rw [scan, h]
  dsimp only
  cases scan mode' word' rest with
  | some later => rfl
  | none => rfl

theorem step_plain_ordinary {c : Char} (h : isOrdinary c = true) (word : Word) :
    step .plain word c = some ([], .plain, word ++ [(c, false)]) := by
  obtain ⟨hbl, hn, _, _, ha, _⟩ := isOrdinary_iff.mp h
  simp [step, hbl, hn, ha, wordChar_of_ordinary h]

theorem step_between_ordinary {c : Char} (h : isOrdinary c = true) (hhash : c ≠ '#') :
    step .between [] c = some ([], .plain, [(c, false)]) := by
  obtain ⟨hbl, hn, _, _, ha, hb, _⟩ := isOrdinary_iff.mp h
  simp [step, hbl, hn, ha, hb, hhash, wordChar_of_ordinary h]

/-- Ordinary characters are added to the word. -/
theorem scan_ordinary : ∀ (text : List Char), text.all isOrdinary = true →
    ∀ (word : Word) (rest : List Char),
      scan .plain word (text ++ rest) = scan .plain (word ++ unquoted text) rest := by
  intro text
  induction text with
  | nil => intro _ word rest; simp [unquoted]
  | cons c cs ih =>
    intro h word rest
    obtain ⟨hc, hcs⟩ : isOrdinary c = true ∧ cs.all isOrdinary = true := by simpa using h
    rw [List.cons_append, scan_move (step_plain_ordinary hc word), ih hcs]
    simp [unquoted]

/-- An ordinary text that is no comment begins a word. -/
theorem scan_between_ordinary {text : List Char} (h : text.all isOrdinary = true)
    (hne : text ≠ []) (hhash : text.head? ≠ some '#') (rest : List Char) :
    scan .between [] (text ++ rest) = scan .plain (unquoted text) rest := by
  match text with
  | [] => exact absurd rfl hne
  | c :: cs =>
    obtain ⟨hc, hcs⟩ : isOrdinary c = true ∧ cs.all isOrdinary = true := by simpa using h
    rw [List.cons_append, scan_move (step_between_ordinary hc (by simpa using hhash)),
      scan_ordinary cs hcs]
    simp [unquoted]

/-- A text in single quotes; a single quote in it is put between double quotes. -/
def singleQuoted (text : List Char) : List Char :=
  '\'' :: (text.flatMap (fun c => if c = '\'' then ['\'', '"', '\'', '"', '\''] else [c]) ++ ['\''])

theorem step_single_quote (word : Word) : step .single word '\'' = some ([], .plain, word) := by
  simp [step]

theorem step_single {c : Char} (h : c ≠ '\'') (word : Word) :
    step .single word c = some ([], .single, word ++ [(c, true)]) := by
  simp [step, h]

/-- Closing, a quote between double quotes, and opening again. -/
theorem scan_quote_in_single (word : Word) (rest : List Char) :
    scan .single word ('\'' :: '"' :: '\'' :: '"' :: '\'' :: rest) =
      scan .single (word ++ [('\'', true)]) rest := by
  have hopen : ∀ w, step .plain w '"' = some ([], .double, w) := by
    intro w
    simp [step, wordChar, isBlank, isNewline]
  have hquote : ∀ w, step .double w '\'' = some ([], .double, w ++ [('\'', true)]) := by
    intro w
    simp [step, isExpansion]
  have hclose : ∀ w, step .double w '"' = some ([], .plain, w) := by
    intro w
    simp [step]
  have hreopen : ∀ w, step .plain w '\'' = some ([], .single, w) := by
    intro w
    simp [step, wordChar, isBlank, isNewline]
  rw [scan_move (step_single_quote word), scan_move (hopen word), scan_move (hquote word),
    scan_move (hclose _), scan_move (hreopen _)]

theorem scan_single_body : ∀ (text : List Char) (word : Word) (rest : List Char),
    scan .single word
        (text.flatMap (fun c => if c = '\'' then ['\'', '"', '\'', '"', '\''] else [c]) ++ rest) =
      scan .single (word ++ quoted text) rest := by
  intro text
  induction text with
  | nil => intro word rest; simp [quoted]
  | cons c cs ih =>
    intro word rest
    rw [List.flatMap_cons, List.append_assoc]
    by_cases hc : c = '\''
    · subst hc
      rw [if_pos rfl]
      simp only [List.cons_append, List.nil_append]
      rw [scan_quote_in_single, ih]
      simp [quoted]
    · rw [if_neg hc, List.singleton_append, scan_move (step_single hc word), ih]
      simp [quoted]

/-- A single-quoted text is added to the word as it is, whatever it contains. -/
theorem scan_singleQuoted (text : List Char) (word : Word) (rest : List Char) :
    scan .plain word (singleQuoted text ++ rest) = scan .plain (word ++ quoted text) rest := by
  have hopen : step .plain word '\'' = some ([], .single, word) := by
    simp [step, wordChar, isBlank, isNewline]
  rw [singleQuoted, List.cons_append, scan_move hopen, List.append_assoc, scan_single_body]
  exact scan_move (step_single_quote _) rest

theorem scan_between_singleQuoted (text rest : List Char) :
    scan .between [] (singleQuoted text ++ rest) = scan .plain (quoted text) rest := by
  have hopen : step .between [] '\'' = some ([], .single, []) := by
    simp [step, wordChar, isBlank, isNewline]
  rw [singleQuoted, List.cons_append, scan_move hopen, List.append_assoc, scan_single_body]
  exact scan_move (step_single_quote _) rest

/-- Put tokens in front of a reading. -/
def emit (completed : List Token) (later : Option (List Token)) : Option (List Token) :=
  later.map (completed ++ ·)

@[simp] theorem emit_nil (later : Option (List Token)) : emit [] later = later := by
  simp [emit]

@[simp] theorem emit_emit (a b : List Token) (later : Option (List Token)) :
    emit a (emit b later) = emit (a ++ b) later := by
  simp [emit, Function.comp_def]

@[simp] theorem emit_some (completed later : List Token) :
    emit completed (some later) = some (completed ++ later) := rfl

theorem emit_eq_some {completed out : List Token} {later : Option (List Token)} :
    emit completed later = some out ↔ ∃ rest, later = some rest ∧ out = completed ++ rest := by
  simp [emit, eq_comm]

/-- A blank ends the word. -/
theorem scan_plain_space (word : Word) (rest : List Char) :
    scan .plain word (' ' :: rest) = emit [.word word] (scan .between [] rest) := by
  have hstep : step .plain word ' ' = some ([.word word], .between, []) := by
    simp [step, isBlank]
  rw [scan, hstep]
  dsimp only
  cases scan .between [] rest with
  | some later => rfl
  | none => rfl

theorem scan_between_space (rest : List Char) :
    scan .between [] (' ' :: rest) = scan .between [] rest :=
  scan_move (by simp [step, isBlank]) rest

theorem scan_between_andIf (rest : List Char) :
    scan .between [] ('&' :: '&' :: rest) = emit [.andIf] (scan .between [] rest) := by
  have hfirst : step .between [] '&' = some ([], .amp, []) := by
    simp [step, isBlank, isNewline]
  have hsecond : step .amp [] '&' = some ([.andIf], .between, []) := by
    simp [step]
  rw [scan_move hfirst, scan, hsecond]
  dsimp only
  cases scan .between [] rest with
  | some later => rfl
  | none => rfl

theorem scan_between_hash (rest : List Char) :
    scan .between [] ('#' :: rest) = scan .comment [] rest :=
  scan_move (by simp [step, isBlank, isNewline]) rest

/-- What a comment leaves: nothing, or the end of its line. -/
theorem scan_comment_eq : ∀ (text : List Char) {out : List Token},
    scan .comment [] text = some out → out = [] ∨ ∃ later, out = .newline :: later := by
  intro text
  induction text with
  | nil =>
    intro out h
    exact Or.inl (by simpa [scan, finish] using h.symm)
  | cons c cs ih =>
    intro out h
    by_cases hc : isNewline c = true
    · have hstep : step .comment [] c = some ([.newline], .between, []) := by simp [step, hc]
      rw [scan, hstep] at h
      dsimp only at h
      split at h
      next later _ => exact Or.inr ⟨later, (Option.some.inj h).symm⟩
      next => simp at h
    · have hstep : step .comment [] c = some ([], .comment, []) := by simp [step, hc]
      rw [scan_move hstep] at h
      exact ih h

theorem scan_comment_line {text : List Char} (h : ∀ c ∈ text, isNewline c = false) :
    scan .comment [] text = some [] := by
  induction text with
  | nil => rfl
  | cons c cs ih =>
    obtain ⟨hc, hcs⟩ := List.forall_mem_cons.mp h
    have hstep : step .comment [] c = some ([], .comment, []) := by simp [step, hc]
    rw [scan_move hstep, ih hcs]

end GraphHarness.Shell
