import GraphHarness.Shell.Lexer

/-!
# What the lexer can lose

Reading a text never makes something out of nothing: quotation and comments only
drop characters, and every word but the last is ended by a separator. Two
consequences, for any text:

* `scan_cost`: the separators of a text pay for the words read from it, those
  inside the words and one for each word but the last;
* `ordinary_of_first_word`: if no separator was lost on the way, a text in front
  that comes back as the first word had no character of special meaning in it.

The second is the converse of `scan_between_ordinary`, and what makes statements
about *exactly* the harmless texts possible.

A cost is counted for each token, and `Adds` says how many separators a character can add in
each mode; one step lemma for all modes (`step_cost`) carries the count through any text.
`Lossy` is a reading that has dropped one of the separators it was given, by a quotation or a
comment, and `lossy_of_room` finds it from the count.
-/

namespace GraphHarness.Shell

/-! ## Separators -/

/-- The separators of a text. -/
def separators (text : List Char) : Nat := text.countP isSeparator

/-- What the words of a reading need: their own separators, and one each. -/
def cost : List Token → Nat
  | [] => 0
  | .word w :: tokens => separators (value w) + 1 + cost tokens
  | .andIf :: tokens => cost tokens
  | .newline :: tokens => cost tokens

@[simp] theorem separators_nil : separators [] = 0 := rfl

@[simp] theorem separators_append (a b : List Char) :
    separators (a ++ b) = separators a + separators b := by
  simp [separators]

theorem separators_cons (c : Char) (text : List Char) :
    separators (c :: text) = (if isSeparator c then 1 else 0) + separators text := by
  rw [separators, List.countP_cons, Nat.add_comm]
  rfl

/-- Quoting a text adds no separators. -/
theorem separators_singleQuoted (text : List Char) :
    separators (singleQuoted text) = separators text := by
  have hquote : isSeparator '\'' = false := by decide
  have hdouble : isSeparator '"' = false := by decide
  have hbody : ∀ body : List Char,
      separators (body.flatMap (fun c => if c = '\'' then ['\'', '"', '\'', '"', '\''] else [c])) =
        separators body := by
    intro body
    induction body with
    | nil => rfl
    | cons c cs ih =>
      rw [List.flatMap_cons, separators_append, ih, separators_cons]
      split
      next hc =>
        subst hc
        simp [separators_cons, hquote, hdouble]
      next => simp [separators_cons]
  rw [singleQuoted, separators_cons, separators_append, hbody]
  simp [separators_cons, hquote]

/-! ## Everything a character can do -/

/-- A word is begun. -/
def InWord : Mode → Bool
  | .plain | .escape | .single | .double | .doubleEscape | .wordAmp => true
  | _ => false

/-- An unquoted character opens a quotation or is added to the word. -/
theorem wordChar_cases {c : Char} {mode : Mode} {added : Word}
    (h : wordChar c = some (mode, added)) :
    InWord mode = true ∧ mode ≠ .doubleEscape ∧ (added = [] ∨ added = [(c, false)]) := by
  unfold wordChar at h
  split at h
  next => obtain ⟨rfl, rfl⟩ := Prod.mk.inj (Option.some.inj h); simp [InWord]
  next =>
    split at h
    next => obtain ⟨rfl, rfl⟩ := Prod.mk.inj (Option.some.inj h); simp [InWord]
    next =>
      split at h
      next => obtain ⟨rfl, rfl⟩ := Prod.mk.inj (Option.some.inj h); simp [InWord]
      next =>
        split at h
        next => simp at h
        next => obtain ⟨rfl, rfl⟩ := Prod.mk.inj (Option.some.inj h); simp [InWord]

/-- What a character of an open word may add to it. -/
def Adds (mode mode' : Mode) (c : Char) (added : Word) : Prop :=
  added = [] ∨ (mode' ≠ .doubleEscape ∧ ∃ q, added = [(c, q)]) ∨
    (mode = .doubleEscape ∧ mode' = .double ∧ added = [('\\', true), (c, true)])

/-- **Inside a word** a character moves on within the word, ends it as a separator,
or ends it as the second `&`. -/
theorem step_inWord {mode mode' : Mode} {word word' : Word} {c : Char} {completed : List Token}
    (hmode : InWord mode = true) (h : step mode word c = some (completed, mode', word')) :
    (completed = [] ∧ InWord mode' = true ∧
      ∃ added, word' = word ++ added ∧ Adds mode mode' c added) ∨
    (mode = .plain ∧ isSeparator c = true ∧ mode' = .between ∧ word' = [] ∧
      ∃ more, completed = .word word :: more ∧ cost more = 0) ∨
    (.andIf ∈ completed ∧ ∃ more, completed = .word word :: more) := by
  -- the two kinds of steps inside a word: without a character of it, and with one
  have hnothing : ∀ m : Mode, InWord m = true →
      some ([], m, word) = some (completed, mode', word') →
      completed = [] ∧ InWord mode' = true ∧
        ∃ added, word' = word ++ added ∧ Adds mode mode' c added := by
    intro m hm he
    simp only [Option.some.injEq, Prod.mk.injEq] at he
    obtain ⟨rfl, rfl, rfl⟩ := he
    exact ⟨rfl, hm, [], by simp, Or.inl rfl⟩
  have hchar : ∀ m : Mode, InWord m = true → m ≠ .doubleEscape → ∀ q,
      some ([], m, word ++ [(c, q)]) = some (completed, mode', word') →
      completed = [] ∧ InWord mode' = true ∧
        ∃ added, word' = word ++ added ∧ Adds mode mode' c added := by
    intro m hm hd q he
    simp only [Option.some.injEq, Prod.mk.injEq] at he
    obtain ⟨rfl, rfl, rfl⟩ := he
    exact ⟨rfl, hm, _, rfl, Or.inr (Or.inl ⟨hd, q, rfl⟩)⟩
  cases mode with
  | between | betweenEscape | comment | amp => simp [InWord] at hmode
  | plain =>
    simp only [step] at h
    split at h
    next hb =>
      simp only [Option.some.injEq, Prod.mk.injEq] at h
      obtain ⟨rfl, rfl, rfl⟩ := h
      exact Or.inr (Or.inl ⟨rfl, by simp [isSeparator, hb], rfl, rfl, [], rfl, rfl⟩)
    next =>
      split at h
      next hn =>
        simp only [Option.some.injEq, Prod.mk.injEq] at h
        obtain ⟨rfl, rfl, rfl⟩ := h
        exact Or.inr (Or.inl ⟨rfl, by simp [isSeparator, hn], rfl, rfl, [.newline], rfl, rfl⟩)
      next =>
        split at h
        next => exact Or.inl (hnothing .wordAmp rfl h)
        next =>
          split at h
          next mode added hw =>
            obtain ⟨hin, hd, rfl | rfl⟩ := wordChar_cases hw
            · exact Or.inl (hnothing mode hin (by simpa using h))
            · exact Or.inl (hchar mode hin hd false h)
          next => simp at h
  | escape =>
    simp only [step] at h
    split at h
    next => exact Or.inl (hnothing .plain rfl h)
    next => exact Or.inl (hchar .plain rfl (by simp) true h)
  | single =>
    simp only [step] at h
    split at h
    next => exact Or.inl (hnothing .plain rfl h)
    next => exact Or.inl (hchar .single rfl (by simp) true h)
  | double =>
    simp only [step] at h
    split at h
    next => exact Or.inl (hnothing .plain rfl h)
    next =>
      split at h
      next => exact Or.inl (hnothing .doubleEscape rfl h)
      next =>
        split at h
        next => simp at h
        next => exact Or.inl (hchar .double rfl (by simp) true h)
  | doubleEscape =>
    simp only [step] at h
    split at h
    next => exact Or.inl (hnothing .double rfl h)
    next =>
      split at h
      next => exact Or.inl (hchar .double rfl (by simp) true h)
      next =>
        simp only [Option.some.injEq, Prod.mk.injEq] at h
        obtain ⟨rfl, rfl, rfl⟩ := h
        exact Or.inl ⟨rfl, rfl, _, rfl, Or.inr (Or.inr ⟨rfl, rfl, rfl⟩)⟩
  | wordAmp =>
    simp only [step] at h
    split at h
    next =>
      simp only [Option.some.injEq, Prod.mk.injEq] at h
      obtain ⟨rfl, rfl, rfl⟩ := h
      exact Or.inr (Or.inr ⟨by simp, _, rfl⟩)
    next => simp at h

/-- **Between words** a character completes no word; it may begin one. -/
theorem step_outside {mode mode' : Mode} {word word' : Word} {c : Char} {completed : List Token}
    (hmode : InWord mode = false) (h : step mode word c = some (completed, mode', word')) :
    (InWord mode' = false ∧ cost completed = 0 ∧ word' = []) ∨
    (completed = [] ∧ InWord mode' = true ∧ mode' ≠ .doubleEscape ∧
      (word' = [] ∨ ∃ q, word' = [(c, q)])) := by
  have hskip : ∀ (m : Mode) (out : List Token), InWord m = false → cost out = 0 →
      some (out, m, []) = some (completed, mode', word') →
      InWord mode' = false ∧ cost completed = 0 ∧ word' = [] := by
    intro m out hm hc he
    simp only [Option.some.injEq, Prod.mk.injEq] at he
    obtain ⟨rfl, rfl, rfl⟩ := he
    exact ⟨hm, hc, rfl⟩
  cases mode with
  | plain | escape | single | double | doubleEscape | wordAmp => simp [InWord] at hmode
  | between =>
    simp only [step] at h
    split at h
    next => exact Or.inl (hskip .between [] rfl rfl h)
    next =>
      split at h
      next => exact Or.inl (hskip .between [.newline] rfl rfl h)
      next =>
        split at h
        next => exact Or.inl (hskip .comment [] rfl rfl h)
        next =>
          split at h
          next => exact Or.inl (hskip .amp [] rfl rfl h)
          next =>
            split at h
            next => exact Or.inl (hskip .betweenEscape [] rfl rfl h)
            next =>
              split at h
              next mode added hw =>
                obtain ⟨hin, hd, hadded⟩ := wordChar_cases hw
                simp only [Option.some.injEq, Prod.mk.injEq] at h
                obtain ⟨rfl, rfl, rfl⟩ := h
                exact Or.inr ⟨rfl, hin, hd, hadded.imp id (fun ha => ⟨false, ha⟩)⟩
              next => simp at h
  | betweenEscape =>
    simp only [step] at h
    split at h
    next => exact Or.inl (hskip .between [] rfl rfl h)
    next =>
      simp only [Option.some.injEq, Prod.mk.injEq] at h
      obtain ⟨rfl, rfl, rfl⟩ := h
      exact Or.inr ⟨rfl, rfl, by simp, Or.inr ⟨true, rfl⟩⟩
  | comment =>
    simp only [step] at h
    split at h
    next => exact Or.inl (hskip .between [.newline] rfl rfl h)
    next => exact Or.inl (hskip .comment [] rfl rfl h)
  | amp =>
    simp only [step] at h
    split at h
    next => exact Or.inl (hskip .between [.andIf] rfl rfl h)
    next => simp at h

/-- `scan` one character further. -/
theorem scan_cons {mode : Mode} {word : Word} {c : Char} {cs : List Char} {out : List Token}
    (h : scan mode word (c :: cs) = some out) :
    ∃ completed mode' word' later, step mode word c = some (completed, mode', word') ∧
      scan mode' word' cs = some later ∧ out = completed ++ later := by
  rw [scan] at h
  split at h
  next completed mode' word' hs =>
    split at h
    next later hl => exact ⟨completed, mode', word', later, hs, hl, (Option.some.inj h).symm⟩
    next => simp at h
  next => simp at h

/-! ## What a reading costs -/

theorem Adds.separators {mode mode' : Mode} {c : Char} {added : Word}
    (h : Adds mode mode' c added) :
    separators (value added) ≤ separators [c] := by
  rcases h with rfl | ⟨_, q, rfl⟩ | ⟨_, _, rfl⟩
  · exact Nat.zero_le _
  · exact Nat.le_refl _
  · have hslash : isSeparator '\\' = false := by decide
    simp [value, separators_cons, hslash]

/-- A character pays for what it completes and for what it adds. -/
theorem step_cost {mode mode' : Mode} {word word' : Word} {c : Char} {completed : List Token}
    (h : step mode word c = some (completed, mode', word')) (hand : .andIf ∉ completed) :
    cost completed + separators (value word') ≤ separators (value word) + separators [c] := by
  cases hmode : InWord mode with
  | true =>
    rcases step_inWord hmode h with
      ⟨rfl, _, added, rfl, hadds⟩ | ⟨_, hc, _, rfl, more, rfl, hmore⟩ | ⟨hmem, _⟩
    · have := hadds.separators
      simp only [cost, value_append, separators_append]
      omega
    · have hone : separators [c] = 1 := by rw [separators_cons, if_pos hc]; rfl
      rw [cost, hmore, hone]
      simp [value]
    · exact absurd hmem hand
  | false =>
    rcases step_outside hmode h with ⟨_, hcost, rfl⟩ | ⟨rfl, _, _, rfl | ⟨q, rfl⟩⟩
    · rw [hcost]
      simp [value]
    · simp [cost, value]
    · simp [cost, value]

theorem cost_append : ∀ (a b : List Token), cost (a ++ b) = cost a + cost b := by
  intro a b
  induction a with
  | nil => simp [cost]
  | cons token a ih =>
    cases token with
    | word w => simp only [List.cons_append, cost, ih]; omega
    | andIf => simp only [List.cons_append, cost, ih]
    | newline => simp only [List.cons_append, cost, ih]

/-- **Words are paid for with separators**: those inside a word, and the one behind
it, except for the last. -/
theorem scan_cost : ∀ (text : List Char) (mode : Mode) (word : Word) (out : List Token),
    scan mode word text = some out → .andIf ∉ out →
      cost out ≤ separators (value word) + separators text + 1 := by
  intro text
  induction text with
  | nil =>
    intro mode word out h _
    rw [scan] at h
    cases mode with
    | between | comment =>
      obtain rfl : [] = out := by simpa [finish] using h
      exact Nat.zero_le _
    | plain =>
      obtain rfl : [.word word] = out := by simpa [finish] using h
      simp [cost]
    | betweenEscape | amp | escape | single | double | doubleEscape | wordAmp => simp [finish] at h
  | cons c cs ih =>
    intro mode word out h hand
    -- the step pays for what it completes, the rest for the rest
    obtain ⟨completed, mode', word', later, hs, hl, rfl⟩ := scan_cons h
    have hhead := step_cost hs (fun hm => hand (List.mem_append_left _ hm))
    have htail := ih mode' word' later hl (fun hm => hand (List.mem_append_right _ hm))
    have hsplit : separators (c :: cs) = separators [c] + separators cs := separators_append [c] cs
    rw [cost_append]
    omega

/-- What was begun is the beginning of the first word. -/
theorem scan_first : ∀ (text : List Char) (mode : Mode) (word : Word) (out : List Token),
    InWord mode = true → scan mode word text = some out →
      ∃ added later, out = .word (word ++ added) :: later := by
  intro text
  induction text with
  | nil =>
    intro mode word out hmode h
    rw [scan] at h
    cases mode with
    | plain => exact ⟨[], [], by simpa [finish] using h.symm⟩
    | between | comment | betweenEscape | amp => simp [InWord] at hmode
    | escape | single | double | doubleEscape | wordAmp => simp [finish] at h
  | cons c cs ih =>
    intro mode word out hmode h
    obtain ⟨completed, mode', word', later, hs, hl, rfl⟩ := scan_cons h
    rcases step_inWord hmode hs with
      ⟨rfl, hmode', added, rfl, _⟩ | ⟨_, _, _, _, more, rfl, _⟩ | ⟨_, more, rfl⟩
    · obtain ⟨added', later', rfl⟩ := ih mode' _ later hmode' hl
      exact ⟨added ++ added', later', by simp⟩
    · exact ⟨[], more ++ later, by simp⟩
    · exact ⟨[], more ++ later, by simp⟩

/-! ## A text read as itself was plain

Quotation loses characters: as long as no separator is lost, a text in front that
comes back as the first word has been read without any. `room` bounds what a text
without separators can have put into the word. -/

/-- The length of the word, with a backslash that may still be added to it. -/
def room (mode : Mode) (word : Word) : Nat :=
  word.length + if mode = .doubleEscape then 1 else 0

theorem Adds.room {mode mode' : Mode} {c : Char} {word added : Word} (h : Adds mode mode' c added) :
    room mode' (word ++ added) ≤ room mode word + 1 := by
  unfold Shell.room
  rcases h with rfl | ⟨hd, q, rfl⟩ | ⟨rfl, rfl, rfl⟩
  · rw [List.append_nil]
    split
    next => omega
    next => omega
  · rw [if_neg hd, List.length_append]
    simp only [List.length_singleton]
    omega
  · simp

/-- A text without separators stays within the word, and has room in it. -/
theorem scan_prefix : ∀ (p : List Char), (∀ c ∈ p, isSeparator c = false) →
    ∀ (mode : Mode) (word : Word) (rest : List Char) (out : List Token), InWord mode = true →
      scan mode word (p ++ rest) = some out → .andIf ∉ out →
      ∃ mode' word', InWord mode' = true ∧ scan mode' word' rest = some out ∧
        room mode' word' ≤ room mode word + p.length ∧
        separators (value word') ≤ separators (value word) := by
  intro p
  induction p with
  | nil =>
    intro _ mode word rest out hmode h _
    exact ⟨mode, word, hmode, h, Nat.le_refl _, Nat.le_refl _⟩
  | cons c p ih =>
    intro hp mode word rest out hmode h hand
    obtain ⟨hc, hp⟩ := List.forall_mem_cons.mp hp
    obtain ⟨completed, mode₁, word₁, later, hs, hl, rfl⟩ := scan_cons h
    rcases step_inWord hmode hs with
      ⟨rfl, hmode₁, added, rfl, hadds⟩ | ⟨_, hsep, _⟩ | ⟨hmem, _⟩
    · obtain ⟨mode', word', hmode', hscan, hroom, hsepw⟩ := ih hp mode₁ _ rest later hmode₁ hl hand
      have hstep := @Adds.room _ _ _ word _ hadds
      have hcost := hadds.separators
      have hzero : separators [c] = 0 := by simp [separators_cons, hc]
      refine ⟨mode', word', hmode', hscan, ?_, ?_⟩
      · rw [List.length_cons]
        omega
      · rw [value_append, separators_append] at hsepw
        omega
    · rw [hc] at hsep
      simp at hsep
    · exact absurd (List.mem_append_left _ hmem) hand

/-- What is not ordinary adds nothing to the word. -/
theorem wordChar_not_ordinary {c : Char} {mode : Mode} {added : Word}
    (hord : isOrdinary c = false) (hsep : isSeparator c = false) (hamp : c ≠ '&')
    (h : wordChar c = some (mode, added)) :
    InWord mode = true ∧ mode ≠ .doubleEscape ∧ added = [] := by
  unfold wordChar at h
  split at h
  next => obtain ⟨rfl, rfl⟩ := Prod.mk.inj (Option.some.inj h); simp [InWord]
  next hb =>
    split at h
    next => obtain ⟨rfl, rfl⟩ := Prod.mk.inj (Option.some.inj h); simp [InWord]
    next hq =>
      split at h
      next => obtain ⟨rfl, rfl⟩ := Prod.mk.inj (Option.some.inj h); simp [InWord]
      next hd =>
        split at h
        next => simp at h
        next hx =>
          have hyes : isOrdinary c = true := by
            simp only [isOrdinary, hsep]
            simp_all
          rw [hyes] at hord
          simp at hord

theorem step_plain_not_ordinary {c : Char} {mode' : Mode} {word word' : Word}
    {completed : List Token} (hord : isOrdinary c = false) (hsep : isSeparator c = false)
    (h : step .plain word c = some (completed, mode', word')) :
    completed = [] ∧ InWord mode' = true ∧ mode' ≠ .doubleEscape ∧ word' = word := by
  obtain ⟨hb, hn⟩ : isBlank c = false ∧ isNewline c = false := by simpa [isSeparator] using hsep
  simp only [step, hb, hn, Bool.false_eq_true, if_false] at h
  split at h
  next =>
    simp only [Option.some.injEq, Prod.mk.injEq] at h
    obtain ⟨rfl, rfl, rfl⟩ := h
    simp [InWord]
  next hamp =>
    split at h
    next mode added hw =>
      obtain ⟨hin, hd, rfl⟩ := wordChar_not_ordinary hord hsep (by simpa using hamp) hw
      simp only [Option.some.injEq, Prod.mk.injEq] at h
      obtain ⟨rfl, rfl, rfl⟩ := h
      exact ⟨rfl, hin, hd, by simp⟩
    next => simp at h

/-- Once a text is not plain, it has added less than its length. -/
theorem scan_prefix_strict : ∀ (p : List Char), (∀ c ∈ p, isSeparator c = false) →
    p.all isOrdinary = false →
    ∀ (word : Word) (rest : List Char) (out : List Token),
      scan .plain word (p ++ rest) = some out → .andIf ∉ out →
      ∃ mode' word', InWord mode' = true ∧ scan mode' word' rest = some out ∧
        room mode' word' < word.length + p.length ∧
        separators (value word') ≤ separators (value word) := by
  intro p
  induction p with
  | nil => intro _ h; simp at h
  | cons c p ih =>
    intro hp hord word rest out h hand
    obtain ⟨hc, hp⟩ := List.forall_mem_cons.mp hp
    cases hcord : isOrdinary c with
    | true =>
      have hord' : p.all isOrdinary = false := by simpa [hcord] using hord
      -- a plain character takes its own place; the loss is behind it
      rw [List.cons_append, scan_move (step_plain_ordinary hcord word)] at h
      obtain ⟨mode', word', hmode', hscan, hroom, hsepw⟩ := ih hp hord' _ rest out h hand
      have hzero : separators (value [(c, false)]) = 0 := by simp [value, separators_cons, hc]
      refine ⟨mode', word', hmode', hscan, ?_, ?_⟩
      · rw [List.length_append, List.length_singleton] at hroom
        rw [List.length_cons]
        omega
      · rw [value_append, separators_append, hzero] at hsepw
        exact hsepw
    | false =>
      -- this one takes none
      obtain ⟨completed, mode₁, word₁, later, hs, hl, rfl⟩ := scan_cons h
      obtain ⟨rfl, hmode₁, hd, rfl⟩ := step_plain_not_ordinary hcord hc hs
      obtain ⟨mode', word', hmode', hscan, hroom, hsepw⟩ :=
        scan_prefix p hp mode₁ word₁ rest later hmode₁ hl hand
      refine ⟨mode', word', hmode', hscan, ?_, hsepw⟩
      have hroom₁ : room mode₁ word₁ = word₁.length := by rw [room, if_neg hd, Nat.add_zero]
      rw [List.length_cons]
      omega

/-- The next character behind an open word ends it, is lost, or is in it no
further than there was room. -/
theorem scan_next {c : Char} {mode : Mode} {word : Word}
    {rest : List Char} {out : List Token} (hmode : InWord mode = true)
    (h : scan mode word (c :: rest) = some out) (hand : .andIf ∉ out) :
    (mode = .plain ∧ ∃ later, out = .word word :: later) ∨
    cost out ≤ separators (value word) + separators rest + 1 ∨
    (∃ i w later, out = .word w :: later ∧ i ≤ room mode word ∧ (value w)[i]? = some c) := by
  obtain ⟨completed, mode', word', later, hs, hl, rfl⟩ := scan_cons h
  rcases step_inWord hmode hs with
    ⟨rfl, hmode', added, rfl, hadds⟩ | ⟨rfl, _, _, _, more, rfl, _⟩ | ⟨hmem, _⟩
  · rcases hadds with rfl | ⟨_, q, rfl⟩ | ⟨rfl, _, rfl⟩
    · refine Or.inr (Or.inl ?_)
      rw [List.append_nil] at hl
      exact scan_cost rest mode' word later hl hand
    · obtain ⟨added', later', rfl⟩ := scan_first rest mode' _ later hmode' hl
      refine Or.inr (Or.inr ⟨word.length, _, later', rfl, Nat.le_add_right .., ?_⟩)
      simp [value]
    · obtain ⟨added', later', rfl⟩ := scan_first rest mode' _ later hmode' hl
      refine Or.inr (Or.inr ⟨word.length + 1, _, later', rfl, by simp [room], ?_⟩)
      simp [value]
  · exact Or.inl ⟨rfl, more ++ later, rfl⟩
  · exact absurd (List.mem_append_left _ hmem) hand

/-- A separator where no word is begun is lost. -/
theorem scan_between_separator {c : Char} (hc : isSeparator c = true) {rest : List Char}
    {out : List Token} (h : scan .between [] (c :: rest) = some out) (hand : .andIf ∉ out) :
    cost out ≤ separators rest + 1 := by
  obtain ⟨completed, mode', word', later, hs, hl, rfl⟩ := scan_cons h
  have hskip : cost completed = 0 ∧ word' = [] := by
    simp only [step] at hs
    split at hs
    next =>
      simp only [Option.some.injEq, Prod.mk.injEq] at hs
      exact ⟨by rw [← hs.1]; rfl, hs.2.2.symm⟩
    next hb =>
      rw [if_pos (by simpa [isSeparator, hb] using hc)] at hs
      simp only [Option.some.injEq, Prod.mk.injEq] at hs
      exact ⟨by rw [← hs.1]; rfl, hs.2.2.symm⟩
  have hlater := scan_cost rest mode' word' later hl (fun hm => hand (List.mem_append_right _ hm))
  rw [cost_append, hskip.1]
  rw [hskip.2] at hlater
  simpa [value] using hlater

/-- A comment has no words before the next line. -/
theorem scan_comment : ∀ (text : List Char) (out : List Token),
    scan .comment [] text = some out → .andIf ∉ out → cost out ≤ separators text := by
  intro text
  induction text with
  | nil =>
    intro out h _
    obtain rfl : [] = out := by simpa [scan, finish] using h
    exact Nat.zero_le _
  | cons c cs ih =>
    intro out h hand
    obtain ⟨completed, mode', word', later, hs, hl, rfl⟩ := scan_cons h
    have hlater : .andIf ∉ later := fun hm => hand (List.mem_append_right _ hm)
    simp only [step] at hs
    split at hs
    next hn =>
      simp only [Option.some.injEq, Prod.mk.injEq] at hs
      obtain ⟨rfl, rfl, rfl⟩ := hs
      have hcost := scan_cost cs .between [] later hl hlater
      rw [separators_cons, if_pos (by simp [isSeparator, hn])]
      simp only [List.cons_append, List.nil_append, cost, value, List.map_nil, separators_nil] at *
      omega
    next =>
      simp only [Option.some.injEq, Prod.mk.injEq] at hs
      obtain ⟨rfl, rfl, rfl⟩ := hs
      have hcost := ih later hl hlater
      rw [separators_cons]
      exact Nat.le_trans hcost (Nat.le_add_left ..)

/-- A single `&` has no reading. -/
theorem andIf_of_scan_amp {text : List Char} {out : List Token}
    (h : scan .amp [] text = some out) : .andIf ∈ out := by
  match text with
  | [] => simp [scan, finish] at h
  | c :: cs =>
    obtain ⟨completed, mode', word', later, hs, _, rfl⟩ := scan_cons h
    simp only [step] at hs
    split at hs
    next =>
      simp only [Option.some.injEq, Prod.mk.injEq] at hs
      rw [← hs.1]
      simp
    next => simp at hs

/-- Between words, what is not ordinary adds nothing to the word it begins. -/
theorem step_between_not_ordinary {c : Char} {mode' : Mode} {word' : Word} {completed : List Token}
    (hord : isOrdinary c = false) (hsep : isSeparator c = false) (hhash : c ≠ '#')
    (h : step .between [] c = some (completed, mode', word')) :
    completed = [] ∧ word' = [] ∧
      (mode' = .amp ∨ mode' = .betweenEscape ∧ c = '\\' ∨
        InWord mode' = true ∧ mode' ≠ .doubleEscape) := by
  obtain ⟨hb, hn⟩ : isBlank c = false ∧ isNewline c = false := by simpa [isSeparator] using hsep
  simp only [step, hb, hn, Bool.false_eq_true, if_false] at h
  rw [if_neg (by simpa using hhash)] at h
  split at h
  next =>
    simp only [Option.some.injEq, Prod.mk.injEq] at h
    obtain ⟨rfl, rfl, rfl⟩ := h
    exact ⟨rfl, rfl, Or.inl rfl⟩
  next hamp =>
    split at h
    next hslash =>
      simp only [Option.some.injEq, Prod.mk.injEq] at h
      obtain ⟨rfl, rfl, rfl⟩ := h
      exact ⟨rfl, rfl, Or.inr (Or.inl ⟨rfl, by simpa using hslash⟩)⟩
    next =>
      split at h
      next mode added hw =>
        obtain ⟨hin, hd, rfl⟩ := wordChar_not_ordinary hord hsep (by simpa using hamp) hw
        simp only [Option.some.injEq, Prod.mk.injEq] at h
        obtain ⟨rfl, rfl, rfl⟩ := h
        exact ⟨rfl, rfl, Or.inr (Or.inr ⟨hin, hd⟩)⟩
      next => simp at h

theorem separators_singleton {c : Char} (hc : isSeparator c = false) (q : Bool) :
    separators (value [(c, q)]) = 0 := by
  simp [value, separators_cons, hc]

/-- A text that is not plain, after all of it: a word with room to spare, or no
word yet and a backslash. -/
theorem scan_between_strict {p : List Char} (hne : p ≠ []) (hp : ∀ c ∈ p, isSeparator c = false)
    (hhash : p.head? ≠ some '#') (hord : p.all isOrdinary = false) {rest : List Char}
    {out : List Token} (h : scan .between [] (p ++ rest) = some out) (hand : .andIf ∉ out) :
    (∃ mode' word', InWord mode' = true ∧ scan mode' word' rest = some out ∧
      room mode' word' < p.length ∧ separators (value word') = 0) ∨
    (p = ['\\'] ∧ scan .betweenEscape [] rest = some out) := by
  match p with
  | [] => exact absurd rfl hne
  | c :: p =>
    obtain ⟨hc, htail⟩ := List.forall_mem_cons.mp hp
    have hh : c ≠ '#' := by simpa using hhash
    rw [List.length_cons]
    cases hcord : isOrdinary c with
    | true =>
      have hord' : p.all isOrdinary = false := by simpa [hcord] using hord
      rw [List.cons_append, scan_move (step_between_ordinary hcord hh)] at h
      obtain ⟨mode', word', hmode', hscan, hroom, hsep⟩ :=
        scan_prefix_strict p htail hord' _ rest out h hand
      rw [separators_singleton hc] at hsep
      rw [List.length_singleton] at hroom
      exact Or.inl ⟨mode', word', hmode', hscan, by omega, by omega⟩
    | false =>
      obtain ⟨completed, mode₁, word₁, later, hs, hl, rfl⟩ := scan_cons h
      obtain ⟨rfl, rfl, rfl | ⟨rfl, rfl⟩ | ⟨hmode₁, hd⟩⟩ := step_between_not_ordinary hcord hc hh hs
      · exact absurd (andIf_of_scan_amp hl) hand
      -- a backslash: the character behind it is quoted, and the backslash is gone
      · cases p with
        | nil => exact Or.inr ⟨rfl, hl⟩
        | cons d p =>
          obtain ⟨hdsep, hp'⟩ := List.forall_mem_cons.mp htail
          obtain ⟨_, hdn⟩ : isBlank d = false ∧ isNewline d = false := by
            simpa [isSeparator] using hdsep
          have hstep : step .betweenEscape [] d = some ([], .plain, [(d, true)]) := by
            simp [step, hdn]
          have hl' : scan .plain [(d, true)] (p ++ rest) = some later := by
            rw [← scan_move hstep]
            exact hl
          obtain ⟨mode', word', hmode', hscan, hroom, hsep⟩ :=
            scan_prefix p hp' .plain _ rest later rfl hl' hand
          rw [separators_singleton hdsep] at hsep
          have hroom₁ : room .plain [(d, true)] = 1 := rfl
          rw [List.length_cons]
          exact Or.inl ⟨mode', word', hmode', hscan, by omega, by omega⟩
      · obtain ⟨mode', word', hmode', hscan, hroom, hsep⟩ :=
          scan_prefix p htail mode₁ [] rest later hmode₁ hl hand
        have hroom₁ : room mode₁ [] = 0 := by rw [room, if_neg hd]; rfl
        have hsep₁ : separators (value []) = 0 := rfl
        exact Or.inl ⟨mode', word', hmode', hscan, by omega, by omega⟩

/-- The word shows that the reading of `front` has lost characters: it is shorter,
or has a separator where `front` has none. -/
def Lossy (front : List Char) (w : Word) : Prop :=
  (value w).length < front.length ∨
    ∃ i c, i < front.length ∧ (value w)[i]? = some c ∧ isSeparator c = true

/-- The same, when the reading stands at `rest` with a word that has room to spare. -/
theorem lossy_of_room {front rest : List Char} {mode : Mode} {word : Word} {out : List Token}
    (hmode : InWord mode = true) (h : scan mode word rest = some out) (hand : .andIf ∉ out)
    (hrest : rest = [] ∨ ∃ c more, rest = c :: more ∧ isSeparator c = true)
    (hroom : room mode word < front.length) (hsep : separators (value word) = 0)
    (hcost : separators rest < cost out) : ∃ w later, out = .word w :: later ∧ Lossy front w := by
  have hlength : (value word).length < front.length := by
    simp only [value, List.length_map]
    exact Nat.lt_of_le_of_lt (Nat.le_add_right ..) hroom
  rcases hrest with rfl | ⟨c, more, rfl, hc⟩
  · obtain ⟨_, rfl⟩ : mode = .plain ∧ out = [.word word] := by
      rw [scan] at h
      cases mode with
      | plain => simpa [finish] using h.symm
      | between | comment | betweenEscape | amp => simp [InWord] at hmode
      | escape | single | double | doubleEscape | wordAmp => simp [finish] at h
    exact ⟨word, [], rfl, Or.inl hlength⟩
  -- the separator behind it is the end of the word, or is lost, or is inside the word
  · rcases scan_next hmode h hand with ⟨_, later, rfl⟩ | hlost | ⟨i, w, later, rfl, hi, hget⟩
    · exact ⟨word, later, rfl, Or.inl hlength⟩
    · rw [separators_cons, if_pos hc] at hcost
      omega
    · exact ⟨w, later, rfl, Or.inr ⟨i, c, Nat.lt_of_le_of_lt hi hroom, hget, hc⟩⟩

/-- A text up to its first separator: plain, or the first word tells. -/
theorem front_plain_or_lossy {front rest : List Char} {out : List Token}
    (hfree : ∀ c ∈ front, isSeparator c = false)
    (hrest : rest = [] ∨ ∃ c more, rest = c :: more ∧ isSeparator c = true)
    (h : scan .between [] (front ++ rest) = some out) (hand : .andIf ∉ out)
    (hcost : separators (front ++ rest) < cost out) :
    (front ≠ [] ∧ front.all isOrdinary = true ∧ front.head? ≠ some '#') ∨
      ∃ w later, out = .word w :: later ∧ Lossy front w := by
  have hcost' : separators rest < cost out := by
    rw [separators_append] at hcost
    omega
  by_cases hne : front = []
  · subst hne
    rcases hrest with rfl | ⟨c, more, rfl, hc⟩
    · obtain rfl : [] = out := by simpa [scan, finish] using h
      exact absurd hcost (Nat.not_lt_zero _)
    -- no word before the first separator: that one is not used
    · have hlost := scan_between_separator hc h hand
      rw [separators_cons, if_pos hc] at hcost'
      omega
  · by_cases hhash : front.head? = some '#'
    · obtain ⟨more, rfl⟩ : ∃ more, front = '#' :: more := by
        cases front with
        | nil => simp at hne
        | cons c more => exact ⟨more, by rw [Option.some.inj hhash]⟩
      have hstep : step .between [] '#' = some ([], .comment, []) := by
        simp [step, isBlank, isNewline]
      rw [List.cons_append, scan_move hstep] at h
      have hnone := scan_comment _ out h hand
      rw [List.cons_append, separators_cons] at hcost
      omega
    · cases hord : front.all isOrdinary with
      | true => exact Or.inl ⟨hne, rfl, hhash⟩
      | false =>
        refine Or.inr ?_
        rcases scan_between_strict hne hfree hhash hord h hand with
          ⟨mode, word, hmode, hscan, hroom, hsep⟩ | ⟨rfl, hscan⟩
        · exact lossy_of_room hmode hscan hand hrest hroom hsep hcost'
        · rcases hrest with rfl | ⟨c, more, rfl, hc⟩
          · simp [scan, finish] at hscan
          · rw [separators_cons, if_pos hc] at hcost'
            cases hn : isNewline c with
            | true =>
              -- a line that goes on: the newline is lost
              have hstep : step .betweenEscape [] c = some ([], .between, []) := by
                simp [step, hn]
              rw [scan_move hstep] at hscan
              have hlost := scan_cost more .between [] out hscan hand
              simp only [value, List.map_nil, separators_nil] at hlost
              omega
            | false =>
              have hstep : step .betweenEscape [] c = some ([], .plain, [(c, true)]) := by
                simp [step, hn]
              rw [scan_move hstep] at hscan
              obtain ⟨added, later, rfl⟩ := scan_first more .plain _ out rfl hscan
              exact ⟨_, later, rfl, Or.inr ⟨0, c, Nat.zero_lt_one, by simp [value], hc⟩⟩

/-- A text up to its first separator, and from there. -/
theorem exists_front : ∀ (p : List Char), ∃ front back, p = front ++ back ∧
    (∀ c ∈ front, isSeparator c = false) ∧
    (back = [] ∨ ∃ c more, back = c :: more ∧ isSeparator c = true) := by
  intro p
  induction p with
  | nil => exact ⟨[], [], rfl, by simp, Or.inl rfl⟩
  | cons c p ih =>
    cases hc : isSeparator c with
    | true => exact ⟨[], c :: p, rfl, by simp, Or.inr ⟨c, p, rfl, hc⟩⟩
    | false =>
      obtain ⟨front, back, rfl, hfree, hback⟩ := ih
      exact ⟨c :: front, back, rfl, List.forall_mem_cons.mpr ⟨hc, hfree⟩, hback⟩

/-- An open plain word ends with the text or at a separator. -/
theorem scan_plain_end {word : Word} {rest : List Char} {out : List Token}
    (hrest : rest = [] ∨ ∃ c more, rest = c :: more ∧ isSeparator c = true)
    (h : scan .plain word rest = some out) : ∃ later, out = .word word :: later := by
  rcases hrest with rfl | ⟨c, more, rfl, hc⟩
  · exact ⟨[], by simpa [scan, finish] using h.symm⟩
  · obtain ⟨completed, mode', word', later, hs, _, rfl⟩ := scan_cons h
    simp only [step] at hs
    split at hs
    next =>
      simp only [Option.some.injEq, Prod.mk.injEq] at hs
      exact ⟨later, by rw [← hs.1]; rfl⟩
    next hb =>
      rw [if_pos (by simpa [isSeparator, hb] using hc)] at hs
      simp only [Option.some.injEq, Prod.mk.injEq] at hs
      exact ⟨.newline :: later, by rw [← hs.1]; rfl⟩

/-- An `&&` is completed by its second character, between words. -/
theorem step_andIf {mode mode' : Mode} {word word' : Word} {c : Char} {completed : List Token}
    (h : step mode word c = some (completed, mode', word')) (hmem : .andIf ∈ completed) :
    mode' = .between ∧ word' = [] ∧ ∃ front, completed = front ++ [.andIf] ∧ .andIf ∉ front := by
  have hno : ∀ out : List Token, .andIf ∉ out →
      ∀ m w, some (out, m, w) ≠ some (completed, mode', word') := by
    intro out hout m w he
    simp only [Option.some.injEq, Prod.mk.injEq] at he
    exact hout (he.1 ▸ hmem)
  cases mode with
  | amp =>
    simp only [step] at h
    split at h
    next =>
      simp only [Option.some.injEq, Prod.mk.injEq] at h
      obtain ⟨rfl, rfl, rfl⟩ := h
      exact ⟨rfl, rfl, [], rfl, by simp⟩
    next => simp at h
  | wordAmp =>
    simp only [step] at h
    split at h
    next =>
      simp only [Option.some.injEq, Prod.mk.injEq] at h
      obtain ⟨rfl, rfl, rfl⟩ := h
      exact ⟨rfl, rfl, [.word word], rfl, by simp⟩
    next => simp at h
  | between | betweenEscape | comment | plain | escape | single | double | doubleEscape =>
    exfalso
    simp only [step] at h
    repeat' split at h
    all_goals first
      | exact hno _ (by simp) _ _ h
      | simp at h

/-- What is read behind an `&&` is read from a part of the text behind something. -/
theorem scan_behind_andIf {later : List Token} (hlater : .andIf ∉ later) :
    ∀ (text : List Char) (mode : Mode) (word : Word) (out earlier : List Token),
      scan mode word text = some out → out = earlier ++ .andIf :: later →
      ∃ front back, text = front ++ back ∧ front ≠ [] ∧ scan .between [] back = some later := by
  intro text
  induction text with
  | nil =>
    intro mode word out earlier h hout
    have hnone : .andIf ∉ out := by
      rw [scan] at h
      cases mode with
      | between | comment | plain =>
        simp only [finish, Option.some.injEq] at h
        rw [← h]
        simp
      | betweenEscape | amp | escape | single | double | doubleEscape | wordAmp =>
        simp [finish] at h
    exact absurd (by rw [hout]; simp) hnone
  | cons c cs ih =>
    intro mode word out earlier h hout
    obtain ⟨completed, mode', word', later₀, hs, hl, rfl⟩ := scan_cons h
    by_cases hmem : .andIf ∈ later₀
    · -- the last `&&` comes from the rest of the text
      rcases List.append_eq_append_iff.mp hout with ⟨mid, _, hl₀⟩ | ⟨mid, _, hl₀⟩
      · obtain ⟨front, back, rfl, _, hscan⟩ := ih mode' word' later₀ mid hl hl₀
        exact ⟨c :: front, back, rfl, by simp, hscan⟩
      · cases mid with
        | nil =>
          obtain ⟨front, back, rfl, _, hscan⟩ := ih mode' word' later₀ [] hl hl₀.symm
          exact ⟨c :: front, back, rfl, by simp, hscan⟩
        | cons token mid =>
          obtain ⟨_, rfl⟩ : .andIf = token ∧ later = mid ++ later₀ := by simpa using hl₀
          exact absurd (List.mem_append_right _ hmem) hlater
    · -- or this character has completed it
      have hand : .andIf ∈ completed := by
        have hall : .andIf ∈ completed ++ later₀ := by rw [hout]; simp
        exact (List.mem_append.mp hall).resolve_right hmem
      obtain ⟨rfl, rfl, front, rfl, hfront⟩ := step_andIf hs hand
      have hlast : later₀ = later := by
        rw [List.append_assoc, List.singleton_append] at hout
        exact ((List.append_cons_inj_of_notMem hfront hmem).mp hout).2.2
      exact ⟨[c], cs, rfl, by simp, hlast ▸ hl⟩

/-- So the last command pays for no more than the separators of the whole text. -/
theorem cost_last_le {text : List Char} {earlier later : List Token}
    (h : scan .between [] text = some (earlier ++ later))
    (hearlier : earlier = [] ∨ ∃ front, earlier = front ++ [.andIf]) (hand : .andIf ∉ later) :
    cost later ≤ separators text + 1 := by
  rcases hearlier with rfl | ⟨front, rfl⟩
  · simpa [value] using scan_cost text .between [] later h hand
  · obtain ⟨t₁, t₂, rfl, _, hscan⟩ :=
      scan_behind_andIf hand _ _ _ _ front h (by rw [List.append_assoc]; rfl)
    have hbound := scan_cost t₂ .between [] later hscan hand
    simp only [value, List.map_nil, separators_nil] at hbound
    rw [separators_append]
    omega

/-- **What comes back as the first word was plain.** If no separator was lost, a
text `p`, alone or with a blank behind it, whose reading has a last command that
begins with a word with the characters of `p`, has no quotation and nothing else of
meaning in it, and there is no other command. -/
theorem ordinary_of_first_word {p rest : List Char} {out earlier later : List Token}
    (hrest : rest = [] ∨ ∃ rest', rest = ' ' :: rest')
    (h : scan .between [] (p ++ rest) = some out) (hout : out = earlier ++ later)
    (hearlier : earlier = [] ∨ ∃ front, earlier = front ++ [.andIf]) (hand : .andIf ∉ later)
    (hcost : separators (p ++ rest) < cost later)
    (hfirst : ∀ w more, later = .word w :: more → value w = p) :
    earlier = [] ∧ p ≠ [] ∧ p.all isOrdinary = true ∧ p.head? ≠ some '#' := by
  obtain ⟨front, back, rfl, hfree, hback⟩ := exists_front p
  have hnext : back ++ rest = [] ∨ ∃ c more, back ++ rest = c :: more ∧ isSeparator c = true := by
    rcases hback with rfl | ⟨c, more, rfl, hc⟩
    · exact hrest.imp id (fun ⟨rest', hr⟩ => ⟨' ', rest', hr, by decide⟩)
    · exact Or.inr ⟨c, more ++ rest, rfl, hc⟩
  rw [List.append_assoc] at h hcost
  -- the last command is read from the end of `front` and what follows it
  obtain ⟨lost, kept, rfl, hlost, hscan⟩ : ∃ lost kept, front = lost ++ kept ∧
      (lost = [] → earlier = []) ∧ scan .between [] (kept ++ (back ++ rest)) = some later := by
    rcases hearlier with rfl | ⟨tokens, rfl⟩
    · exact ⟨[], front, rfl, fun _ => rfl, by simpa [hout] using h⟩
    · rw [List.append_assoc, List.singleton_append] at hout
      obtain ⟨t₁, t₂, htext, ht₁, hscan⟩ := scan_behind_andIf hand _ _ _ _ _ h hout
      -- a separator in front of the `&&` would be lost, so it stands inside `front`
      have hbound := scan_cost t₂ .between [] later hscan hand
      have hfree₁ : separators t₁ = 0 := by
        rw [htext, separators_append] at hcost
        simp only [value, List.map_nil, separators_nil] at hbound
        omega
      rcases List.append_eq_append_iff.mp htext with ⟨mid, rfl, hmid⟩ | ⟨mid, rfl, hmid⟩
      · cases mid with
        | nil => exact ⟨front, [], by simp, fun he => absurd (by simpa using he) ht₁,
            by simpa [hmid] using hscan⟩
        | cons d mid =>
          rcases hnext with hnil | ⟨c, more, hcons, hc⟩
          · simp [hnil] at hmid
          · rw [hcons, List.cons_append] at hmid
            obtain rfl : c = d := (List.cons.inj hmid).1
            rw [separators_append, separators_cons, if_pos hc] at hfree₁
            omega
      · exact ⟨t₁, mid, rfl, fun he => absurd he ht₁, by rw [hmid] at hscan; exact hscan⟩
  have hkept : ∀ c ∈ kept, isSeparator c = false := fun c hc => hfree c (List.mem_append_right _ hc)
  have hcost' : separators (kept ++ (back ++ rest)) < cost later := by
    refine Nat.lt_of_le_of_lt ?_ hcost
    rw [List.append_assoc, separators_append lost]
    exact Nat.le_add_left ..
  rcases front_plain_or_lossy hkept hnext hscan hand hcost' with
    ⟨hne, hord, hhash⟩ | ⟨w, more, rfl, hlossy⟩
  · rw [scan_between_ordinary hord hne hhash] at hscan
    obtain ⟨more, rfl⟩ := scan_plain_end hnext hscan
    -- the first word is `kept`, and has the length of `p`: nothing else is left
    have hvalue := hfirst _ _ rfl
    rw [value_unquoted] at hvalue
    have hlength := congrArg List.length hvalue
    simp only [List.length_append] at hlength
    have hlost₀ : lost = [] := List.eq_nil_of_length_eq_zero (by omega)
    have hback₀ : back = [] := List.eq_nil_of_length_eq_zero (by omega)
    subst hlost₀ hback₀
    exact ⟨hlost rfl, by simpa using hne, by simpa using hord, by simpa using hhash⟩
  · have hvalue := hfirst w more rfl
    rcases hlossy with hshort | ⟨i, c, hi, hget, hc⟩
    · rw [hvalue] at hshort
      simp only [List.length_append] at hshort
      omega
    · rw [hvalue, List.getElem?_append_left (by rw [List.length_append]; omega)] at hget
      rw [hfree c (List.mem_of_getElem? hget)] at hc
      simp at hc

end GraphHarness.Shell
