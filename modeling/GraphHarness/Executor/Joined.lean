import GraphHarness.Executor.Quoting

/-!
# Words joined by blanks

`ssh` joins the words behind its destination with blanks, and the remote shell reads
the text. If nothing has been quoted on the way, the words come back

> `readArgv_joined_iff` — **if and only if** each of them stands for itself: nothing in
> it has a meaning to the shell, and the first is no assignment and no reserved word.

Again the separators are counted: the text has one less than the words need, so that
none of them can be lost, and the words are plain one after the other.

This is about `ssh` without the quoting of the layers, which is how the attachment layer calls
it. `scan_wordsText` follows the text word by word; the direction from the shell's reading to
the words needs the count, since a word with a separator inside makes more words than there
were, and one that is quoted makes fewer separators count.

The words of the program and the arguments are texts of any length, empty ones too: an empty
word is lost between two blanks, and this is why `PlainWord` asks for a character.
-/

namespace GraphHarness.Executor

open Shell

/-- What the remote shell reads. -/
def joined (words : List String) : List Char := (" ".intercalate words).toList

/-- The words joined, the first apart. -/
theorem joined_cons (word : String) (words : List String) :
    joined (word :: words) = word.toList ++ wordsText words := toList_intercalate word words

/-- The blank in front of the first word makes no difference. -/
theorem scan_joined (words : List String) :
    scan .between [] (joined words) = scan .between [] (wordsText words) := by
  cases words with
  | nil => rfl
  | cons word words =>
    have htext : wordsText (word :: words) = ' ' :: (word.toList ++ wordsText words) := rfl
    rw [joined_cons, htext, scan_between_space]

/-- What a shell takes out of a text of words. -/
theorem separators_wordsText (words : List String) :
    separators (wordsText words) = argsCost words := by
  induction words with
  | nil => rfl
  | cons word words ih =>
    have hblank : isSeparator ' ' = true := by decide
    have htext : wordsText (word :: words) = ' ' :: (word.toList ++ wordsText words) := rfl
    rw [htext, separators_cons, if_pos hblank, separators_append, ih, argsCost]
    omega

/-- What a shell takes out of joined words. -/
theorem separators_joined (word : String) (words : List String) :
    separators (joined (word :: words)) + 1 = argsCost (word :: words) := by
  rw [joined_cons, separators_append, separators_wordsText, argsCost]
  omega

/-- An argument that is read as it stands. -/
def PlainWord (word : String) : Prop :=
  word ≠ "" ∧ word.toList.all isOrdinary = true ∧ word.toList.head? ≠ some '#' ∧
    word.toList.head? ≠ some '~' ∧ hasPattern (unquoted word.toList) = false

instance (word : String) : Decidable (PlainWord word) := inferInstanceAs (Decidable (_ ∧ _))

/-- A plain program is a plain word that assigns nothing. -/
theorem plainProgram_iff (program : String) : PlainProgram program ↔
    PlainWord program ∧ splitAssignment (unquoted program.toList) = none := by
  simp only [PlainProgram, PlainWord, and_assoc]

/-- A word, and what follows it. -/
theorem scan_wordsText_cons {word : String} (hne : word ≠ "")
    (hord : word.toList.all isOrdinary = true) (hhash : word.toList.head? ≠ some '#')
    (words : List String) : scan .between [] (wordsText (word :: words)) =
      emit [.word (unquoted word.toList)] (scan .between [] (wordsText words)) := by
  have htext : wordsText (word :: words) = ' ' :: (word.toList ++ wordsText words) := rfl
  rw [htext, scan_between_space, scan_between_ordinary hord (toList_ne_nil hne) hhash,
    scan_plain_wordsText]

/-- Plain words are the words that are read. -/
theorem scan_wordsText : ∀ {words : List String}, (∀ w ∈ words, PlainWord w) →
    scan .between [] (wordsText words) =
      some ((words.map (fun w => unquoted w.toList)).map .word) := by
  intro words
  induction words with
  | nil => intro _; rfl
  | cons word words ih =>
    intro h
    obtain ⟨⟨hne, hord, hhash, _⟩, hwords⟩ := List.forall_mem_cons.mp h
    rw [scan_wordsText_cons hne hord hhash, ih hwords]
    rfl

/-- **Only plain words are read as themselves.** -/
theorem ordinary_of_scan : ∀ {words : List String} {tokens : List Token},
    scan .between [] (wordsText words) = some tokens → .andIf ∉ tokens →
      (wordsOf tokens).map wordText = words →
      wordsOf tokens = words.map (fun w => unquoted w.toList) ∧
        ∀ w ∈ words, w ≠ "" ∧ w.toList.all isOrdinary = true ∧ w.toList.head? ≠ some '#' := by
  intro words
  induction words with
  | nil =>
    intro tokens _ _ hwords
    exact ⟨List.map_eq_nil_iff.mp hwords, by simp⟩
  | cons word words ih =>
    intro tokens hscan hand hwords
    -- no separator is lost, and the first word read has the characters of the first word
    have htext : wordsText (word :: words) = ' ' :: (word.toList ++ wordsText words) := rfl
    have hcost : separators (word.toList ++ wordsText words) < cost tokens := by
      rw [cost_eq_wordsOf, cost_map_word, hwords, separators_append, separators_wordsText, argsCost]
      omega
    have hfirst : ∀ w more, tokens = .word w :: more → value w = word.toList := by
      intro w more htokens
      rw [htokens] at hwords
      exact wordText_eq (List.cons.inj hwords).1
    have hrest : wordsText words = [] ∨ ∃ rest, wordsText words = ' ' :: rest := by
      cases words with
      | nil => exact Or.inl rfl
      | cons next words => exact Or.inr ⟨_, rfl⟩
    obtain ⟨_, hne, hord, hhash⟩ := ordinary_of_first_word hrest
      (by rwa [htext, scan_between_space] at hscan) (List.nil_append tokens).symm (Or.inl rfl)
      hand hcost hfirst
    have hne : word ≠ "" := fun hempty => hne (by rw [hempty]; rfl)
    rw [scan_wordsText_cons hne hord hhash] at hscan
    obtain ⟨later, hlater, rfl⟩ := emit_eq_some.mp hscan
    obtain ⟨hlaterWords, hplain⟩ := ih hlater (fun hmem => hand (List.mem_cons_of_mem _ hmem))
      (List.cons.inj hwords).2
    refine ⟨?_, List.forall_mem_cons.mpr ⟨⟨hne, hord, hhash⟩, hplain⟩⟩
    exact congrArg (unquoted word.toList :: ·) hlaterWords

/-- Words that come back are all the words that are read, and plain. -/
theorem plain_of_readArgv {program : String} {args : List String}
    (h : readArgv (joined (program :: args)) = some (program :: args)) :
    PlainProgram program ∧ program ∉ reservedWords ∧ ∀ a ∈ args, PlainWord a := by
  obtain ⟨tokens, more, words, hscan, hand, hwords, hargv, hliteral, hhead, hreserved⟩ :=
    readArgv_words h
  -- the separators pay for these words and for no assignment
  have hcost : cost tokens = cost (more.map .word) + argsCost (program :: args) := by
    rw [cost_eq_wordsOf, hwords, List.map_append, cost_append, cost_map_word words, hargv]
  have hbound := scan_cost (joined (program :: args)) .between [] tokens hscan hand
  have hroom := separators_joined program args
  obtain rfl : more = [] := by
    cases more with
    | nil => rfl
    | cons w more =>
      rw [List.map_cons, cost] at hcost
      simp only [value, List.map_nil, separators_nil] at hbound
      omega
  rw [List.nil_append] at hwords
  rw [scan_joined] at hscan
  obtain ⟨hunquoted, hplain⟩ := ordinary_of_scan hscan hand (by rw [hwords, hargv])
  rw [hwords] at hunquoted
  have hself : ∀ w ∈ program :: args, PlainWord w := by
    intro w hw
    obtain ⟨hne, hord, hhash⟩ := hplain w hw
    have hmem : unquoted w.toList ∈ words := by
      rw [hunquoted]
      exact List.mem_map_of_mem hw
    have hliteral := hliteral _ hmem
    rw [wordText_unquoted, literal_unquoted_iff] at hliteral
    exact ⟨hne, hord, hhash, hliteral⟩
  obtain ⟨hprogram, hargs⟩ := List.forall_mem_cons.mp hself
  have hfirst : words.head? = some (unquoted program.toList) := by rw [hunquoted]; rfl
  refine ⟨(plainProgram_iff program).mpr ⟨hprogram, hhead _ hfirst⟩, ?_, hargs⟩
  have hfree := hreserved rfl _ hfirst
  rw [isReserved_unquoted] at hfree
  simpa using hfree

/-- Plain words, joined, are read back as they were. -/
theorem readArgv_of_plain {program : String} {args : List String}
    (hprogram : PlainProgram program) (hreserved : program ∉ reservedWords)
    (hargs : ∀ a ∈ args, PlainWord a) :
    readArgv (joined (program :: args)) = some (program :: args) := by
  obtain ⟨hword, hsplit⟩ := (plainProgram_iff program).mp hprogram
  have hwords : ∀ w ∈ program :: args, PlainWord w := List.forall_mem_cons.mpr ⟨hword, hargs⟩
  have hliterals : ((program :: args).map (fun w => unquoted w.toList)).map literal =
      (program :: args).map some := by
    rw [List.map_map]
    refine List.map_congr_left ?_
    intro w hw
    obtain ⟨_, _, _, htilde, hpattern⟩ := hwords w hw
    exact (literal_unquoted_iff w).mpr ⟨htilde, hpattern⟩
  have hfree : isReserved (unquoted program.toList) = false := by
    rw [isReserved_unquoted]
    simpa using hreserved
  have hsimple := @simpleCommand_of_literals [] [] rfl _ _ _ hliterals hsplit (fun _ => hfree)
  refine readArgv_eq_some.mpr ⟨_, _, _, ?_, splitAnd_words true _, hsimple, rfl⟩
  rw [scan_joined, scan_wordsText hwords]
  rfl

/-- **What survives without quotes.** -/
theorem readArgv_joined_iff (program : String) (args : List String) :
    readArgv (joined (program :: args)) = some (program :: args) ↔
      PlainProgram program ∧ program ∉ reservedWords ∧ ∀ a ∈ args, PlainWord a := by
  constructor
  · exact plain_of_readArgv
  · intro h
    exact readArgv_of_plain h.1 h.2.1 h.2.2

/-- A text has no more words in it than its separators allow. -/
theorem argsCost_le_of_readArgv {text : List Char} {argv : List String}
    (h : readArgv text = some argv) : argsCost argv ≤ separators text + 1 := by
  obtain ⟨tokens, more, words, hscan, hand, hwords, rfl, _⟩ := readArgv_words h
  have hbound := scan_cost text .between [] tokens hscan hand
  rw [cost_eq_wordsOf, hwords, List.map_append, cost_append, cost_map_word words] at hbound
  simp only [value, List.map_nil, separators_nil] at hbound
  omega

/-- So no words come back with other words in front of them. -/
theorem readArgv_joined_ne {front : List String} (hfront : 2 ≤ front.length)
    (words : List String) : readArgv (joined words) ≠ some (front ++ words) := by
  intro h
  have hcost := argsCost_le_of_readArgv h
  have hroom : separators (joined words) ≤ argsCost words := by
    cases words with
    | nil => exact Nat.le_refl 0
    | cons word words => exact Nat.le_of_succ_le (Nat.le_of_eq (separators_joined word words))
  have hmore : front.length + argsCost words ≤ argsCost (front ++ words) := by
    clear h hcost hfront
    induction front with
    | nil => simp
    | cons word front ih =>
      rw [List.cons_append, argsCost, List.length_cons]
      omega
  omega

end GraphHarness.Executor
