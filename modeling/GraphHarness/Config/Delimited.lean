import GraphHarness.Parse.Nom
import GraphHarness.Parse.Template

/-!
# Delimited expressions

A text cut at its expressions, each from a `${` to the first closing brace behind it. An
opening without a closing brace is text.

`delimitedAt` cuts off one expression at the beginning of a text, and `pieces` is what the
general cutting of `Parse.Template` makes of a whole text with it. An expression may hold
anything but a closing brace, an opening too: of `${a${b}` the expression is `a${b`.

The source has no such function. It is what the two scans of the source have in common, the
loop over `parse_variable` and the regular expressions, and both are compared with it:
`pieces_open` and `pieces_find` follow the loop, `delimitedPattern` the expressions.
-/

namespace GraphHarness.Resolver

open Template (Segment Pattern segments)

/-- An expression with its delimiters. -/
def delimited (expr : List Char) : List Char := "$\x7b".toList ++ expr ++ "\x7d".toList

/-- `${`, an expression and the first closing brace behind it. -/
def delimitedAt : List Char → Option (List Char × List Char)
  | '$' :: '\x7b' :: text =>
    if '\x7d' ∈ text then
      some (delimited (text.takeWhile (· != '\x7d')), text.takeWhile (· != '\x7d'))
    else none
  | _ => none

/-- What comes before the first `c` has no `c`. -/
theorem notMem_takeWhile (c : Char) (text : List Char) : c ∉ text.takeWhile (· != c) := by
  intro h
  have hne := List.mem_takeWhile_imp h
  simp at hne

/-- A text with a closing brace in it, up to the first one. -/
theorem takeWhile_closing {c : Char} {text : List Char} (h : c ∈ text) :
    ∃ rest, text = text.takeWhile (· != c) ++ c :: rest := by
  induction text with
  | nil => cases h
  | cons d text ih =>
    by_cases hd : d = c
    · subst hd
      exact ⟨text, by simp⟩
    · obtain ⟨rest, hrest⟩ := ih (by simpa [Ne.symm hd] using h)
      refine ⟨rest, ?_⟩
      rw [List.takeWhile_cons_of_pos (by simpa using hd), List.cons_append, ← hrest]

/-- Up to the closing character there is what it closes. -/
theorem takeWhile_append_closing {c : Char} {inner : List Char} (h : c ∉ inner)
    (rest : List Char) : (inner ++ c :: rest).takeWhile (· != c) = inner := by
  rw [List.takeWhile_append_of_pos]
  · simp
  · intro d hd
    simpa using fun heq : d = c => h (heq ▸ hd)

/-- A delimited expression is matched as a whole. -/
theorem delimitedAt_delimited {expr : List Char} (h : '\x7d' ∉ expr) (rest : List Char) :
    delimitedAt (delimited expr ++ rest) = some (delimited expr, expr) := by
  have hopen : delimited expr ++ rest = '$' :: '\x7b' :: (expr ++ '\x7d' :: rest) := by
    simp [delimited]
  rw [hopen, delimitedAt, if_pos (by simp), takeWhile_append_closing h]

/-- What is matched is an expression in its delimiters. -/
theorem delimitedAt_some {text matched expr : List Char}
    (h : delimitedAt text = some (matched, expr)) :
    matched = delimited expr ∧ '\x7d' ∉ expr ∧ ∃ rest, text = delimited expr ++ rest := by
  unfold delimitedAt at h
  split at h
  next text' =>
    split at h
    next hclosing =>
      obtain ⟨rfl, rfl⟩ : _ = matched ∧ text'.takeWhile (· != '\x7d') = expr := by simpa using h
      obtain ⟨rest, hrest⟩ := takeWhile_closing hclosing
      refine ⟨rfl, notMem_takeWhile _ _, rest, ?_⟩
      rw [delimited, List.append_assoc, List.append_assoc]
      exact congrArg (fun t => '$' :: '\x7b' :: t) hrest
    next => cases h
  next => cases h

/-- Behind an opening without a closing brace nothing is delimited. -/
theorem delimitedAt_open {text : List Char} (h : '\x7d' ∉ text) :
    delimitedAt ('$' :: '\x7b' :: text) = none := if_neg h

/-- Where no `${` begins there is no match. -/
theorem delimitedAt_noOpen {text : List Char} (h : ¬ "$\x7b".toList <+: text) :
    delimitedAt text = none := by
  cases hsome : delimitedAt text with
  | none => rfl
  | some out =>
    obtain ⟨_, _, rest, rfl⟩ := delimitedAt_some hsome
    exact absurd ⟨out.2 ++ "\x7d".toList ++ rest, by simp [delimited]⟩ h

/-- The delimited expressions, as a pattern of the template library. -/
def delimitedPattern : Pattern Char (List Char) where
  matchAt := delimitedAt
  ne_nil := by
    intro text matched expr h
    obtain ⟨rfl, _⟩ := delimitedAt_some h
    simp [delimited]
  isPrefix := by
    intro text matched expr h
    obtain ⟨rfl, _, rest, rfl⟩ := delimitedAt_some h
    exact List.prefix_append _ _

/-- A text cut at its delimited expressions. -/
def pieces (text : List Char) : List (Segment Char (List Char)) :=
  segments delimitedPattern text

/-- The delimited expressions from left to right. -/
def expressions (text : List Char) : List (List Char) := (Template.hits (pieces text)).map Prod.snd

/-- A delimited expression at the front is the first piece. -/
theorem pieces_delimited {expr : List Char} (h : '\x7d' ∉ expr) (rest : List Char) :
    pieces (delimited expr ++ rest) = .hit (delimited expr) expr :: pieces rest :=
  Template.segments_append delimitedPattern (delimitedAt_delimited h rest)

/-- A character at which nothing is matched is a piece of its own. -/
theorem pieces_lit {c : Char} {text : List Char} (h : delimitedAt (c :: text) = none) :
    pieces (c :: text) = .lit c :: pieces text := Template.segments_lit delimitedPattern h

/-- A `${` that is never closed is two characters. -/
theorem pieces_open {text : List Char} (h : '\x7d' ∉ text) :
    pieces ("$\x7b".toList ++ text) = "$\x7b".toList.map .lit ++ pieces text := by
  have hbrace : delimitedAt ('\x7b' :: text) = none :=
    delimitedAt_noOpen fun hopen => absurd hopen (by simp)
  show pieces ('$' :: '\x7b' :: text) = .lit '$' :: .lit '\x7b' :: pieces text
  rw [pieces_lit (delimitedAt_open h), pieces_lit hbrace]

/-- In front of the first opening everything stands for itself. -/
theorem pieces_find {text before found : List Char}
    (h : Nom.find "$\x7b".toList text = some (before, found)) :
    pieces text = before.map .lit ++ pieces found := by
  induction text generalizing before with
  | nil => cases h
  | cons c text ih =>
    rw [Nom.find] at h
    split at h
    next =>
      obtain ⟨rfl, rfl⟩ : [] = before ∧ c :: text = found := by simpa using h
      rfl
    next hopen =>
      split at h
      next before' found' hfind =>
        obtain ⟨rfl, rfl⟩ : c :: before' = before ∧ found' = found := by simpa using h
        rw [pieces_lit (delimitedAt_noOpen hopen), ih hfind]
        rfl
      next => cases h

/-- A text without `${` has only characters for pieces. -/
theorem pieces_find_none {text : List Char} (h : Nom.find "$\x7b".toList text = none) :
    pieces text = text.map .lit := by
  induction text with
  | nil => rfl
  | cons c text ih =>
    rw [Nom.find] at h
    split at h
    next => cases h
    next hopen =>
      split at h
      next => cases h
      next hfind =>
        rw [pieces_lit (delimitedAt_noOpen hopen), ih hfind]
        rfl

/-! ## An opening that nothing closes -/

/-- A text that closes nothing makes no match. -/
theorem delimitedAt_append_none {text tail : List Char} (h : delimitedAt text = none)
    (htail : '\x7d' ∉ tail) : delimitedAt (text ++ tail) = none := by
  cases hsome : delimitedAt (text ++ tail) with
  | none => rfl
  | some out =>
    obtain ⟨_, hclosing, rest, heq⟩ := delimitedAt_some hsome
    -- the closing brace is in the text, and with it the whole match
    rcases List.append_eq_append_iff.mp heq with ⟨l, hmatch, hrest⟩ | ⟨l, htext, _⟩
    · cases hlast : l.getLast? with
      | none =>
        obtain rfl := List.getLast?_eq_none_iff.mp hlast
        rw [List.append_nil] at hmatch
        rw [← hmatch, ← List.append_nil (delimited out.2), delimitedAt_delimited hclosing] at h
        cases h
      | some c =>
        have hend := congrArg List.getLast? hmatch
        rw [List.getLast?_append, hlast, delimited, List.getLast?_append] at hend
        obtain rfl : '\x7d' = c := by simpa using hend
        exact absurd (hrest ▸ List.mem_append_left _ (List.mem_of_getLast? hlast)) htail
    · rw [htext, delimitedAt_delimited hclosing] at h
      cases h

/-- A text that closes nothing comes behind the other pieces, one character at a time. -/
theorem pieces_append_open (text : List Char) {tail : List Char} (htail : '\x7d' ∉ tail) :
    pieces (text ++ tail) = pieces text ++ tail.map .lit := by
  induction text using Template.segments_induction delimitedPattern with
  | nil =>
    rw [List.nil_append]
    induction tail with
    | nil => rfl
    | cons c tail ih =>
      have hnone : delimitedAt ([] ++ c :: tail) = none := delimitedAt_append_none rfl htail
      rw [pieces_lit hnone, ih fun hmem => htail (List.mem_cons_of_mem c hmem)]
      rfl
  | lit c text hmatch ih =>
    have hnone : delimitedAt (c :: (text ++ tail)) = none := delimitedAt_append_none hmatch htail
    rw [List.cons_append, pieces_lit hnone, ih, pieces_lit hmatch]
    rfl
  | hit matched expr rest hmatch _ ih =>
    obtain ⟨rfl, hclosing, _⟩ := delimitedAt_some hmatch
    rw [List.append_assoc, pieces_delimited hclosing, ih, pieces_delimited hclosing]
    rfl

end GraphHarness.Resolver
