import GraphHarness.Parse.Template

/-!
# Regular expressions of characters and groups

As much of the `regex` crate as patterns such as `\$\{([^}]+)\}` need: characters, and
groups of one or more characters of a class. A group is greedy and gives characters back
as long as the rest of the pattern does not match. The matches in a text are leftmost and
do not overlap (`Template.segments`).

Backtracking is a search for the longest repetition after which the rest matches
(`longest_some`). A pattern is a list of items and begins with one, so the empty match does
not occur. Anchors, alternatives and lazy repetitions are not needed by the patterns and are
left out.
-/

namespace GraphHarness.Regex

/-- A part of a pattern. -/
inductive Item where
  | char (c : Char)
  /-- `([…]+)` -/
  | group (cls : Char → Bool)

/-- The groups and the text behind the match. -/
abbrev Result := Option (List (List Char) × List Char)

/-- A group of at most `n` characters, the longest that the rest can go on from. -/
def longest (next : List Char → Result) : Nat → List Char → Result
  | 0, _ => none
  | n + 1, text =>
    match next (text.drop (n + 1)) with
    | some (groups, rest) => some (text.take (n + 1) :: groups, rest)
    | none => longest next n text

/-- What the parts match at the beginning of a text. -/
def matchItems : List Item → List Char → Result
  | [], text => some ([], text)
  | .char _ :: _, [] => none
  | .char c :: items, d :: text => if d = c then matchItems items text else none
  | .group cls :: items, text => longest (matchItems items) (text.takeWhile cls).length text

/-! ## Groups -/

/-- The longest repetition after which the rest matches. -/
theorem longest_some {next : List Char → Result} {groups : List (List Char)} {rest : List Char} :
    ∀ {n : Nat} {text : List Char}, longest next n text = some (groups, rest) →
      ∃ k groups', 0 < k ∧ k ≤ n ∧ groups = text.take k :: groups' ∧
        next (text.drop k) = some (groups', rest) := by
  intro n
  induction n with
  | zero =>
    intro text h
    cases h
  | succ n ih =>
    intro text h
    rw [longest] at h
    split at h
    next groups' rest' hnext =>
      obtain ⟨rfl, rfl⟩ : text.take (n + 1) :: groups' = groups ∧ rest' = rest := by
        simpa using h
      exact ⟨n + 1, groups', Nat.succ_pos n, Nat.le_refl _, rfl, hnext⟩
    next =>
      obtain ⟨k, groups', hpos, hle, hgroups, hnext⟩ := ih h
      exact ⟨k, groups', hpos, by omega, hgroups, hnext⟩

/-- If the rest can go on from one length only, that is the group's. -/
theorem longest_only {next : List Char → Result} {text : List Char} {k : Nat}
    {groups : List (List Char)} {rest : List Char} (hpos : 0 < k)
    (hnext : next (text.drop k) = some (groups, rest)) :
    ∀ {n : Nat}, k ≤ n → (∀ j, 0 < j → j ≤ n → next (text.drop j) ≠ none → j = k) →
      longest next n text = some (text.take k :: groups, rest) := by
  intro n
  induction n with
  | zero =>
    intro hle _
    omega
  | succ n ih =>
    intro hle honly
    rw [longest]
    by_cases hlast : n + 1 = k
    · rw [hlast, hnext]
    · have hnone : next (text.drop (n + 1)) = none := by
        by_contra hsome
        exact hlast (honly _ (Nat.succ_pos n) (Nat.le_refl _) hsome)
      rw [hnone]
      exact ih (by omega) fun j hj hle => honly j hj (by omega)

/-! ## Characters -/

/-- Literal characters match themselves. -/
theorem matchItems_chars : ∀ (cs : List Char) (items : List Item) (text : List Char),
    matchItems (cs.map .char ++ items) text =
      if cs <+: text then matchItems items (text.drop cs.length) else none := by
  intro cs
  induction cs with
  | nil =>
    intro items text
    rw [if_pos List.nil_prefix]
    rfl
  | cons c cs ih =>
    intro items text
    cases text with
    | nil => rw [if_neg (by simp)]; rfl
    | cons d text =>
      rw [List.map_cons, List.cons_append, matchItems]
      by_cases hd : d = c
      · rw [if_pos hd, ih, hd]
        simp
      · rw [if_neg hd, if_neg (by simp [Ne.symm hd])]

/-- Characters at the end of a pattern. -/
theorem matchItems_end {cs text rest : List Char} {groups : List (List Char)} :
    matchItems (cs.map .char ++ []) text = some (groups, rest) ↔
      groups = [] ∧ text = cs ++ rest := by
  rw [matchItems_chars]
  by_cases hprefix : cs <+: text
  · obtain ⟨rest', rfl⟩ := hprefix
    rw [if_pos (List.prefix_append _ _), List.drop_left, matchItems]
    simp [eq_comm]
  · rw [if_neg hprefix]
    refine iff_of_false (by simp) ?_
    rintro ⟨_, rfl⟩
    exact hprefix (List.prefix_append _ _)

/-- A match takes at least as many characters as the pattern has parts. -/
theorem matchItems_some : ∀ {items : List Item} {text : List Char} {groups : List (List Char)}
    {rest : List Char}, matchItems items text = some (groups, rest) →
      ∃ matched, text = matched ++ rest ∧ items.length ≤ matched.length := by
  intro items
  induction items with
  | nil =>
    intro text groups rest h
    obtain ⟨_, rfl⟩ : [] = groups ∧ text = rest := by simpa [matchItems] using h
    exact ⟨[], rfl, Nat.le_refl _⟩
  | cons item items ih =>
    intro text groups rest h
    cases item with
    | char c =>
      cases text with
      | nil => cases h
      | cons d text =>
        rw [matchItems] at h
        split at h
        next =>
          obtain ⟨matched, rfl, hlength⟩ := ih h
          exact ⟨d :: matched, rfl, Nat.succ_le_succ hlength⟩
        next => cases h
    | group cls =>
      obtain ⟨k, groups', hpos, hle, rfl, hnext⟩ := longest_some h
      obtain ⟨matched, htext, hlength⟩ := ih hnext
      refine ⟨text.take k ++ matched, ?_, ?_⟩
      · rw [List.append_assoc, ← htext, List.take_append_drop]
      · have htake := (List.takeWhile_sublist (l := text) cls).length_le
        rw [List.length_append, List.length_take, List.length_cons]
        omega

/-- The pattern: the whole match with its groups. -/
def pattern (first : Item) (items : List Item) : Template.Pattern Char (List (List Char)) where
  matchAt text :=
    match matchItems (first :: items) text with
    | some (groups, rest) => some (text.take (text.length - rest.length), groups)
    | none => none
  ne_nil := by
    intro text matched groups h
    split at h
    next groups' rest hitems =>
      obtain ⟨rfl, _⟩ : _ = matched ∧ groups' = groups := by simpa using h
      obtain ⟨matched, rfl, hlength⟩ := matchItems_some hitems
      rw [List.length_append, Nat.add_sub_cancel, List.take_left]
      rintro rfl
      simp at hlength
    next => cases h
  isPrefix := by
    intro text matched groups h
    split at h
    next groups' rest hitems =>
      obtain ⟨rfl, _⟩ : _ = matched ∧ groups' = groups := by simpa using h
      exact List.take_prefix _ _
    next => cases h

/-- What is matched and what its groups are. -/
theorem matchAt_iff {first : Item} {items : List Item} {text matched : List Char}
    {groups : List (List Char)} :
    (pattern first items).matchAt text = some (matched, groups) ↔
      ∃ rest, text = matched ++ rest ∧ matchItems (first :: items) text = some (groups, rest) := by
  unfold pattern
  dsimp only
  constructor
  · intro h
    split at h
    next groups' rest hitems =>
      obtain ⟨rfl, rfl⟩ : _ = matched ∧ groups' = groups := by simpa using h
      obtain ⟨matched, rfl, _⟩ := matchItems_some hitems
      refine ⟨rest, ?_, hitems⟩
      rw [List.length_append, Nat.add_sub_cancel, List.take_left]
    next => cases h
  · rintro ⟨rest, rfl, hitems⟩
    rw [hitems]
    dsimp only
    rw [List.length_append, Nat.add_sub_cancel, List.take_left]

end GraphHarness.Regex
