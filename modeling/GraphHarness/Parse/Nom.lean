import Mathlib.Data.List.Basic
import Mathlib.Data.List.TakeWhile

/-!
# The parser combinators

What the resolver uses of `nom`'s complete `&str` parsers, over lists of
characters: a parser either fails or returns the rest of the input with a value.
Error kinds are not modelled, nothing looks at them.

For each combinator there is one lemma that says what a success has read.

The first group of lemmas reads a success backwards (`tag_iff`, `pair_iff`), the second says
of a class of texts that a parser takes them (`Takes`). A proof about a grammar uses these
only, and never unfolds a combinator.

Streaming parsers, errors that are no plain failure (`cut`) and combinators with a state are
not here. `many0` stops at the first failure, and fails where an iteration consumes nothing;
its rounds are bounded by the length of the input.
-/

namespace GraphHarness.Nom

variable {α β : Type}

/-- `IResult<&str, α>`, `none` for `Err`. -/
abbrev Parser (α : Type) := List Char → Option (List Char × α)

/-- `tag`. -/
def tag (t : List Char) : Parser (List Char) := fun input =>
  if t <+: input then some (input.drop t.length, t) else none

/-- `take_while1`. -/
def takeWhile1 (p : Char → Bool) : Parser (List Char) := fun input =>
  if input.takeWhile p = [] then none else some (input.dropWhile p, input.takeWhile p)

/-- `str::find`: the text before the first occurrence of `t`, and the rest from
there on. -/
def find (t : List Char) : List Char → Option (List Char × List Char)
  | [] => if t = [] then some ([], []) else none
  | c :: cs =>
    if t <+: c :: cs then some ([], c :: cs)
    else
      match find t cs with
      | some (before, found) => some (c :: before, found)
      | none => none

/-- `take_until`. -/
def takeUntil (t : List Char) : Parser (List Char) := fun input =>
  match find t input with
  | some (before, found) => some (found, before)
  | none => none

/-- `rest`. -/
def rest : Parser (List Char) := fun input => some ([], input)

/-- `verify`. -/
def verify (p : Parser α) (ok : α → Bool) : Parser α := fun input =>
  match p input with
  | some (rest, x) => if ok x then some (rest, x) else none
  | none => none

/-- `map`. -/
def map (p : Parser α) (f : α → β) : Parser β := fun input =>
  match p input with
  | some (rest, x) => some (rest, f x)
  | none => none

/-- `alt`: the first parser that succeeds. -/
def alt : List (Parser α) → Parser α
  | [], _ => none
  | p :: ps, input =>
    match p input with
    | some result => some result
    | none => alt ps input

/-- `pair`. -/
def pair (p : Parser α) (q : Parser β) : Parser (α × β) := fun input =>
  match p input with
  | some (input', x) =>
    match q input' with
    | some (rest, y) => some (rest, (x, y))
    | none => none
  | none => none

/-- `separated_pair`. -/
def separatedPair {σ : Type} (p : Parser α) (sep : Parser σ) (q : Parser β) : Parser (α × β) :=
  map (pair p (pair sep q)) (fun out => (out.1, out.2.2))

/-- `all_consuming`. -/
def allConsuming (p : Parser α) : Parser α := fun input =>
  match p input with
  | some ([], x) => some ([], x)
  | _ => none

/-- The rounds of `many0`; a parser that consumes nothing is an error. -/
def many0Rounds (p : Parser α) : Nat → Parser (List α)
  | 0, input => some (input, [])
  | rounds + 1, input =>
    match p input with
    | none => some (input, [])
    | some (input', x) =>
      if input'.length = input.length then none
      else map (many0Rounds p rounds) (fun xs => x :: xs) input'

/-- `many0`: every round consumes, so there are no more rounds than characters. -/
def many0 (p : Parser α) : Parser (List α) := fun input =>
  many0Rounds p (input.length + 1) input

/-- `recognize`: the consumed text in place of the value. -/
def recognize (p : Parser α) : Parser (List Char) := fun input =>
  match p input with
  | some (rest, _) => some (rest, input.take (input.length - rest.length))
  | none => none

/-! ## What a successful parser has read -/

/-- What is before the find and what follows is the whole. -/
theorem find_append {t : List Char} : ∀ {input before found : List Char},
    find t input = some (before, found) → input = before ++ found ∧ t <+: found := by
  intro input
  induction input with
  | nil =>
    intro before found h
    rw [find] at h
    split at h
    next ht =>
      obtain ⟨rfl, rfl⟩ : [] = before ∧ [] = found := by simpa using h
      exact ⟨rfl, by simp [ht]⟩
    next => simp at h
  | cons c cs ih =>
    intro before found h
    rw [find] at h
    split at h
    next ht =>
      obtain ⟨rfl, rfl⟩ : [] = before ∧ c :: cs = found := by simpa using h
      exact ⟨rfl, ht⟩
    next =>
      split at h
      next before' found' hf =>
        obtain ⟨rfl, rfl⟩ : c :: before' = before ∧ found' = found := by simpa using h
        obtain ⟨hcs, ht⟩ := ih hf
        exact ⟨by rw [hcs]; rfl, ht⟩
      next => simp at h

/-- What is taken is the beginning. -/
theorem takeUntil_eq_some {t input rest before : List Char}
    (h : takeUntil t input = some (rest, before)) : input = before ++ rest := by
  rw [takeUntil] at h
  split at h
  next before' found hf =>
    obtain ⟨rfl, rfl⟩ : found = rest ∧ before' = before := by simpa using h
    exact (find_append hf).1
  next => simp at h

/-- A successful `tag` leaves what follows the tag. -/
theorem tag_eq_some {t input rest x : List Char} (h : tag t input = some (rest, x)) :
    input = t ++ rest ∧ x = t := by
  rw [tag] at h
  split at h
  next ht =>
    obtain ⟨rfl, rfl⟩ : input.drop t.length = rest ∧ t = x := by simpa using h
    exact ⟨(List.prefix_iff_eq_append.mp ht).symm, rfl⟩
  next => simp at h

/-- An alternative has succeeded. -/
theorem alt_eq_some {ps : List (Parser α)} {input rest : List Char} {x : α}
    (h : alt ps input = some (rest, x)) : ∃ p ∈ ps, p input = some (rest, x) := by
  induction ps with
  | nil => simp [alt] at h
  | cons p ps ih =>
    rw [alt] at h
    split at h
    next result hp => exact ⟨p, by simp, hp.trans h⟩
    next =>
      obtain ⟨q, hq, hqe⟩ := ih h
      exact ⟨q, by simp [hq], hqe⟩

/-- The parser underneath has succeeded. -/
theorem map_eq_some {p : Parser α} {f : α → β} {input rest : List Char} {y : β}
    (h : map p f input = some (rest, y)) : ∃ x, p input = some (rest, x) ∧ f x = y := by
  rw [map] at h
  split at h
  next rest' x hp =>
    obtain ⟨rfl, rfl⟩ : rest' = rest ∧ f x = y := by simpa using h
    exact ⟨x, hp, rfl⟩
  next => simp at h

/-- Both parsers have succeeded, one after the other. -/
theorem pair_eq_some {p : Parser α} {q : Parser β} {input rest : List Char} {x : α} {y : β}
    (h : pair p q input = some (rest, (x, y))) :
    ∃ input', p input = some (input', x) ∧ q input' = some (rest, y) := by
  rw [pair] at h
  split at h
  next input' x' hp =>
    split at h
    next rest' y' hq =>
      obtain ⟨rfl, rfl, rfl⟩ : rest' = rest ∧ x' = x ∧ y' = y := by simpa using h
      exact ⟨input', hp, hq⟩
    next => simp at h
  next => simp at h

/-- Everything was consumed. -/
theorem allConsuming_eq_some {p : Parser α} {input rest : List Char} {x : α}
    (h : allConsuming p input = some (rest, x)) : p input = some (rest, x) ∧ rest = [] := by
  rw [allConsuming] at h
  split at h
  next x' hp =>
    obtain ⟨rfl, rfl⟩ : [] = rest ∧ x' = x := by simpa using h
    exact ⟨hp, rfl⟩
  next => simp at h

/-! ## What a parser accepts -/

/-- The tag at the beginning is read. -/
theorem tag_append (t rest : List Char) : tag t (t ++ rest) = some (rest, t) := by
  rw [tag, if_pos (List.prefix_append t rest), List.drop_left]

/-- When a tag is read. -/
theorem tag_iff {t input rest x : List Char} :
    tag t input = some (rest, x) ↔ input = t ++ rest ∧ x = t := by
  constructor
  · exact tag_eq_some
  · rintro ⟨rfl, rfl⟩
    exact tag_append x rest

/-- What does not begin with the tag is not read. -/
theorem tag_none {t input : List Char} (h : ¬ t <+: input) : tag t input = none := if_neg h

/-- The first occurrence of a text whose first character is not in front of it. -/
theorem find_cons {c : Char} (t : List Char) {before : List Char} (h : c ∉ before)
    (rest : List Char) : find (c :: t) (before ++ (c :: t ++ rest)) =
      some (before, c :: t ++ rest) := by
  induction before with
  | nil =>
    have hprefix : c :: t <+: c :: (t ++ rest) := List.prefix_append (c :: t) rest
    show find (c :: t) (c :: (t ++ rest)) = some ([], c :: (t ++ rest))
    rw [find, if_pos hprefix]
  | cons b before ih =>
    rw [List.mem_cons, not_or] at h
    rw [List.cons_append, find, if_neg (by simp [h.1]), ih h.2]

/-- Without the first character there is no find. -/
theorem find_cons_none {c : Char} (t : List Char) {input : List Char} (h : c ∉ input) :
    find (c :: t) input = none := by
  induction input with
  | nil => rfl
  | cons b input ih =>
    rw [List.mem_cons, not_or] at h
    rw [find, if_neg (by simp [h.1]), ih h.2]

/-- Taking until a character that comes first here. -/
theorem takeUntil_singleton {c : Char} {before rest : List Char} (h : c ∉ before) :
    takeUntil [c] (before ++ c :: rest) = some (c :: rest, before) := by
  rw [takeUntil, show before ++ c :: rest = before ++ ([c] ++ rest) from rfl, find_cons [] h]
  rfl

/-- There is nothing to take until a character that does not occur. -/
theorem takeUntil_singleton_none {c : Char} {input : List Char} (h : c ∉ input) :
    takeUntil [c] input = none := by
  rw [takeUntil, find_cons_none [] h]

/-- What `takeWhile` and `dropWhile` cut a text into. -/
theorem cut_iff {p : Char → Bool} {input rest x : List Char} :
    x = input.takeWhile p ∧ rest = input.dropWhile p ↔
      input = x ++ rest ∧ (∀ c ∈ x, p c = true) ∧ rest.head?.any p = false := by
  constructor
  · rintro ⟨rfl, rfl⟩
    refine ⟨List.takeWhile_append_dropWhile.symm, fun c hc => List.mem_takeWhile_imp hc, ?_⟩
    have hstop := List.head?_dropWhile_not p input
    cases hhead : (input.dropWhile p).head? with
    | none => rfl
    | some c =>
      rw [hhead] at hstop
      exact hstop
  · rintro ⟨rfl, hall, hstop⟩
    rw [List.takeWhile_append_of_pos hall, List.dropWhile_append_of_pos hall]
    cases rest with
    | nil => simp
    | cons c rest =>
      have hc : p c = false := by simpa using hstop
      simp [hc]

/-- A text is cut where the predicate first fails. -/
theorem cut (p : Char → Bool) (input : List Char) :
    input = input.takeWhile p ++ input.dropWhile p ∧ (∀ c ∈ input.takeWhile p, p c = true) ∧
      (input.dropWhile p).head?.any p = false :=
  cut_iff.mp ⟨rfl, rfl⟩

/-- When a stretch is read, and which. -/
theorem takeWhile1_iff {p : Char → Bool} {input rest x : List Char} :
    takeWhile1 p input = some (rest, x) ↔
      x ≠ [] ∧ input = x ++ rest ∧ (∀ c ∈ x, p c = true) ∧ rest.head?.any p = false := by
  rw [takeWhile1, ← cut_iff]
  split
  next hempty =>
    constructor
    · intro h
      cases h
    · rintro ⟨hx, rfl, _⟩
      exact absurd hempty hx
  next hfound =>
    constructor
    · intro h
      obtain ⟨rfl, rfl⟩ : input.dropWhile p = rest ∧ input.takeWhile p = x := by simpa using h
      exact ⟨hfound, rfl, rfl⟩
    · rintro ⟨_, rfl, rfl⟩
      rfl

/-- When a value is accepted. -/
theorem verify_iff {p : Parser α} {ok : α → Bool} {input rest : List Char} {x : α} :
    verify p ok input = some (rest, x) ↔ p input = some (rest, x) ∧ ok x = true := by
  rw [verify]
  split
  next rest' x' hp =>
    rw [hp]
    by_cases hok : ok x' = true
    · rw [if_pos hok]
      constructor
      · intro h
        obtain ⟨rfl, rfl⟩ : rest' = rest ∧ x' = x := by simpa using h
        exact ⟨rfl, hok⟩
      · exact fun h => h.1
    · rw [if_neg hok]
      constructor
      · intro h
        cases h
      · rintro ⟨h, hx⟩
        obtain ⟨rfl, rfl⟩ : rest' = rest ∧ x' = x := by simpa using h
        exact absurd hx hok
  next hp => simp [hp]

/-- When a mapped value is read. -/
theorem map_iff {p : Parser α} {f : α → β} {input rest : List Char} {y : β} :
    map p f input = some (rest, y) ↔ ∃ x, p input = some (rest, x) ∧ f x = y := by
  constructor
  · exact map_eq_some
  · rintro ⟨x, hp, rfl⟩
    rw [map, hp]

/-- When a pair is read. -/
theorem pair_iff {p : Parser α} {q : Parser β} {input rest : List Char} {x : α} {y : β} :
    pair p q input = some (rest, (x, y)) ↔
      ∃ input', p input = some (input', x) ∧ q input' = some (rest, y) := by
  constructor
  · exact pair_eq_some
  · rintro ⟨input', hp, hq⟩
    rw [pair, hp]
    dsimp only
    rw [hq]

/-- When a pair with a separator is read. -/
theorem separatedPair_iff {σ : Type} {p : Parser α} {sep : Parser σ} {q : Parser β}
    {input rest : List Char} {x : α} {y : β} :
    separatedPair p sep q input = some (rest, (x, y)) ↔
      ∃ input₁ s input₂, p input = some (input₁, x) ∧ sep input₁ = some (input₂, s) ∧
        q input₂ = some (rest, y) := by
  rw [separatedPair, map_iff]
  constructor
  · rintro ⟨⟨x', s, y'⟩, hpair, hxy⟩
    obtain ⟨rfl, rfl⟩ : x' = x ∧ y' = y := by simpa using hxy
    obtain ⟨input₁, hp, hrest⟩ := pair_iff.mp hpair
    obtain ⟨input₂, hsep, hq⟩ := pair_iff.mp hrest
    exact ⟨input₁, s, input₂, hp, hsep, hq⟩
  · rintro ⟨input₁, s, input₂, hp, hsep, hq⟩
    exact ⟨(x, s, y), pair_iff.mpr ⟨input₁, hp, pair_iff.mpr ⟨input₂, hsep, hq⟩⟩, rfl⟩

/-- When everything is consumed. -/
theorem allConsuming_iff {p : Parser α} {input rest : List Char} {x : α} :
    allConsuming p input = some (rest, x) ↔ p input = some (rest, x) ∧ rest = [] := by
  constructor
  · exact allConsuming_eq_some
  · rintro ⟨hp, rfl⟩
    rw [allConsuming, hp]

/-- What is recognized is what was consumed. -/
theorem recognize_iff {p : Parser α} {input rest x : List Char} :
    recognize p input = some (rest, x) ↔
      (∃ y, p input = some (rest, y)) ∧ x = input.take (input.length - rest.length) := by
  rw [recognize]
  split
  next rest' y hp =>
    rw [hp]
    constructor
    · intro h
      obtain ⟨rfl, rfl⟩ : rest' = rest ∧ _ = x := by simpa using h
      exact ⟨⟨y, rfl⟩, rfl⟩
    · rintro ⟨⟨y', hy⟩, rfl⟩
      obtain ⟨rfl, _⟩ : rest' = rest ∧ y = y' := by simpa using hy
      rfl
  next hp => simp [hp]

/-- The first alternative that succeeds is taken. -/
theorem alt_first {p : Parser α} {ps : List (Parser α)} {input rest : List Char} {x : α}
    (h : p input = some (rest, x)) : alt (p :: ps) input = some (rest, x) := by
  rw [alt, h]

/-- An alternative that fails is passed over. -/
theorem alt_next {p : Parser α} {ps : List (Parser α)} {input : List Char}
    (h : p input = none) : alt (p :: ps) input = alt ps input := by
  rw [alt, h]

/-- The parser takes characters of the class `r` only, at least one of them if it can. -/
def Takes (p : Parser α) (r : Char → Bool) : Prop :=
  ∀ input, (p input = none ∧ input.takeWhile r = []) ∨
    ∃ taken rest x, taken ≠ [] ∧ input = taken ++ rest ∧ (∀ c ∈ taken, r c = true) ∧
      p input = some (rest, x)

/-- Repeating what takes single characters takes the whole stretch. -/
theorem many0Rounds_takes {p : Parser α} {r : Char → Bool} (h : Takes p r) :
    ∀ (rounds : Nat) (input : List Char), input.length < rounds →
      ∃ xs, many0Rounds p rounds input = some (input.dropWhile r, xs) := by
  intro rounds
  induction rounds with
  | zero =>
    intro input hlt
    omega
  | succ rounds ih =>
    intro input hlt
    rw [many0Rounds]
    rcases h input with ⟨hnone, hstop⟩ | ⟨taken, rest, x, htaken, rfl, hall, hsome⟩
    · rw [hnone]
      refine ⟨[], ?_⟩
      have hall := List.takeWhile_append_dropWhile (p := r) (l := input)
      rw [hstop, List.nil_append] at hall
      rw [hall]
    · rw [hsome]
      have hpos : 0 < taken.length := List.length_pos_iff.mpr htaken
      rw [List.length_append] at hlt ⊢
      dsimp only
      obtain ⟨xs, hxs⟩ := ih rest (by omega)
      rw [if_neg (by omega), List.dropWhile_append_of_pos hall]
      exact ⟨x :: xs, map_iff.mpr ⟨xs, hxs, rfl⟩⟩

/-- A loop of such a parser takes all it can. -/
theorem many0_takes {p : Parser α} {r : Char → Bool} (h : Takes p r) (input : List Char) :
    ∃ xs, many0 p input = some (input.dropWhile r, xs) :=
  many0Rounds_takes h (input.length + 1) input (Nat.lt_succ_self _)

end GraphHarness.Nom
