import Mathlib.Data.List.Basic

/-!
# Cutting a text at the matches of a pattern

A text is read once from left to right. Where the pattern matches, the match is cut out
and the reading goes on behind it; where it does not, one element is passed over. What is
left is the text in pieces (`segments`), and to replace the matches is to replace pieces
(`substitute`).

A proof about the pieces is an induction on how they were cut (`segments_induction`).

The pattern is a parameter: a function that says what matches at the beginning of a text, with
the value it finds there, and never matches nothing. So regular expressions, delimited
expressions and fixed texts are three patterns of one kind, and what is known of cutting and
replacing is known of all of them.

`segmentsFrom` skips the elements of a match that has been cut out, so the recursion is over
the text itself and everything computes.
-/

namespace GraphHarness.Template

variable {α β γ : Type}

/-- A piece of a text: an element that stands for itself, or a match with its value. -/
inductive Segment (α β : Type) where
  | lit (c : α)
  | hit (text : List α) (value : β)

namespace Segment

/-- The text of a piece. -/
def source : Segment α β → List α
  | lit c => [c]
  | hit text _ => text

/-- The text of a piece with its match replaced. -/
def replaced (f : List α → β → List α) : Segment α β → List α
  | lit c => [c]
  | hit text value => f text value

/-- The match of a piece. -/
def match? : Segment α β → Option (List α × β)
  | lit _ => none
  | hit text value => some (text, value)

end Segment

/-- What a pattern matches at the beginning of a text. It is a part of the text, and not
nothing. -/
structure Pattern (α β : Type) where
  matchAt : List α → Option (List α × β)
  ne_nil : ∀ {text matched value}, matchAt text = some (matched, value) → matched ≠ []
  isPrefix : ∀ {text matched value}, matchAt text = some (matched, value) → matched <+: text

/-- The pieces of a text whose first `skip` elements belong to the match before. -/
def segmentsFrom (p : Pattern α β) : Nat → List α → List (Segment α β)
  | _, [] => []
  | skip + 1, _ :: text => segmentsFrom p skip text
  | 0, c :: text =>
    match p.matchAt (c :: text) with
    | some (matched, value) => .hit matched value :: segmentsFrom p (matched.length - 1) text
    | none => .lit c :: segmentsFrom p 0 text

/-- The pieces of a text. -/
def segments (p : Pattern α β) (text : List α) : List (Segment α β) := segmentsFrom p 0 text

/-- The matches from left to right. -/
def hits (segs : List (Segment α β)) : List (List α × β) := segs.filterMap Segment.match?

/-- The text with every match replaced. -/
def substitute (f : List α → β → List α) (segs : List (Segment α β)) : List α :=
  segs.flatMap (Segment.replaced f)

section Equations

variable (p : Pattern α β)

/-- Skipping characters is dropping them. -/
theorem segmentsFrom_eq_drop : ∀ (skip : Nat) (text : List α),
    segmentsFrom p skip text = segments p (text.drop skip) := by
  intro skip
  induction skip with
  | zero => intro text; rfl
  | succ skip ih =>
    intro text
    cases text with
    | nil => rfl
    | cons c text => exact ih text

@[simp] theorem segments_nil : segments p [] = [] := rfl

/-- A character at which nothing matches is a piece of its own. -/
theorem segments_lit {c : α} {text : List α} (h : p.matchAt (c :: text) = none) :
    segments p (c :: text) = .lit c :: segments p text := by
  rw [segments, segmentsFrom, h]
  rfl

/-- A match is a piece, and the pieces go on behind it. -/
theorem segments_hit {text matched : List α} {value : β}
    (h : p.matchAt text = some (matched, value)) :
    segments p text = .hit matched value :: segments p (text.drop matched.length) := by
  have hne := p.ne_nil h
  have hprefix := p.isPrefix h
  cases text with
  | nil => exact absurd (List.prefix_nil.mp hprefix) hne
  | cons c text =>
    rw [segments, segmentsFrom, h]
    dsimp only
    have hpos : 0 < matched.length := List.length_pos_iff.mpr hne
    rw [segmentsFrom_eq_drop, ← List.drop_succ_cons (a := c),
      Nat.sub_add_cancel (show 1 ≤ matched.length by omega)]

/-- The same, with the match written out. -/
theorem segments_append {matched rest : List α} {value : β}
    (h : p.matchAt (matched ++ rest) = some (matched, value)) :
    segments p (matched ++ rest) = .hit matched value :: segments p rest := by
  rw [segments_hit p h, List.drop_left]

/-- A text has nothing in it, or a match at its beginning, or an element that no match
begins at. -/
theorem segments_induction {P : List α → Prop} (nil : P [])
    (lit : ∀ c text, p.matchAt (c :: text) = none → P text → P (c :: text))
    (hit : ∀ matched value rest, p.matchAt (matched ++ rest) = some (matched, value) →
      matched ≠ [] → P rest → P (matched ++ rest)) : ∀ text, P text := by
  intro text
  induction hlength : text.length using Nat.strongRecOn generalizing text with
  | _ n ih =>
    cases hmatch : p.matchAt text with
    | some out =>
      obtain ⟨matched, value⟩ := out
      obtain ⟨rest, rfl⟩ := p.isPrefix hmatch
      have hpos : 0 < matched.length := List.length_pos_iff.mpr (p.ne_nil hmatch)
      rw [List.length_append] at hlength
      exact hit matched value rest hmatch (p.ne_nil hmatch) (ih rest.length (by omega) rest rfl)
    | none =>
      cases text with
      | nil => exact nil
      | cons c text =>
        rw [List.length_cons] at hlength
        exact lit c text hmatch (ih text.length (by omega) text rfl)

end Equations

section Lists

variable (segs segs' : List (Segment α β)) (f : List α → β → List α)

@[simp] theorem hits_nil : hits ([] : List (Segment α β)) = [] := rfl

@[simp] theorem hits_lit (c : α) : hits (.lit c :: segs) = hits segs := rfl

@[simp] theorem hits_hit (text : List α) (value : β) :
    hits (.hit text value :: segs) = (text, value) :: hits segs := rfl

@[simp] theorem substitute_nil : substitute f [] = [] := rfl

@[simp] theorem substitute_lit (c : α) : substitute f (.lit c :: segs) = c :: substitute f segs :=
  rfl

@[simp] theorem substitute_hit (text : List α) (value : β) :
    substitute f (.hit text value :: segs) = f text value ++ substitute f segs := rfl

/-- The matches of two stretches. -/
theorem hits_append : hits (segs ++ segs') = hits segs ++ hits segs' := List.filterMap_append

@[simp] theorem hits_map_lit (text : List α) : hits (text.map (Segment.lit (β := β))) = [] := by
  induction text with
  | nil => rfl
  | cons c text ih => exact ih

/-- The texts of two stretches. -/
theorem substitute_append :
    substitute f (segs ++ segs') = substitute f segs ++ substitute f segs' :=
  List.flatMap_append

/-- Elements that stand for themselves. -/
@[simp] theorem substitute_map_lit (text : List α) :
    substitute f (text.map (Segment.lit (β := β))) = text := by
  induction text with
  | nil => rfl
  | cons c text ih => rw [List.map_cons, substitute_lit, ih]

end Lists

/-- Every match is one at the beginning of what was left of the text. -/
theorem matchAt_of_mem_hits {p : Pattern α β} {text : List α} {m : List α × β}
    (h : m ∈ hits (segments p text)) : ∃ rest, p.matchAt rest = some m := by
  induction text using segments_induction p with
  | nil => cases h
  | lit c text hmatch ih =>
    rw [segments_lit p hmatch] at h
    exact ih h
  | hit matched value rest hmatch _ ih =>
    rw [segments_append p hmatch, hits_hit, List.mem_cons] at h
    rcases h with rfl | h
    · exact ⟨_, hmatch⟩
    · exact ih h

/-- With the matches left as they are, the pieces are the text. -/
theorem substitute_segments (p : Pattern α β) (text : List α) :
    substitute (fun matched _ => matched) (segments p text) = text := by
  induction text using segments_induction p with
  | nil => rfl
  | lit c text hmatch ih => rw [segments_lit p hmatch, substitute_lit, ih]
  | hit matched value rest hmatch _ ih => rw [segments_append p hmatch, substitute_hit, ih]

end GraphHarness.Template
