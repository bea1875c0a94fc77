import GraphHarness.Parse.Template
import Mathlib.Data.List.Induction

/-!
# Replacing one text by another

`replace` is `str::replace`: every occurrence that a scan from left to right finds. Where
a text cannot overlap itself (`Unbordered`), the scan finds more occurrences than any
other choice of them (`count_le`), and two choices that give the same result are the same
(`eq_of_substitute_eq`).

`replaceEach` replaces the matches of a pattern one after the other, each everywhere.

> `step_iff` — a replacement leaves the text with one more match replaced, **exactly if it
> finds the match where it is and nowhere else**.

The theory is over lists of any type, for any pattern with a value at each match. `partially`
is the text with some matches replaced, and `FoundInPlace` the condition of one replacement;
`replaceEach_iff` is then an induction over the matches, in the order in which they were
found.

The marks of a text (`Marks`) are one choice of its occurrences. That two choices with the
same outcome are the same choice is where `Unbordered` is used.
-/

namespace GraphHarness.Template

variable {α β : Type}

/-! ## Choices of occurrences -/

/-- The pieces are the text, and all their matches are occurrences of `t`. -/
def Marks (t : List α) : List α → List (Segment α Unit) → Prop
  | text, [] => text = []
  | text, .lit c :: segs => ∃ rest, text = c :: rest ∧ Marks t rest segs
  | text, .hit matched _ :: segs =>
    matched = t ∧ ∃ rest, text = t ++ rest ∧ Marks t rest segs

/-- No occurrence of the text begins inside another one. -/
def Unbordered (t : List α) : Prop :=
  ∀ k rest, 0 < k → k < t.length → ¬ t <+: t.drop k ++ rest

/-- Literal text may stand before a marked one. -/
theorem marks_map_lit {t text : List α} {segs : List (Segment α Unit)} (h : Marks t text segs) :
    ∀ before : List α, Marks t (before ++ text) (before.map .lit ++ segs) := by
  intro before
  induction before with
  | nil => exact h
  | cons c before ih => exact ⟨before ++ text, rfl, ih⟩

/-- Marks that are replaced by themselves leave the text as it is. -/
theorem substitute_self {t : List α} : ∀ {segs : List (Segment α Unit)} {text : List α},
    Marks t text segs → substitute (fun _ _ => t) segs = text := by
  intro segs
  induction segs with
  | nil =>
    intro text h
    obtain rfl : text = [] := h
    rfl
  | cons seg segs ih =>
    intro text h
    cases seg with
    | lit c =>
      obtain ⟨rest, rfl, hrest⟩ := h
      rw [substitute_lit, ih hrest]
    | hit matched value =>
      obtain ⟨_, rest, rfl, hrest⟩ := h
      rw [substitute_hit, ih hrest]

/-- Every match that is replaced makes the same difference. -/
theorem length_substitute {t v : List α} : ∀ {segs : List (Segment α Unit)} {text : List α},
    Marks t text segs → (substitute (fun _ _ => v) segs).length + (hits segs).length * t.length =
      text.length + (hits segs).length * v.length := by
  intro segs
  induction segs with
  | nil =>
    intro text h
    obtain rfl : text = [] := h
    simp
  | cons seg segs ih =>
    intro text h
    cases seg with
    | lit c =>
      obtain ⟨rest, rfl, hrest⟩ := h
      have hlength := ih hrest
      rw [hits_lit, substitute_lit, List.length_cons, List.length_cons]
      omega
    | hit matched value =>
      obtain ⟨_, rest, rfl, hrest⟩ := h
      have hlength := ih hrest
      rw [hits_hit, substitute_hit, List.length_cons, List.length_append, List.length_append,
        Nat.succ_mul, Nat.succ_mul]
      omega

/-- Pieces that do not begin with the occurrence at hand pass over all of it. -/
theorem marks_skip {t rest : List α} (hborder : Unbordered t) : ∀ {u : List α} {k : Nat}
    {segs : List (Segment α Unit)}, 0 < k → u = t.drop k → Marks t (u ++ rest) segs →
    ∃ segs', segs = u.map .lit ++ segs' ∧ Marks t rest segs' := by
  intro u
  induction u with
  | nil =>
    intro k segs _ _ h
    exact ⟨segs, rfl, h⟩
  | cons c u ih =>
    intro k segs hpos hu h
    have hk : k < t.length := by
      by_contra hge
      rw [List.drop_eq_nil_of_le (by omega)] at hu
      cases hu
    cases segs with
    | nil => cases h
    | cons seg segs =>
      cases seg with
      | lit d =>
        obtain ⟨rest', heq, hrest⟩ := h
        obtain ⟨rfl, rfl⟩ : c = d ∧ u ++ rest = rest' := by simpa using heq
        have hnext : u = t.drop (k + 1) := by
          rw [← List.tail_drop, ← hu, List.tail_cons]
        obtain ⟨segs', rfl, hmarks⟩ := ih (Nat.succ_pos k) hnext hrest
        exact ⟨segs', rfl, hmarks⟩
      | hit matched value =>
        obtain ⟨_, rest', heq, _⟩ := h
        exact absurd ⟨rest', by rw [← hu, heq]⟩ (hborder k rest hpos hk)

/-- At an occurrence of `t`, pieces begin with it or pass over it. -/
theorem marks_append {t rest : List α} {segs : List (Segment α Unit)} (hborder : Unbordered t)
    (ht : t ≠ []) (h : Marks t (t ++ rest) segs) :
    (∃ segs', segs = .hit t () :: segs' ∧ Marks t rest segs') ∨
      ∃ segs', segs = t.map .lit ++ segs' ∧ Marks t rest segs' := by
  cases segs with
  | nil =>
    have hempty : t ++ rest = [] := h
    exact absurd (List.append_eq_nil_iff.mp hempty).1 ht
  | cons seg segs =>
    cases seg with
    | hit matched value =>
      obtain ⟨rfl, rest', heq, hrest⟩ := h
      obtain rfl := List.append_cancel_left heq
      exact .inl ⟨segs, rfl, hrest⟩
    | lit c =>
      cases t with
      | nil => exact absurd rfl ht
      | cons d t =>
        obtain ⟨rest', heq, hrest⟩ := h
        obtain ⟨rfl, rfl⟩ : d = c ∧ t ++ rest = rest' := by simpa using heq
        obtain ⟨segs', rfl, hmarks⟩ := marks_skip hborder Nat.one_pos rfl hrest
        exact .inr ⟨segs', rfl, hmarks⟩

/-- There is nothing to choose in the empty text. -/
theorem marks_nil {t : List α} (ht : t ≠ []) {segs : List (Segment α Unit)} (h : Marks t [] segs) :
    segs = [] := by
  cases segs with
  | nil => rfl
  | cons seg segs =>
    cases seg with
    | lit c =>
      obtain ⟨rest, heq, _⟩ := h
      cases heq
    | hit matched value =>
      obtain ⟨_, rest, heq, _⟩ := h
      exact absurd (List.append_eq_nil_iff.mp heq.symm).1 ht

/-- A text with its last element nowhere else in it. -/
theorem unbordered_of_last {u : List α} {c : α} (h : c ∉ u) : Unbordered (u ++ [c]) := by
  rintro k rest hpos hk ⟨w, heq⟩
  rw [List.length_append, List.length_singleton] at hk
  rw [List.drop_append_of_le_length (by omega)] at heq
  have hat := congrArg (·[u.length - k]?) heq
  have hleft : ((u ++ [c]) ++ w)[u.length - k]? = u[u.length - k]? := by
    rw [List.append_assoc, List.getElem?_append_left (by omega)]
  have hright : (u.drop k ++ [c] ++ rest)[u.length - k]? = some c := by
    rw [List.append_assoc, List.getElem?_append_right (by simp), List.length_drop,
      Nat.sub_self]
    rfl
  rw [hleft, hright] at hat
  exact h (List.mem_of_getElem? hat)

/-! ## Replacing -/

section Replace

variable [DecidableEq α]

/-- The text to be replaced, at the beginning. -/
def factorAt (t text : List α) : Option (List α × Unit) := if t <+: text then some (t, ()) else none

/-- What is matched is that text. -/
theorem factorAt_some {t text matched : List α} {value : Unit}
    (h : factorAt t text = some (matched, value)) : matched = t ∧ t <+: text := by
  unfold factorAt at h
  split at h
  next hprefix =>
    obtain rfl : t = matched := by simpa using h
    exact ⟨rfl, hprefix⟩
  next => cases h

/-- The text itself as a pattern. -/
def factor (t : List α) (ht : t ≠ []) : Pattern α Unit where
  matchAt := factorAt t
  ne_nil := by
    intro text matched value h
    rw [(factorAt_some h).1]
    exact ht
  isPrefix := by
    intro text matched value h
    rw [(factorAt_some h).1]
    exact (factorAt_some h).2

/-- `text.replace(t, v)`. An empty `t` is found before every character and at the end. -/
def replace (t v text : List α) : List α :=
  if ht : t = [] then v ++ text.flatMap (fun c => c :: v)
  else substitute (fun _ _ => v) (segments (factor t ht) text)

/-- The pieces of a text mark that text. -/
theorem marks_segments {t : List α} (ht : t ≠ []) (text : List α) :
    Marks t text (segments (factor t ht) text) := by
  induction text using segments_induction (factor t ht) with
  | nil => rfl
  | lit c text hmatch ih =>
    rw [segments_lit _ hmatch]
    exact ⟨text, rfl, ih⟩
  | hit matched value rest hmatch _ ih =>
    rw [segments_append _ hmatch]
    obtain rfl := (factorAt_some hmatch).1
    exact ⟨rfl, rest, rfl, ih⟩

/-- Where the scan finds nothing, there is nothing to choose. -/
theorem marks_lit {t text : List α} {c : α} (hmatch : factorAt t (c :: text) = none)
    {segs : List (Segment α Unit)} (h : Marks t (c :: text) segs) :
    ∃ segs', segs = .lit c :: segs' ∧ Marks t text segs' := by
  cases segs with
  | nil => cases h
  | cons seg segs =>
    cases seg with
    | lit d =>
      obtain ⟨rest, heq, hrest⟩ := h
      obtain ⟨rfl, rfl⟩ : c = d ∧ text = rest := by simpa using heq
      exact ⟨segs, rfl, hrest⟩
    | hit matched value =>
      obtain ⟨_, rest, heq, _⟩ := h
      have hfound : factorAt t (c :: text) = some (t, ()) := if_pos ⟨rest, heq.symm⟩
      exact absurd (hfound.symm.trans hmatch) (by simp)

/-- The scan finds as many occurrences as can be had. -/
theorem count_le {t : List α} (ht : t ≠ []) (hborder : Unbordered t) (text : List α) :
    ∀ {segs : List (Segment α Unit)}, Marks t text segs →
      (hits segs).length ≤ (hits (segments (factor t ht) text)).length := by
  induction text using segments_induction (factor t ht) with
  | nil =>
    intro segs h
    rw [marks_nil ht h]
    exact Nat.le_refl _
  | lit c text hmatch ih =>
    intro segs h
    obtain ⟨segs', rfl, hmarks⟩ := marks_lit hmatch h
    rw [segments_lit _ hmatch, hits_lit, hits_lit]
    exact ih hmarks
  | hit matched value rest hmatch _ ih =>
    intro segs h
    obtain rfl := (factorAt_some hmatch).1
    rw [segments_append _ hmatch, hits_hit, List.length_cons]
    rcases marks_append hborder ht h with ⟨segs', rfl, hmarks⟩ | ⟨segs', rfl, hmarks⟩
    · exact Nat.succ_le_succ (ih hmarks)
    · rw [hits_append, hits_map_lit, List.nil_append]
      exact Nat.le_succ_of_le (ih hmarks)

/-- What the scan replaces and what a choice replaces come to the same only if they are
the same, or if a replacement changes nothing. -/
theorem eq_of_substitute_eq {t v : List α} (ht : t ≠ []) (hborder : Unbordered t) (hv : v ≠ t)
    (text : List α) : ∀ {segs : List (Segment α Unit)}, Marks t text segs →
      substitute (fun _ _ => v) (segments (factor t ht) text) = substitute (fun _ _ => v) segs →
      segments (factor t ht) text = segs := by
  induction text using segments_induction (factor t ht) with
  | nil =>
    intro segs h _
    rw [marks_nil ht h]
    rfl
  | lit c text hmatch ih =>
    intro segs h hsame
    obtain ⟨segs', rfl, hmarks⟩ := marks_lit hmatch h
    rw [segments_lit _ hmatch] at hsame ⊢
    rw [ih hmarks (List.cons.inj hsame).2]
  | hit matched value rest hmatch _ ih =>
    intro segs h hsame
    obtain rfl := (factorAt_some hmatch).1
    rw [segments_append _ hmatch] at hsame ⊢
    rcases marks_append hborder ht h with ⟨segs', rfl, hmarks⟩ | ⟨segs', rfl, hmarks⟩
    · rw [ih hmarks (List.append_cancel_left hsame)]
    · -- one more replacement, so it has to keep the length, and then the text
      rw [substitute_hit, substitute_append, substitute_map_lit] at hsame
      have hcount := count_le ht hborder rest hmarks
      have hscan := length_substitute (v := v) (marks_segments ht rest)
      have hchoice := length_substitute (v := v) hmarks
      have hlength := congrArg List.length hsame
      rw [List.length_append, List.length_append] at hlength
      have hlen : v.length = matched.length := by
        obtain ⟨d, hd⟩ := Nat.exists_eq_add_of_le hcount
        rw [hd, Nat.add_mul, Nat.add_mul] at hscan
        have hmul : (d + 1) * v.length = (d + 1) * matched.length := by
          rw [Nat.succ_mul, Nat.succ_mul]
          omega
        exact Nat.eq_of_mul_eq_mul_left (Nat.succ_pos d) hmul
      exact absurd (List.append_inj_left hsame hlen) hv

/-- Replacing is substituting the pieces. -/
theorem replace_eq {t v : List α} (ht : t ≠ []) (text : List α) :
    replace t v text = substitute (fun _ _ => v) (segments (factor t ht) text) := dif_neg ht

/-- Replacing a text by itself changes nothing. -/
theorem replace_self (t text : List α) (ht : t ≠ []) : replace t t text = text := by
  rw [replace_eq ht]
  exact substitute_self (marks_segments ht text)

end Replace

/-! ## One match after the other -/

section Each

variable [DecidableEq α] [DecidableEq β] (f : List α → β → List α)

/-- The text with the matches in `done` replaced. -/
def partially (done : List (List α × β)) (segs : List (Segment α β)) : List α :=
  substitute (fun t v => if (t, v) ∈ done then f t v else t) segs

/-- Where the match `m` is in that text. -/
def marked (done : List (List α × β)) (m : List α × β) :
    List (Segment α β) → List (Segment α Unit)
  | [] => []
  | .lit c :: segs => .lit c :: marked done m segs
  | .hit t v :: segs =>
    if (t, v) ∈ done then (f t v).map .lit ++ marked done m segs
    else if (t, v) = m then .hit t () :: marked done m segs
    else t.map .lit ++ marked done m segs

/-- In the text with the matches in `done` replaced, a scan for the match `m` finds it
where it is, and nowhere else. -/
def FoundInPlace (done : List (List α × β)) (m : List α × β) (segs : List (Segment α β)) : Prop :=
  ∀ ht : m.1 ≠ [], segments (factor m.1 ht) (partially f done segs) = marked f done m segs

/-- The matches are replaced in turn, each wherever it is found. -/
def replaceEach : List (List α × β) → List α → List α
  | [], text => text
  | m :: ms, text => replaceEach ms (replace m.1 (f m.1 m.2) text)

variable {f} {done : List (List α × β)} {m : List α × β}

/-- The text with some matches replaced is marked at the next one. -/
theorem marks_marked (segs : List (Segment α β)) :
    Marks m.1 (partially f done segs) (marked f done m segs) := by
  induction segs with
  | nil => rfl
  | cons seg segs ih =>
    cases seg with
    | lit c => exact ⟨_, rfl, ih⟩
    | hit t v =>
      rw [partially, substitute_hit, marked]
      by_cases hdone : (t, v) ∈ done
      · rw [if_pos hdone, if_pos hdone]
        exact marks_map_lit ih (f t v)
      · rw [if_neg hdone, if_neg hdone]
        by_cases hm : (t, v) = m
        · rw [if_pos hm, ← hm]
          exact ⟨rfl, _, rfl, hm ▸ ih⟩
        · rw [if_neg hm]
          exact marks_map_lit ih t

/-- Replacing the next match. -/
theorem substitute_marked (segs : List (Segment α β)) :
    substitute (fun _ _ => f m.1 m.2) (marked f done m segs) = partially f (done ++ [m]) segs := by
  induction segs with
  | nil => rfl
  | cons seg segs ih =>
    cases seg with
    | lit c => exact congrArg (c :: ·) ih
    | hit t v =>
      rw [partially, substitute_hit, marked, ← partially]
      by_cases hdone : (t, v) ∈ done
      · rw [if_pos hdone, if_pos (List.mem_append_left _ hdone), substitute_append,
          substitute_map_lit, ih]
      · rw [if_neg hdone]
        by_cases hm : (t, v) = m
        · rw [if_pos hm, if_pos (by simp [hm]), substitute_hit, ih, ← hm]
        · rw [if_neg hm, if_neg (by simp [hdone, hm]), substitute_append, substitute_map_lit, ih]

/-- One more replacement leaves the text with one more match replaced, if and only if the
match is found in its place, or it is replaced by itself. -/
theorem step_iff (segs : List (Segment α β)) (ht : m.1 ≠ []) (hborder : Unbordered m.1) :
    replace m.1 (f m.1 m.2) (partially f done segs) = partially f (done ++ [m]) segs ↔
      FoundInPlace f done m segs ∨ f m.1 m.2 = m.1 := by
  by_cases hself : f m.1 m.2 = m.1
  · refine iff_of_true ?_ (.inr hself)
    rw [← substitute_marked, hself, replace_self _ _ ht]
    exact (substitute_self (marks_marked segs)).symm
  · rw [replace_eq ht, ← substitute_marked]
    constructor
    · intro hsame
      exact .inl fun _ => eq_of_substitute_eq ht hborder hself _ (marks_marked segs) hsame
    · rintro (hfound | hself')
      · rw [hfound ht]
      · exact absurd hself' hself

omit [DecidableEq β] in
/-- Two lists of matches, one after the other. -/
theorem replaceEach_append (first second : List (List α × β)) (text : List α) :
    replaceEach f (first ++ second) text = replaceEach f second (replaceEach f first text) := by
  induction first generalizing text with
  | nil => rfl
  | cons m first ih => exact ih _

/-- Throughout, exactly the matches so far are replaced, if and only if each is found in
its place when its turn comes, or is replaced by itself. -/
theorem replaceEach_iff (segs : List (Segment α β)) {order : List (List α × β)}
    (horder : ∀ m ∈ order, m.1 ≠ [] ∧ Unbordered m.1) :
    (∀ earlier later, order = earlier ++ later →
      replaceEach f earlier (partially f [] segs) = partially f earlier segs) ↔
    ∀ earlier m later, order = earlier ++ m :: later →
      FoundInPlace f earlier m segs ∨ f m.1 m.2 = m.1 := by
  constructor
  · intro h earlier m later hsplit
    obtain ⟨ht, hborder⟩ := horder m (by simp [hsplit])
    have hnext := h (earlier ++ [m]) later (by rw [hsplit, List.append_assoc]; rfl)
    rw [replaceEach_append, h earlier (m :: later) hsplit] at hnext
    exact (step_iff segs ht hborder).mp hnext
  · intro h earlier
    induction earlier using List.reverseRecOn with
    | nil =>
      intro later _
      rfl
    | append_singleton earlier m ih =>
      intro later hsplit
      rw [List.append_assoc, List.singleton_append] at hsplit
      obtain ⟨ht, hborder⟩ := horder m (by simp [hsplit])
      rw [replaceEach_append, ih (m :: later) hsplit]
      exact (step_iff segs ht hborder).mpr (h earlier m later hsplit)

/-- No match replaced. -/
theorem partially_nil (segs : List (Segment α β)) :
    partially f [] segs = substitute (fun t _ => t) segs := by
  unfold partially
  simp

/-- With all matches replaced it is the substitution. -/
theorem partially_all {segs : List (Segment α β)} (h : ∀ m ∈ hits segs, m ∈ done) :
    partially f done segs = substitute f segs := by
  induction segs with
  | nil => rfl
  | cons seg segs ih =>
    cases seg with
    | lit c => exact congrArg (c :: ·) (ih h)
    | hit t v =>
      rw [hits_hit, List.forall_mem_cons] at h
      rw [partially, substitute_hit, if_pos h.1, ← partially, ih h.2, substitute_hit]

end Each

end GraphHarness.Template
