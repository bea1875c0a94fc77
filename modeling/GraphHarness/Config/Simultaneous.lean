import GraphHarness.Config.Substitution

/-!
# Substituting all at once

Each match is replaced wherever it occurs in the text so far. That is a substitution of
all matches at once only while no match occurs where it is not one.

> `simultaneous_of_undisturbed` — for both substitutions, whatever the order of the
> matches: exactly the matches so far are replaced at every moment **if and only if each is
> found in its place alone**, and then the result is the text with every match replaced.

`InStep` is the moment by moment statement: after the first matches have been replaced, in
the order in which they were found, exactly these are replaced in the text. `Undisturbed`
says the same of the text alone: the text of a match occurs nowhere else, also not across
the end of a value that was put in before. The link between the two is in `Parse.Replace`,
for texts that cannot overlap themselves, as a text from `${` to its brace cannot.

The source collects the captures before it replaces any, so the matches are those of the
original text throughout. `nested_not_simultaneous` is a value that holds a variable.
-/

namespace GraphHarness.Parser

open Template (Pattern Segment segments hits replaceEach partially substitute FoundInPlace
  Unbordered)
open Resolver (delimited)

section Order

variable (re : Pattern Char (List (List Char))) (f : List Char → List (List Char) → List Char)
  (input : List Char)

/-- Whatever the order, when a match is replaced it is found in its place and nowhere else
in the text so far (or it is replaced by itself). -/
def Undisturbed : Prop :=
  ∀ order, order.Perm (captures re input) → ∀ earlier cap later, order = earlier ++ cap :: later →
    FoundInPlace f earlier cap (segments re input) ∨ f cap.1 cap.2 = cap.1

/-- Whatever the order, the text so far is the input with the matches so far replaced. -/
def InStep : Prop :=
  ∀ order, order.Perm (captures re input) → ∀ earlier later, order = earlier ++ later →
    replaceEach f earlier input = partially f earlier (segments re input)

/-- The input with every match replaced by its own value. -/
def atOnce : List Char := substitute f (segments re input)

variable {re f input}

/-- Replacing one match after the other keeps in step just when no replacement disturbs a later
match. -/
theorem inStep_iff_undisturbed
    (hcaptures : ∀ cap ∈ captures re input, cap.1 ≠ [] ∧ Unbordered cap.1) :
    InStep re f input ↔ Undisturbed re f input := by
  have hinput : partially f [] (segments re input) = input := by
    rw [Template.partially_nil, Template.substitute_segments]
  have hiff : ∀ order, order.Perm (captures re input) →
      ((∀ earlier later, order = earlier ++ later →
        replaceEach f earlier input = partially f earlier (segments re input)) ↔
      ∀ earlier cap later, order = earlier ++ cap :: later →
        FoundInPlace f earlier cap (segments re input) ∨ f cap.1 cap.2 = cap.1) := by
    intro order horder
    have hsteps := Template.replaceEach_iff (f := f) (segments re input) fun cap hcap =>
      hcaptures cap (horder.mem_iff.mp hcap)
    rwa [hinput] at hsteps
  constructor
  · intro h order horder
    exact (hiff order horder).mp (h order horder)
  · intro h order horder
    exact (hiff order horder).mpr (h order horder)

/-- In whatever order, all matches are replaced in the end. -/
theorem InStep.atOnce (h : InStep re f input) {order : List Capture}
    (horder : order.Perm (captures re input)) : replaceEach f order input = atOnce re f input := by
  rw [h order horder order [] (List.append_nil order).symm]
  exact Template.partially_all fun cap hcap => horder.mem_iff.mpr hcap

end Order

/-! ## The two patterns -/

/-- A reference without a closing brace inside has no border. -/
theorem delimited_unbordered {expr : List Char} (h : '\x7d' ∉ expr) :
    delimited expr ≠ [] ∧ Unbordered (delimited expr) := by
  refine ⟨by simp [delimited], Template.unbordered_of_last ?_⟩
  rw [List.mem_append, not_or]
  exact ⟨by decide, h⟩

/-- The matches of the first pattern are references. -/
theorem captures_envVarRegex {input : List Char} {cap : Capture}
    (h : cap ∈ captures envVarRegex input) :
    ∃ expr, expr ≠ [] ∧ '\x7d' ∉ expr ∧ cap = (delimited expr, [expr]) := by
  obtain ⟨text, hmatch⟩ := Template.matchAt_of_mem_hits h
  obtain ⟨matched, groups⟩ := cap
  obtain ⟨expr, _, hne, hclosing, rfl, rfl, _⟩ := envVarRegex_iff.mp hmatch
  exact ⟨expr, hne, hclosing, rfl⟩

/-- The matches of the second pattern are references to an address. -/
theorem captures_serviceRegex {input : List Char} {cap : Capture}
    (h : cap ∈ captures serviceRegex input) :
    ∃ service, service ≠ [] ∧ '\x7d' ∉ service ∧
      cap = (delimited (service ++ ".ip".toList), [service]) := by
  obtain ⟨text, hmatch⟩ := Template.matchAt_of_mem_hits h
  obtain ⟨matched, groups⟩ := cap
  obtain ⟨service, _, hne, hclosing, rfl, rfl, _⟩ := serviceRegex_iff.mp hmatch
  exact ⟨service, hne, hclosing, rfl⟩

/-- The condition for variables. -/
theorem inStep_envVarRegex_iff {f : List Char → List (List Char) → List Char} {input : List Char} :
    InStep envVarRegex f input ↔ Undisturbed envVarRegex f input := by
  refine inStep_iff_undisturbed ?_
  intro cap hcap
  obtain ⟨expr, _, hclosing, rfl⟩ := captures_envVarRegex hcap
  exact delimited_unbordered hclosing

/-- The condition for services. -/
theorem inStep_serviceRegex_iff {f : List Char → List (List Char) → List Char} {input : List Char} :
    InStep serviceRegex f input ↔ Undisturbed serviceRegex f input := by
  refine inStep_iff_undisturbed ?_
  intro cap hcap
  obtain ⟨service, _, hclosing, rfl⟩ := captures_serviceRegex hcap
  refine delimited_unbordered ?_
  rw [List.mem_append, not_or]
  exact ⟨hclosing, by decide⟩

/-- The result is the input with every match replaced by its own value, and it would be
the same with the matches in any other order. -/
def Simultaneous (re : Pattern Char (List (List Char)))
    (f : List Char → List (List Char) → List Char) (input s : String) : Prop :=
  s.toList = atOnce re f input.toList ∧
    ∀ order, order.Perm (captures re input.toList) →
      replaceEach f order input.toList = s.toList

/-- In step, the outcome is the one of replacing all matches at once. -/
theorem InStep.simultaneous {re : Pattern Char (List (List Char))}
    {f : List Char → List (List Char) → List Char} {input s : String}
    (h : InStep re f input.toList)
    (hs : s.toList = replaceEach f (captures re input.toList) input.toList) :
    Simultaneous re f input s := by
  have hresult : s.toList = Parser.atOnce re f input.toList :=
    hs.trans (h.atOnce (List.Perm.refl _))
  refine ⟨hresult, ?_⟩
  intro order horder
  rw [hresult, h.atOnce horder]

/-- Both substitutions replace exactly the matches so far at every moment, in whatever
order, if and only if each match is found in its place alone; and then their result is the
text with every match replaced by its own value. -/
theorem simultaneous_of_undisturbed (processEnv serviceIps : HashMap String String)
    (input s : String) :
    (substituteEnvVars processEnv input = .ok s →
      (InStep envVarRegex (envVarReplacement processEnv) input.toList ↔
        Undisturbed envVarRegex (envVarReplacement processEnv) input.toList) ∧
      (Undisturbed envVarRegex (envVarReplacement processEnv) input.toList →
        Simultaneous envVarRegex (envVarReplacement processEnv) input s)) ∧
    (substituteServiceRefs input serviceIps = .ok s →
      (InStep serviceRegex (serviceReplacement serviceIps) input.toList ↔
        Undisturbed serviceRegex (serviceReplacement serviceIps) input.toList) ∧
      (Undisturbed serviceRegex (serviceReplacement serviceIps) input.toList →
        Simultaneous serviceRegex (serviceReplacement serviceIps) input s)) := by
  refine ⟨?_, ?_⟩
  · intro h
    refine ⟨inStep_envVarRegex_iff, fun hundisturbed => ?_⟩
    exact (inStep_envVarRegex_iff.mpr hundisturbed).simultaneous (substituteEnvVars_iff.mp h).2
  · intro h
    refine ⟨inStep_serviceRegex_iff, fun hundisturbed => ?_⟩
    exact (inStep_serviceRegex_iff.mpr hundisturbed).simultaneous
      (substituteServiceRefs_iff.mp h).2

/-- `HOME=/root` -/
def homeEnv : HashMap String String := AList.insert "HOME" "/root" ∅

/-- The variable of a path. -/
theorem home_simultaneous : Simultaneous envVarRegex (envVarReplacement homeEnv)
    "cd $\x7bHOME\x7d" "cd /root" := by
  refine ((simultaneous_of_undisturbed homeEnv ∅ "cd $\x7bHOME\x7d" "cd /root").1 rfl).2 ?_
  intro order horder earlier cap later hsplit
  rw [show captures envVarRegex "cd $\x7bHOME\x7d".toList =
    [(delimited "HOME".toList, ["HOME".toList])] from rfl, List.perm_singleton] at horder
  rw [horder] at hsplit
  cases earlier with
  | nil =>
    obtain ⟨rfl, _⟩ := List.cons.inj hsplit
    exact .inl fun _ => rfl
  | cons first earlier => simp at hsplit

/-- `A=${B}` and `B=x` -/
def nestedEnv : HashMap String String := AList.insert "A" "$\x7bB\x7d" (AList.insert "B" "x" ∅)

/-- The value of the first variable is substituted in its turn. -/
theorem nested_not_simultaneous :
    ¬ ((∀ (processEnv : HashMap String String) (input s : String),
        substituteEnvVars processEnv input = .ok s →
        Simultaneous envVarRegex (envVarReplacement processEnv) input s) ∧
      ∀ (serviceIps : HashMap String String) (input s : String),
        substituteServiceRefs input serviceIps = .ok s →
        Simultaneous serviceRegex (serviceReplacement serviceIps) input s) := by
  rintro ⟨h, _⟩
  have hresult := (h nestedEnv "$\x7bA\x7d$\x7bB\x7d" "xx" rfl).1
  exact absurd hresult (by decide)

end GraphHarness.Parser
