import Mathlib.Data.List.Basic

/-!
# Events and their past

A safety property of a run says of every event what has to have happened before
it. `EachAfter R past events` states it for the events that follow a given past;
the three laws take it apart along the way the events were produced.

The past is a list that grows at its end, and a property may speak of all of it. A run in
stretches, such as a loop with its rounds, is then a run of `EachAfter` by `eachAfter_append`,
each stretch with the past that the ones before have made.
-/

namespace GraphHarness.Trace

variable {ε : Type}

/-- Every event of `events` is related to everything that happened before it. -/
def EachAfter (R : List ε → ε → Prop) (past events : List ε) : Prop :=
  ∀ before e after, events = before ++ e :: after → R (past ++ before) e

theorem eachAfter_nil (R : List ε → ε → Prop) (past : List ε) : EachAfter R past [] := by
  intro before e after h
  simp at h

theorem eachAfter_cons {R : List ε → ε → Prop} {past events : List ε} {e : ε} :
    EachAfter R past (e :: events) ↔ R past e ∧ EachAfter R (past ++ [e]) events := by
  constructor
  · intro h
    refine ⟨by simpa using h [] e events rfl, ?_⟩
    intro before e' after he
    rw [List.append_assoc]
    exact h (e :: before) e' after (by rw [he]; rfl)
  · intro ⟨hhead, htail⟩ before e' after he
    cases before with
    | nil =>
      obtain ⟨rfl, _⟩ : e = e' ∧ events = after := by simpa using he
      simpa using hhead
    | cons b before =>
      obtain ⟨rfl, hev⟩ : e = b ∧ events = before ++ e' :: after := by simpa using he
      have hlater := htail before e' after hev
      rwa [List.append_assoc] at hlater

theorem eachAfter_append {R : List ε → ε → Prop} : ∀ {past first second : List ε},
    EachAfter R past (first ++ second) ↔
      EachAfter R past first ∧ EachAfter R (past ++ first) second := by
  intro past first
  induction first generalizing past with
  | nil =>
    intro second
    simp [eachAfter_nil]
  | cons e first ih =>
    intro second
    rw [List.cons_append, eachAfter_cons, eachAfter_cons, ih, and_assoc, List.append_assoc]
    rfl

/-- A requirement that no event of the list is subject to holds trivially. -/
theorem eachAfter_of_forall {R : List ε → ε → Prop} {past events : List ε}
    (h : ∀ e ∈ events, ∀ past, R past e) : EachAfter R past events := by
  intro before e after he
  exact h e (by rw [he]; simp) _

end GraphHarness.Trace
