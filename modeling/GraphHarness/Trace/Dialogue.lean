import Mathlib.Data.List.Basic

/-!
# Dialogues

A procedure that asks one question after the other, each by the answers so far. The world
that answers has a state; a function that answers is a world without one.

`asks_imp` and `exec_invariant` are the two rules: what every question that a dialogue can
ask has, every question has that it does ask, and what every such question preserves, the
dialogue preserves.

A dialogue is a tree: a question, and for each answer how it goes on. `exec` holds it with a
world, `eval` with a function, `steps` has the questions with the states they were asked in,
and `Asks` says of all questions there can be that they have a property. `bind` and `map`
commute with all of these, so a dialogue is reasoned about along its definition.
-/

namespace GraphHarness.Trace

/-- A party that asks questions, one after the other, and goes on by the answers. -/
inductive Dialogue (κ α ρ : Type) where
  | ended (value : ρ)
  | ask (question : κ) (next : α → Dialogue κ α ρ)

namespace Dialogue

variable {κ α ρ ρ' σ : Type}

/-- One dialogue behind the other. -/
def bind (f : ρ → Dialogue κ α ρ') : Dialogue κ α ρ → Dialogue κ α ρ'
  | ended value => f value
  | ask question next => ask question fun answer => (next answer).bind f

/-- The value of a dialogue is mapped. -/
def map (f : ρ → ρ') : Dialogue κ α ρ → Dialogue κ α ρ' := bind fun value => ended (f value)

/-- The world after the dialogue, and its result. -/
def exec (world : σ → κ → σ × α) : σ → Dialogue κ α ρ → σ × ρ
  | s, ended value => (s, value)
  | s, ask question next => exec world (world s question).1 (next (world s question).2)

/-- The questions, each with the state of the world it is asked in. -/
def steps (world : σ → κ → σ × α) : σ → Dialogue κ α ρ → List (σ × κ)
  | _, ended _ => []
  | s, ask question next =>
    (s, question) :: steps world (world s question).1 (next (world s question).2)

/-- The result with a function that answers. -/
def eval (answer : κ → α) : Dialogue κ α ρ → ρ
  | ended value => value
  | ask question next => eval answer (next (answer question))

/-- The questions that a function is asked. -/
def asked (answer : κ → α) : Dialogue κ α ρ → List κ
  | ended _ => []
  | ask question next => question :: asked answer (next (answer question))

/-- Every question the dialogue can ask is such a one. -/
def Asks (P : κ → Prop) : Dialogue κ α ρ → Prop
  | ended _ => True
  | ask question next => P question ∧ ∀ answer, Asks P (next answer)

theorem eval_bind (answer : κ → α) (f : ρ → Dialogue κ α ρ') (dialogue : Dialogue κ α ρ) :
    (dialogue.bind f).eval answer = (f (dialogue.eval answer)).eval answer := by
  induction dialogue with
  | ended value => rfl
  | ask question next ih => exact ih (answer question)

theorem asked_bind (answer : κ → α) (f : ρ → Dialogue κ α ρ') (dialogue : Dialogue κ α ρ) :
    (dialogue.bind f).asked answer =
      dialogue.asked answer ++ (f (dialogue.eval answer)).asked answer := by
  induction dialogue with
  | ended value => rfl
  | ask question next ih => exact congrArg _ (ih (answer question))

theorem eval_map (answer : κ → α) (f : ρ → ρ') (dialogue : Dialogue κ α ρ) :
    (dialogue.map f).eval answer = f (dialogue.eval answer) := eval_bind answer _ dialogue

theorem asked_map (answer : κ → α) (f : ρ → ρ') (dialogue : Dialogue κ α ρ) :
    (dialogue.map f).asked answer = dialogue.asked answer := by
  rw [map, asked_bind]
  exact List.append_nil _

theorem exec_bind (world : σ → κ → σ × α) (f : ρ → Dialogue κ α ρ') (s : σ)
    (dialogue : Dialogue κ α ρ) : (dialogue.bind f).exec world s =
      (f (dialogue.exec world s).2).exec world (dialogue.exec world s).1 := by
  induction dialogue generalizing s with
  | ended value => rfl
  | ask question next ih => exact ih _ _

theorem exec_map (world : σ → κ → σ × α) (f : ρ → ρ') (s : σ) (dialogue : Dialogue κ α ρ) :
    (dialogue.map f).exec world s = ((dialogue.exec world s).1, f (dialogue.exec world s).2) :=
  exec_bind world _ s dialogue

theorem steps_bind (world : σ → κ → σ × α) (f : ρ → Dialogue κ α ρ') (s : σ)
    (dialogue : Dialogue κ α ρ) : (dialogue.bind f).steps world s =
      dialogue.steps world s ++
        (f (dialogue.exec world s).2).steps world (dialogue.exec world s).1 := by
  induction dialogue generalizing s with
  | ended value => rfl
  | ask question next ih => exact congrArg _ (ih _ _)

theorem steps_map (world : σ → κ → σ × α) (f : ρ → ρ') (s : σ) (dialogue : Dialogue κ α ρ) :
    (dialogue.map f).steps world s = dialogue.steps world s := by
  rw [map, steps_bind]
  exact List.append_nil _

theorem Asks.imp {P P' : κ → Prop} (himp : ∀ question, P question → P' question)
    {dialogue : Dialogue κ α ρ} (h : dialogue.Asks P) : dialogue.Asks P' := by
  induction dialogue with
  | ended value => trivial
  | ask question next ih => exact ⟨himp question h.1, fun answer => ih answer (h.2 answer)⟩

theorem asks_bind {P : κ → Prop} {f : ρ → Dialogue κ α ρ'} {dialogue : Dialogue κ α ρ}
    (h : dialogue.Asks P) (hf : ∀ value, (f value).Asks P) : (dialogue.bind f).Asks P := by
  induction dialogue with
  | ended value => exact hf value
  | ask question next ih => exact ⟨h.1, fun answer => ih answer (h.2 answer)⟩

theorem asks_map {P : κ → Prop} (f : ρ → ρ') {dialogue : Dialogue κ α ρ} (h : dialogue.Asks P) :
    (dialogue.map f).Asks P := asks_bind h fun _ => trivial

/-- A question that can fail. -/
theorem asks_ask {ε β : Type} {P : κ → Prop} {question : κ}
    {next : Except ε β → Dialogue κ (Except ε β) ρ} (h : P question)
    (herror : ∀ e, (next (.error e)).Asks P) (hok : ∀ result, (next (.ok result)).Asks P) :
    (ask question next).Asks P := by
  refine ⟨h, ?_⟩
  intro answer
  cases answer with
  | error e => exact herror e
  | ok result => exact hok result

theorem asks_ite {P : κ → Prop} {c : Prop} [Decidable c] {yes no : Dialogue κ α ρ}
    (hyes : yes.Asks P) (hno : no.Asks P) : (if c then yes else no).Asks P := by
  split
  next => exact hyes
  next => exact hno

theorem asks_imp {P : κ → Prop} {answer : κ → α} {dialogue : Dialogue κ α ρ}
    (h : dialogue.Asks P) : ∀ question ∈ dialogue.asked answer, P question := by
  induction dialogue with
  | ended value =>
    intro question hquestion
    cases hquestion
  | ask first next ih =>
    intro question hquestion
    rcases List.mem_cons.mp hquestion with rfl | hlater
    · exact h.1
    · exact ih (answer first) (h.2 _) question hlater

theorem steps_imp {P : κ → Prop} {world : σ → κ → σ × α} {dialogue : Dialogue κ α ρ}
    (h : dialogue.Asks P) : ∀ {s : σ}, ∀ step ∈ dialogue.steps world s, P step.2 := by
  induction dialogue with
  | ended value =>
    intro s step hstep
    cases hstep
  | ask first next ih =>
    intro s step hstep
    rcases List.mem_cons.mp hstep with rfl | hlater
    · exact h.1
    · exact ih _ (h.2 _) step hlater

/-- Two functions that answer every question alike that can be asked. -/
theorem eval_congr {P : κ → Prop} {answer answer' : κ → α}
    (hsame : ∀ question, P question → answer question = answer' question)
    {dialogue : Dialogue κ α ρ} (h : dialogue.Asks P) :
    dialogue.eval answer = dialogue.eval answer' := by
  induction dialogue with
  | ended value => rfl
  | ask question next ih =>
    rw [eval, eval, hsame question h.1]
    exact ih _ (h.2 _)

/-- What every question that can be asked preserves holds after the dialogue. -/
theorem exec_invariant {world : σ → κ → σ × α} {P : κ → Prop} (Inv : σ → Prop)
    (hstep : ∀ s question, P question → Inv s → Inv (world s question).1)
    {dialogue : Dialogue κ α ρ} (h : dialogue.Asks P) :
    ∀ {s : σ}, Inv s → Inv (exec world s dialogue).1 := by
  induction dialogue with
  | ended value => exact fun hs => hs
  | ask question next ih =>
    intro s hs
    exact ih _ (h.2 _) (hstep s question h.1 hs)

end Dialogue

end GraphHarness.Trace
