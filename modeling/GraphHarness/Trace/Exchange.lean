import GraphHarness.Trace.Dialogue
import GraphHarness.Trace.Parties
import GraphHarness.Trace.Steps

/-!
# Exchanges

A dialogue that is held with a server over a connection of two streams. A question is a text,
and the server answers each text with one, in order. The streams keep the order too, and
what is on the way may be lost: a send that fails after all, or a read that does, is the end
of reading, and the server may hang up.

> `sound_run`: whatever the two streams do, the dialogue goes as with the server itself, where
> a question or its answer is lost at times (`Held`).

The server is one for itself here: it handles a whole question in one step, and nobody else
asks it anything. `Workshop` is about servers that others talk to meanwhile; the client's side
of a connection is the one of this module there too.

What a text is stays open, so a text that cannot be read is an answer like others (`complain`).
The proof is an invariant of one connection, `Sound`, with a constructor for each place where
the one question can be; on a connection that is broken there may be more of them, and
`served` is what they still do to the server.

Loss is what a client can see: a send that fails, with the text gone out or not, and a read
that fails. The states of the proof are those of one question: not asked, on its way to the
server, answered and on the way back, or lost.
-/

namespace GraphHarness.Trace

variable {σ η κ α ε Text ρ : Type}

/-- How the two sides write and read, and what the server answers a text it cannot read. -/
structure Wire (κ α ε Text : Type) where
  complain : ε → α
  writeQuestion : κ → Text
  readQuestion : Text → Except ε κ
  writeAnswer : α → Text
  readAnswer : Text → Except ε α
  read_question : ∀ question, readQuestion (writeQuestion question) = .ok question
  read_answer : ∀ answer, readAnswer (writeAnswer answer) = .ok answer

/-- A server that handles one question at a time, on such a wire. What it meets while it
does is `η`, and it may have no answer. -/
structure Exchange (σ η κ α ε Text : Type) extends Wire κ α ε Text where
  handle : η → σ → κ → σ × Option α

/-- A dialogue, between two questions or waiting for an answer. -/
inductive Asker (κ α ρ : Type) where
  | ready (dialogue : Dialogue κ α ρ)
  | waiting (next : α → Dialogue κ α ρ)

/-- What can still be asked has a property. -/
def Asker.Asks (P : κ → Prop) : Asker κ α ρ → Prop
  | .ready dialogue => dialogue.Asks P
  | .waiting next => ∀ answer, (next answer).Asks P

/-- A connection with the texts on their way. Nothing is read from one that is broken. -/
structure Connection (κ α ε Text ρ : Type) where
  asker : Asker κ (Except ε α) ρ
  questions : List Text
  answers : List Text
  serving : Bool
  broken : Bool

/-- What happens on a connection. A send that is refused sends nothing; one that fails may
have sent its text, and breaks the connection, as a read that fails does. -/
inductive ExchangeEvent (η ε : Type) where
  | ask
  | refuse (e : ε)
  | failSend (e : ε) (sent : Bool)
  | serve (outside : η) (sent : Bool)
  | hangUp
  | receive
  | failRead (e : ε)

namespace Connection

/-- Nothing has been sent yet. -/
def start (dialogue : Dialogue κ (Except ε α) ρ) : Connection κ α ε Text ρ :=
  ⟨.ready dialogue, [], [], true, false⟩

/-- What the server does with a text. -/
def handleText (exchange : Exchange σ η κ α ε Text) (outside : η) (s : σ) (text : Text) :
    σ × Option α :=
  match exchange.readQuestion text with
  | .ok question => exchange.handle outside s question
  | .error e => (s, some (exchange.complain e))

/-- One event of the connection. -/
def step (exchange : Exchange σ η κ α ε Text) (s : σ) (c : Connection κ α ε Text ρ) :
    ExchangeEvent η ε → Option (σ × Connection κ α ε Text ρ)
  | .ask =>
    match c.asker with
    | .ready (.ask question next) =>
      some (s, { c with
        asker := .waiting next
        questions := c.questions ++ [exchange.writeQuestion question] })
    | _ => none
  | .refuse e =>
    match c.asker with
    | .ready (.ask _ next) => some (s, { c with asker := .ready (next (.error e)) })
    | _ => none
  | .failSend e sent =>
    match c.asker with
    | .ready (.ask question next) =>
      let questions := if sent then c.questions ++ [exchange.writeQuestion question]
        else c.questions
      some (s, { c with asker := .ready (next (.error e)), questions := questions, broken := true })
    | _ => none
  | .serve outside sent =>
    match c.serving, c.questions with
    | true, text :: questions =>
      match handleText exchange outside s text, sent with
      | (s, some answer), true =>
        some (s, { c with
          questions := questions
          answers := c.answers ++ [exchange.writeAnswer answer] })
      | (s, _), _ => some (s, { c with questions := questions, serving := false })
    | _, _ => none
  | .hangUp => some (s, { c with serving := false })
  | .receive =>
    match c.asker, c.broken, c.answers with
    | .waiting next, false, text :: answers =>
      some (s, { c with asker := .ready (next (exchange.readAnswer text)), answers := answers })
    | _, _, _ => none
  | .failRead e =>
    match c.asker with
    | .waiting next => some (s, { c with asker := .ready (next (.error e)), broken := true })
    | _ => none

/-- The server and the connection together. -/
def advance (exchange : Exchange σ η κ α ε Text) (t : σ × Connection κ α ε Text ρ)
    (event : ExchangeEvent η ε) : Option (σ × Connection κ α ε Text ρ) :=
  step exchange t.1 t.2 event

/-- The server takes the first text, and its answer is sent, or it stops there. -/
theorem serve_cases {exchange : Exchange σ η κ α ε Text} {s s' : σ}
    {c c' : Connection κ α ε Text ρ} {outside : η} {sent : Bool}
    (h : step exchange s c (.serve outside sent) = some (s', c')) :
    ∃ text questions, c.serving = true ∧ c.questions = text :: questions ∧
      s' = (handleText exchange outside s text).1 ∧
      ((∃ answer, (handleText exchange outside s text).2 = some answer ∧
          c' = { c with
            questions := questions
            answers := c.answers ++ [exchange.writeAnswer answer] }) ∨
        c' = { c with questions := questions, serving := false }) := by
  unfold step at h
  dsimp only at h
  split at h
  next text questions hserving hquestions =>
    refine ⟨text, questions, hserving, hquestions, ?_⟩
    split at h
    next s' answer hhandled =>
      obtain ⟨rfl, rfl⟩ := Prod.mk.inj (Option.some.inj h)
      rw [hhandled]
      exact ⟨rfl, .inl ⟨answer, rfl, rfl⟩⟩
    next s' answer hhandled _ =>
      obtain ⟨rfl, rfl⟩ := Prod.mk.inj (Option.some.inj h)
      rw [hhandled]
      exact ⟨rfl, .inr rfl⟩
  next => cases h

end Connection

/-! ## The dialogue with the server itself -/

/-- A dialogue that is held with the server, as far as it has come. Of a question that is
not answered the server may have heard or not. -/
inductive Held (handle : η → σ → κ → σ × Option α) (s : σ) (dialogue : Dialogue κ (Except ε α) ρ) :
    σ → Dialogue κ (Except ε α) ρ → Prop where
  | start : Held handle s dialogue s dialogue
  | unheard {s' : σ} {question : κ} {next : Except ε α → Dialogue κ (Except ε α) ρ} (e : ε)
      (h : Held handle s dialogue s' (.ask question next)) :
      Held handle s dialogue s' (next (.error e))
  | heard {s' : σ} {question : κ} {next : Except ε α → Dialogue κ (Except ε α) ρ} (e : ε)
      (outside : η) (h : Held handle s dialogue s' (.ask question next)) :
      Held handle s dialogue (handle outside s' question).1 (next (.error e))
  | answered {s' : σ} {question : κ} {next : Except ε α → Dialogue κ (Except ε α) ρ} {answer : α}
      (outside : η) (h : Held handle s dialogue s' (.ask question next))
      (hanswer : (handle outside s' question).2 = some answer) :
      Held handle s dialogue (handle outside s' question).1 (next (.ok answer))

/-- The server after the first of some questions, one for each of what it meets. -/
def served (handle : η → σ → κ → σ × Option α) : List η → σ → List κ → σ
  | outside :: outsides, s, question :: questions =>
    served handle outsides (handle outside s question).1 questions
  | _, s, _ => s

section Served

variable (handle : η → σ → κ → σ × Option α)

theorem served_nil (s : σ) (questions : List κ) : served handle [] s questions = s := by
  unfold served
  rfl

theorem served_nothing (outsides : List η) (s : σ) : served handle outsides s [] = s := by
  cases outsides with
  | nil => rfl
  | cons outside outsides => rfl

/-- One question more is served last, or not yet. -/
theorem served_concat (question : κ) : ∀ (outsides : List η) (s : σ) (questions : List κ),
    served handle outsides s (questions ++ [question]) = served handle outsides s questions ∨
      ∃ outside, served handle outsides s (questions ++ [question]) =
        (handle outside (served handle outsides s questions) question).1 := by
  intro outsides
  induction outsides with
  | nil =>
    intro s questions
    rw [served_nil, served_nil]
    exact .inl rfl
  | cons outside outsides ih =>
    intro s questions
    cases questions with
    | nil =>
      refine .inr ⟨outside, ?_⟩
      rw [List.nil_append, served, served_nothing, served_nothing]
    | cons first questions => exact ih _ questions

end Served

/-! ## One connection -/

section Sound

variable (exchange : Exchange σ η κ α ε Text) (s₀ : σ) (dialogue₀ : Dialogue κ (Except ε α) ρ)

/-- Where a connection can be. As long as it is not broken there is one text on the way at
most; of a broken one the server may still hear what was sent on it. -/
inductive Sound : σ → Connection κ α ε Text ρ → Prop where
  | ready {s : σ} {dialogue : Dialogue κ (Except ε α) ρ} {serving : Bool}
      (h : Held exchange.handle s₀ dialogue₀ s dialogue) :
      Sound s ⟨.ready dialogue, [], [], serving, false⟩
  | asked {s : σ} {question : κ} {next : Except ε α → Dialogue κ (Except ε α) ρ} {serving : Bool}
      (h : Held exchange.handle s₀ dialogue₀ s (.ask question next)) :
      Sound s ⟨.waiting next, [exchange.writeQuestion question], [], serving, false⟩
  | answered {s : σ} {answer : α} {next : Except ε α → Dialogue κ (Except ε α) ρ} {serving : Bool}
      (h : Held exchange.handle s₀ dialogue₀ s (next (.ok answer)))
      (hlost : ∀ e, Held exchange.handle s₀ dialogue₀ s (next (.error e))) :
      Sound s ⟨.waiting next, [], [exchange.writeAnswer answer], serving, false⟩
  | unanswered {s : σ} {next : Except ε α → Dialogue κ (Except ε α) ρ}
      (hlost : ∀ e, Held exchange.handle s₀ dialogue₀ s (next (.error e))) :
      Sound s ⟨.waiting next, [], [], false, false⟩
  | broken {s : σ} {dialogue : Dialogue κ (Except ε α) ρ} (questions : List κ)
      {answers : List Text} {serving : Bool}
      (h : ∀ outsides, Held exchange.handle s₀ dialogue₀
        (served exchange.handle outsides s questions) dialogue) :
      Sound s ⟨.ready dialogue, questions.map exchange.writeQuestion, answers, serving, true⟩
  | brokenWaiting {s : σ} {next : Except ε α → Dialogue κ (Except ε α) ρ} (questions : List κ)
      {answers : List Text} {serving : Bool}
      (h : ∀ e outsides, Held exchange.handle s₀ dialogue₀
        (served exchange.handle outsides s questions) (next (.error e))) :
      Sound s ⟨.waiting next, questions.map exchange.writeQuestion, answers, serving, true⟩

variable {exchange s₀ dialogue₀} {s : σ} {c : Connection κ α ε Text ρ}

theorem sound_start : Sound exchange s₀ dialogue₀ s₀ (.start dialogue₀) := .ready .start

/-- A question that is lost, or is still heard. -/
theorem held_lost {question : κ} {next : Except ε α → Dialogue κ (Except ε α) ρ}
    (h : Held exchange.handle s₀ dialogue₀ s (.ask question next)) (e : ε) (outsides : List η) :
    Held exchange.handle s₀ dialogue₀ (served exchange.handle outsides s [question])
      (next (.error e)) := by
  cases outsides with
  | nil => exact .unheard e h
  | cons outside outsides =>
    rw [served, served_nothing]
    exact .heard e outside h

/-- A question on a broken connection comes after those that are on their way. -/
theorem held_late {question : κ} {questions : List κ}
    {next : Except ε α → Dialogue κ (Except ε α) ρ}
    (h : ∀ outsides, Held exchange.handle s₀ dialogue₀
      (served exchange.handle outsides s questions) (.ask question next)) (e : ε)
    (outsides : List η) : Held exchange.handle s₀ dialogue₀
      (served exchange.handle outsides s (questions ++ [question])) (next (.error e)) := by
  rcases served_concat exchange.handle question outsides s questions with
    hsame | ⟨outside, hheard⟩
  · rw [hsame]
    exact .unheard e (h outsides)
  · rw [hheard]
    exact .heard e outside (h outsides)

theorem writes_concat (questions : List κ) (question : κ) :
    questions.map exchange.writeQuestion ++ [exchange.writeQuestion question] =
      (questions ++ [question]).map exchange.writeQuestion := by
  rw [List.map_append]
  rfl

theorem handleText_write (outside : η) (question : κ) :
    Connection.handleText exchange outside s (exchange.writeQuestion question) =
      exchange.handle outside s question := by
  unfold Connection.handleText
  rw [exchange.read_question]

open Connection (step)

variable {t : σ × Connection κ α ε Text ρ}

theorem sound_ask (hs : Sound exchange s₀ dialogue₀ s c)
    (h : step exchange s c .ask = some t) : Sound exchange s₀ dialogue₀ t.1 t.2 := by
  cases hs with
  | @ready dialogue serving hheld =>
    cases dialogue with
    | ended value => cases h
    | ask question next =>
      obtain rfl := Option.some.inj h
      exact .asked hheld
  | @broken dialogue questions answers serving hheld =>
    cases dialogue with
    | ended value => cases h
    | ask question next =>
      obtain rfl := Option.some.inj h
      dsimp only
      rw [writes_concat]
      exact .brokenWaiting _ (held_late hheld)
  | asked | answered | unanswered | brokenWaiting => cases h

theorem sound_refuse {e : ε} (hs : Sound exchange s₀ dialogue₀ s c)
    (h : step exchange s c (.refuse e) = some t) : Sound exchange s₀ dialogue₀ t.1 t.2 := by
  cases hs with
  | @ready dialogue serving hheld =>
    cases dialogue with
    | ended value => cases h
    | ask question next =>
      obtain rfl := Option.some.inj h
      exact .ready (.unheard e hheld)
  | @broken dialogue questions answers serving hheld =>
    cases dialogue with
    | ended value => cases h
    | ask question next =>
      obtain rfl := Option.some.inj h
      exact .broken _ fun outsides => .unheard e (hheld outsides)
  | asked | answered | unanswered | brokenWaiting => cases h

theorem sound_failSend {e : ε} {sent : Bool} (hs : Sound exchange s₀ dialogue₀ s c)
    (h : step exchange s c (.failSend e sent) = some t) : Sound exchange s₀ dialogue₀ t.1 t.2 := by
  cases hs with
  | @ready dialogue serving hheld =>
    cases dialogue with
    | ended value => cases h
    | ask question next =>
      obtain rfl := Option.some.inj h
      cases sent with
      | true => exact .broken [question] (held_lost hheld e)
      | false =>
        refine .broken [] fun outsides => ?_
        rw [served_nothing]
        exact .unheard e hheld
  | @broken dialogue questions answers serving hheld =>
    cases dialogue with
    | ended value => cases h
    | ask question next =>
      obtain rfl := Option.some.inj h
      cases sent with
      | true =>
        dsimp only
        rw [if_pos rfl, writes_concat]
        exact .broken _ (held_late hheld e)
      | false => exact .broken _ fun outsides => .unheard e (hheld outsides)
  | asked | answered | unanswered | brokenWaiting => cases h

theorem sound_serve {outside : η} {sent : Bool} (hs : Sound exchange s₀ dialogue₀ s c)
    (h : step exchange s c (.serve outside sent) = some t) :
    Sound exchange s₀ dialogue₀ t.1 t.2 := by
  obtain ⟨s', c'⟩ := t
  obtain ⟨text, rest, hserving, hquestions, rfl, hcases⟩ := Connection.serve_cases h
  cases hs with
  | @asked question next serving hheld =>
    obtain ⟨rfl, rfl⟩ := List.cons.inj hquestions
    rw [handleText_write] at hcases ⊢
    have hlost : ∀ e, Held exchange.handle s₀ dialogue₀ (exchange.handle outside s question).1
        (next (.error e)) := fun e => .heard e outside hheld
    rcases hcases with ⟨answer, hanswer, rfl⟩ | rfl
    · exact .answered (.answered outside hheld hanswer) hlost
    · exact .unanswered hlost
  | ready | answered | unanswered => cases hquestions
  | @broken dialogue questions answers serving hheld =>
    cases questions with
    | nil => cases hquestions
    | cons question questions =>
      obtain ⟨rfl, rfl⟩ := List.cons.inj hquestions
      rw [handleText_write] at hcases ⊢
      have hlater : ∀ outsides, Held exchange.handle s₀ dialogue₀
          (served exchange.handle outsides (exchange.handle outside s question).1 questions)
          dialogue := fun outsides => hheld (outside :: outsides)
      rcases hcases with ⟨answer, _, rfl⟩ | rfl
      · exact .broken _ hlater
      · exact .broken _ hlater
  | @brokenWaiting next questions answers serving hheld =>
    cases questions with
    | nil => cases hquestions
    | cons question questions =>
      obtain ⟨rfl, rfl⟩ := List.cons.inj hquestions
      rw [handleText_write] at hcases ⊢
      have hlater : ∀ e outsides, Held exchange.handle s₀ dialogue₀
          (served exchange.handle outsides (exchange.handle outside s question).1 questions)
          (next (.error e)) := fun e outsides => hheld e (outside :: outsides)
      rcases hcases with ⟨answer, _, rfl⟩ | rfl
      · exact .brokenWaiting _ hlater
      · exact .brokenWaiting _ hlater

theorem sound_hangUp (hs : Sound exchange s₀ dialogue₀ s c)
    (h : step exchange s c .hangUp = some t) : Sound exchange s₀ dialogue₀ t.1 t.2 := by
  obtain rfl := Option.some.inj h
  cases hs with
  | ready hheld => exact .ready hheld
  | asked hheld => exact .asked hheld
  | answered hheld hlost => exact .answered hheld hlost
  | unanswered hlost => exact .unanswered hlost
  | broken questions hheld => exact .broken questions hheld
  | brokenWaiting questions hheld => exact .brokenWaiting questions hheld

theorem sound_receive (hs : Sound exchange s₀ dialogue₀ s c)
    (h : step exchange s c .receive = some t) : Sound exchange s₀ dialogue₀ t.1 t.2 := by
  cases hs with
  | @answered answer next serving hheld hlost =>
    obtain rfl := Option.some.inj h
    rw [exchange.read_answer]
    exact .ready hheld
  | ready | asked | unanswered | broken | brokenWaiting => cases h

theorem sound_failRead {e : ε} (hs : Sound exchange s₀ dialogue₀ s c)
    (h : step exchange s c (.failRead e) = some t) : Sound exchange s₀ dialogue₀ t.1 t.2 := by
  cases hs with
  | ready | broken => cases h
  | @asked question next serving hheld =>
    obtain rfl := Option.some.inj h
    exact .broken [question] (held_lost hheld e)
  | answered hheld hlost =>
    obtain rfl := Option.some.inj h
    refine .broken [] fun outsides => ?_
    rw [served_nothing]
    exact hlost e
  | unanswered hlost =>
    obtain rfl := Option.some.inj h
    refine .broken [] fun outsides => ?_
    rw [served_nothing]
    exact hlost e
  | brokenWaiting questions hheld =>
    obtain rfl := Option.some.inj h
    exact .broken questions (hheld e)

theorem sound_step {event : ExchangeEvent η ε} (hs : Sound exchange s₀ dialogue₀ s c)
    (h : step exchange s c event = some t) : Sound exchange s₀ dialogue₀ t.1 t.2 := by
  cases event with
  | ask => exact sound_ask hs h
  | refuse e => exact sound_refuse hs h
  | failSend e sent => exact sound_failSend hs h
  | serve outside sent => exact sound_serve hs h
  | hangUp => exact sound_hangUp hs h
  | receive => exact sound_receive hs h
  | failRead e => exact sound_failRead hs h

theorem sound_run {events : List (ExchangeEvent η ε)}
    (hrun : run (Connection.advance exchange) (s₀, .start dialogue₀) events = some t) :
    Sound exchange s₀ dialogue₀ t.1 t.2 :=
  run_preserves (fun _ _ _ hs h => sound_step hs h) sound_start hrun

/-- A dialogue has come to where it is by being held with the server. -/
theorem Sound.held (hs : Sound exchange s₀ dialogue₀ s c) {dialogue : Dialogue κ (Except ε α) ρ}
    (hready : c.asker = .ready dialogue) : Held exchange.handle s₀ dialogue₀ s dialogue := by
  cases hs with
  | ready hheld =>
    obtain rfl := Asker.ready.inj hready
    exact hheld
  | broken questions hheld =>
    obtain rfl := Asker.ready.inj hready
    have hnow := hheld []
    rwa [served_nil] at hnow
  | asked | answered | unanswered | brokenWaiting => cases hready

/-- One text is on the way while a dialogue waits, as long as the connection holds. -/
theorem Sound.in_flight (hs : Sound exchange s₀ dialogue₀ s c)
    {next : Except ε α → Dialogue κ (Except ε α) ρ} (hwaiting : c.asker = .waiting next)
    (hserving : c.serving = true) (hbroken : c.broken = false) :
    c.questions.length + c.answers.length = 1 := by
  cases hs with
  | asked | answered => rfl
  | unanswered => cases hserving
  | brokenWaiting => cases hbroken
  | ready | broken => cases hwaiting

end Sound

end GraphHarness.Trace
