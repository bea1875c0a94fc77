import GraphHarness.Trace.Exchange

/-!
# Workshops

A server that many dialogues are held with at once. It takes up a question in one step and
works on it in others, while it works on the questions of other connections too, so that no
question is handled for itself: between any two steps for it the state can be changed by
another one.

The work on a question is a job. A connection has one job at most: its texts are taken up one
after the other, and the next one only when the answer to the last one has gone out. Jobs have
no connection while they are worked on, and go on when theirs breaks.

> `server_invariant`: what the server keeps when it takes up a question that a dialogue can
> ask, and in each step of its work, it keeps whatever the connections do.

The client's side and the streams are those of `Exchange`. Nothing is said of when a job is
worked on, or that it ever is; a job that comes to no end leaves its connection without
answers.

`Desk` is one connection with what is worked on for it. `Net.step_cases` has an event for each
thing that can happen, at one desk or in the workshop, and `keeps_net` one case for each of
them; the states of the other desks are untouched by an event at one.
-/

namespace GraphHarness.Trace

variable {σ η κ α ε ω J Text ρ : Type}

/-- A server that works on several questions at once. The answer to a question can be given
when its job is done, and may depend on what the server meets then (`η`). -/
structure Workshop (σ η κ α ω J : Type) where
  takeUp : σ → κ → σ × J
  work : σ → ω → Option σ
  outcome : η → σ → J → Option α

/-- A connection with what the server has taken up of it: a job, or a text it cannot read. -/
structure Desk (J κ α ε Text ρ : Type) where
  connection : Connection κ α ε Text ρ
  job : Option (Except ε J)

/-- The two streams and the client alone: nothing is served. -/
def Wire.streams (wire : Wire κ α ε Text) : Exchange Unit Empty κ α ε Text where
  toWire := wire
  handle outside := outside.elim

namespace Desk

/-- What the client does, or the streams do. -/
def move (wire : Wire κ α ε Text) (desk : Desk J κ α ε Text ρ) (event : ExchangeEvent Empty ε) :
    Option (Desk J κ α ε Text ρ) :=
  match desk.connection.step wire.streams () event with
  | some (_, connection) => some { desk with connection := connection }
  | none => none

/-- The server takes up the next text, unless it is not done with the last one. -/
def takeUp (wire : Wire κ α ε Text) (workshop : Workshop σ η κ α ω J) (s : σ)
    (desk : Desk J κ α ε Text ρ) : Option (σ × Desk J κ α ε Text ρ) :=
  match desk.job, desk.connection.serving, desk.connection.questions with
  | none, true, text :: questions =>
    let connection := { desk.connection with questions := questions }
    match wire.readQuestion text with
    | .ok question =>
      let taken := workshop.takeUp s question
      some (taken.1, ⟨connection, some (.ok taken.2)⟩)
    | .error e => some (s, ⟨connection, some (.error e)⟩)
  | _, _, _ => none

/-- What is answered when the job is done. -/
def outcome (wire : Wire κ α ε Text) (workshop : Workshop σ η κ α ω J) (outside : η) (s : σ) :
    Except ε J → Option α
  | .ok job => workshop.outcome outside s job
  | .error e => some (wire.complain e)

/-- The answer is sent, or the connection ends there. -/
def answer (wire : Wire κ α ε Text) (workshop : Workshop σ η κ α ω J) (outside : η) (sent : Bool)
    (s : σ) (desk : Desk J κ α ε Text ρ) : Option (Desk J κ α ε Text ρ) :=
  match desk.job, desk.connection.serving with
  | some job, true =>
    match outcome wire workshop outside s job, sent with
    | some answer, true =>
      some ⟨{ desk.connection with
        answers := desk.connection.answers ++ [wire.writeAnswer answer] }, none⟩
    | some _, false => some ⟨{ desk.connection with serving := false }, none⟩
    | none, _ => none
  | _, _ => none

end Desk

/-- A server with its connections. -/
structure Net (σ J κ α ε Text ρ : Type) where
  server : σ
  desks : List (Desk J κ α ε Text ρ)

/-- What happens: at one desk, or in the workshop behind all of them. -/
inductive NetEvent (η κ α ε ω ρ : Type) where
  | connect (dialogue : Dialogue κ (Except ε α) ρ)
  | move (i : Nat) (event : ExchangeEvent Empty ε)
  | takeUp (i : Nat)
  | work (event : ω)
  | answer (i : Nat) (outside : η) (sent : Bool)

namespace Net

variable (wire : Wire κ α ε Text) (workshop : Workshop σ η κ α ω J)

/-- One event of the net. -/
def step (net : Net σ J κ α ε Text ρ) : NetEvent η κ α ε ω ρ → Option (Net σ J κ α ε Text ρ)
  | .connect dialogue => some { net with desks := net.desks ++ [⟨.start dialogue, none⟩] }
  | .move i event =>
    match net.desks[i]? with
    | some desk =>
      match desk.move wire event with
      | some desk => some { net with desks := net.desks.set i desk }
      | none => none
    | none => none
  | .takeUp i =>
    match net.desks[i]? with
    | some desk =>
      match desk.takeUp wire workshop net.server with
      | some (server, desk) => some ⟨server, net.desks.set i desk⟩
      | none => none
    | none => none
  | .work event =>
    match workshop.work net.server event with
    | some server => some { net with server := server }
    | none => none
  | .answer i outside sent =>
    match net.desks[i]? with
    | some desk =>
      match desk.answer wire workshop outside sent net.server with
      | some desk => some { net with desks := net.desks.set i desk }
      | none => none
    | none => none

/-- A step is of one connection, or of the work that belongs to none. -/
theorem step_cases {wire : Wire κ α ε Text} {workshop : Workshop σ η κ α ω J}
    {net t : Net σ J κ α ε Text ρ} {event : NetEvent η κ α ε ω ρ}
    (h : net.step wire workshop event = some t) :
    (∃ dialogue, event = .connect dialogue ∧
      t = { net with desks := net.desks ++ [⟨.start dialogue, none⟩] }) ∨
    (∃ e, event = .work e ∧ workshop.work net.server e = some t.server ∧ t.desks = net.desks) ∨
    ∃ i desk desk', net.desks[i]? = some desk ∧ t.desks = net.desks.set i desk' ∧
      ((∃ e, event = .move i e ∧ t.server = net.server ∧ desk.move wire e = some desk') ∨
        event = .takeUp i ∧ desk.takeUp wire workshop net.server = some (t.server, desk') ∨
        ∃ outside sent, event = .answer i outside sent ∧ t.server = net.server ∧
          desk.answer wire workshop outside sent net.server = some desk') := by
  cases event with
  | connect dialogue => exact .inl ⟨dialogue, rfl, (Option.some.inj h).symm⟩
  | work e =>
    unfold step at h
    dsimp only at h
    split at h
    next server hwork =>
      obtain rfl := Option.some.inj h
      exact .inr (.inl ⟨e, rfl, hwork, rfl⟩)
    next => cases h
  | move i e =>
    unfold step at h
    dsimp only at h
    split at h
    next desk hdesk =>
      split at h
      next desk' hmove =>
        obtain rfl := Option.some.inj h
        exact .inr (.inr ⟨i, desk, desk', hdesk, rfl, .inl ⟨e, rfl, rfl, hmove⟩⟩)
      next => cases h
    next => cases h
  | takeUp i =>
    unfold step at h
    dsimp only at h
    split at h
    next desk hdesk =>
      split at h
      next server desk' htake =>
        obtain rfl := Option.some.inj h
        exact .inr (.inr ⟨i, desk, desk', hdesk, rfl, .inr (.inl ⟨rfl, htake⟩)⟩)
      next => cases h
    next => cases h
  | answer i outside sent =>
    unfold step at h
    dsimp only at h
    split at h
    next desk hdesk =>
      split at h
      next desk' hanswer =>
        obtain rfl := Option.some.inj h
        exact .inr (.inr ⟨i, desk, desk', hdesk, rfl,
          .inr (.inr ⟨outside, sent, rfl, rfl, hanswer⟩)⟩)
      next => cases h
    next => cases h

end Net

/-! ## What the server keeps -/

section Keeps

variable (wire : Wire κ α ε Text) (P : κ → Prop)

/-- Nothing is asked on the connection, or on its way, but such questions. -/
structure Connection.Keeps (c : Connection κ α ε Text ρ) : Prop where
  asks : c.asker.Asks P
  questions : ∀ text ∈ c.questions, ∃ question, P question ∧ text = wire.writeQuestion question

variable {wire P} {c : Connection κ α ε Text ρ} {desk desk' : Desk J κ α ε Text ρ}
  {workshop : Workshop σ η κ α ω J}

theorem keeps_start {dialogue : Dialogue κ (Except ε α) ρ} (h : dialogue.Asks P) :
    (Connection.start dialogue : Connection κ α ε Text ρ).Keeps wire P := by
  refine ⟨h, ?_⟩
  intro text htext
  cases htext

/-- A question that is asked is one more on the way. -/
theorem keeps_more (hc : c.Keeps wire P) {question : κ} (hquestion : P question) :
    ∀ text ∈ c.questions ++ [wire.writeQuestion question],
      ∃ question, P question ∧ text = wire.writeQuestion question := by
  intro text htext
  rcases List.mem_append.mp htext with hold | hnew
  · exact hc.questions text hold
  · exact ⟨question, hquestion, List.mem_singleton.mp hnew⟩

theorem keeps_move {event : ExchangeEvent Empty ε} (hc : desk.connection.Keeps wire P)
    (h : desk.move wire event = some desk') : desk'.connection.Keeps wire P := by
  obtain ⟨⟨asker, questions, answers, serving, broken⟩, job⟩ := desk
  have hasks := hc.asks
  dsimp only at hasks
  cases event with
  | serve outside sent => exact outside.elim
  | hangUp =>
    obtain rfl := Option.some.inj h
    exact ⟨hasks, hc.questions⟩
  | ask =>
    rcases asker with ⟨_ | ⟨question, next⟩⟩ | next
    · cases h
    · obtain rfl := Option.some.inj h
      exact ⟨hasks.2, keeps_more hc hasks.1⟩
    · cases h
  | refuse e =>
    rcases asker with ⟨_ | ⟨question, next⟩⟩ | next
    · cases h
    · obtain rfl := Option.some.inj h
      exact ⟨hasks.2 _, hc.questions⟩
    · cases h
  | failSend e sent =>
    rcases asker with ⟨_ | ⟨question, next⟩⟩ | next
    · cases h
    · obtain rfl := Option.some.inj h
      refine ⟨hasks.2 _, ?_⟩
      cases sent with
      | true => exact keeps_more hc hasks.1
      | false => exact hc.questions
    · cases h
  | receive =>
    rcases asker with dialogue | next
    · cases h
    · rcases broken with _ | _
      · rcases answers with _ | ⟨text, answers⟩
        · cases h
        · obtain rfl := Option.some.inj h
          exact ⟨hasks _, hc.questions⟩
      · cases h
  | failRead e =>
    cases asker with
    | ready dialogue => cases h
    | waiting next =>
      obtain rfl := Option.some.inj h
      exact ⟨hasks _, hc.questions⟩

/-- A text that is taken up is a question that could be asked. -/
theorem keeps_takeUp {s s' : σ} (hc : desk.connection.Keeps wire P)
    (h : desk.takeUp wire workshop s = some (s', desk')) :
    (∃ question, P question ∧ s' = (workshop.takeUp s question).1) ∧
      desk'.connection.Keeps wire P := by
  unfold Desk.takeUp at h
  split at h
  next text questions _ _ hquestions =>
    obtain ⟨question, hquestion, rfl⟩ := hc.questions text (hquestions ▸ List.mem_cons_self)
    rw [wire.read_question] at h
    obtain ⟨rfl, rfl⟩ := Prod.mk.inj (Option.some.inj h)
    refine ⟨⟨question, hquestion, rfl⟩, hc.asks, ?_⟩
    intro other hother
    exact hc.questions other (hquestions ▸ List.mem_cons_of_mem _ hother)
  next => cases h

theorem keeps_answer {s : σ} {outside : η} {sent : Bool} (hc : desk.connection.Keeps wire P)
    (h : desk.answer wire workshop outside sent s = some desk') :
    desk'.connection.Keeps wire P := by
  unfold Desk.answer at h
  split at h
  next =>
    split at h
    next =>
      obtain rfl := Option.some.inj h
      exact ⟨hc.asks, hc.questions⟩
    next =>
      obtain rfl := Option.some.inj h
      exact ⟨hc.asks, hc.questions⟩
    next => cases h
  next => cases h

variable (Inv : σ → Prop)

/-- One step of anybody. -/
theorem keeps_net (htake : ∀ s question, P question → Inv s → Inv (workshop.takeUp s question).1)
    (hwork : ∀ s event t, Inv s → workshop.work s event = some t → Inv t)
    (net : Net σ J κ α ε Text ρ) (event : NetEvent η κ α ε ω ρ) (t : Net σ J κ α ε Text ρ)
    (hnet : Inv net.server ∧ ∀ desk ∈ net.desks, desk.connection.Keeps wire P)
    (hasks : ∀ dialogue, event = .connect dialogue → dialogue.Asks P)
    (h : net.step wire workshop event = some t) :
    Inv t.server ∧ ∀ desk ∈ t.desks, desk.connection.Keeps wire P := by
  obtain ⟨hserver, hdesks⟩ := hnet
  rcases Net.step_cases h with
    ⟨dialogue, rfl, rfl⟩ | ⟨e, rfl, hstep, hsame⟩ | ⟨i, desk, desk', hdesk, hset, hcases⟩
  · refine ⟨hserver, ?_⟩
    intro desk hdesk
    rcases List.mem_append.mp hdesk with hold | hnew
    · exact hdesks desk hold
    · rw [List.mem_singleton.mp hnew]
      exact keeps_start (hasks dialogue rfl)
  · rw [hsame]
    exact ⟨hwork _ e _ hserver hstep, hdesks⟩
  · have hc := hdesks desk (List.mem_of_getElem? hdesk)
    have hothers : desk'.connection.Keeps wire P →
        ∀ desk ∈ t.desks, desk.connection.Keeps wire P := by
      intro hc' other hother
      rw [hset] at hother
      rcases List.mem_or_eq_of_mem_set hother with hold | rfl
      · exact hdesks other hold
      · exact hc'
    rcases hcases with ⟨e, _, hsame, hmove⟩ | ⟨_, htaken⟩ | ⟨outside, sent, _, hsame, hanswer⟩
    · rw [hsame]
      exact ⟨hserver, hothers (keeps_move hc hmove)⟩
    · obtain ⟨⟨question, hquestion, heq⟩, hc'⟩ := keeps_takeUp hc htaken
      rw [heq]
      exact ⟨htake _ question hquestion hserver, hothers hc'⟩
    · rw [hsame]
      exact ⟨hserver, hothers (keeps_answer hc hanswer)⟩

/-- What a server keeps in every question it can be asked, and in every step of its work, it
keeps, whatever number of dialogues are held with it at once, in whatever order the texts come
and go, and whichever of its jobs it works on when. -/
theorem server_invariant
    (htake : ∀ s question, P question → Inv s → Inv (workshop.takeUp s question).1)
    (hwork : ∀ s event t, Inv s → workshop.work s event = some t → Inv t) {s : σ}
    {events : List (NetEvent η κ α ε ω ρ)}
    (hasks : ∀ dialogue, .connect dialogue ∈ events → dialogue.Asks P)
    {t : Net σ J κ α ε Text ρ} (hs : Inv s)
    (hrun : run (Net.step wire workshop) ⟨s, []⟩ events = some t) : Inv t.server := by
  have halways : Always (Net.step wire workshop)
      (fun _ event => ∀ dialogue, event = .connect dialogue → dialogue.Asks P) ⟨s, []⟩ events :=
    always_of_forall fun event hevent net dialogue heq => hasks dialogue (heq ▸ hevent)
  exact (run_invariant (keeps_net Inv htake hwork) ⟨hs, by simp⟩ halways hrun).1

end Keeps

end GraphHarness.Trace
