import GraphHarness.ServiceRegistry.Server
import GraphHarness.Trace.Parties

/-!
# One response for each request

What a connection sends besides events and pongs are the answers, one for each text that
asks for one, with its id and in the order of the texts. A service action that is
suspended, before its write or behind it, is the one that is not answered yet: the task
takes no message while it works on one, so there is never more than one.

The invariant is `Consistent`, of each connection by itself. A step of the server is about
one connection; of the others it changes what they are owed and nothing else
(`moved_of_step`), and what they are owed is no part of the invariant.

A task that is suspended has not taken the next message, so what it works on is one request
(`Task.inProgress`), and the answers so far with that request are what was asked so far. Each
step of the server is one of `Stepped`, and `Consistent` is shown for the connection it is
about; the others are moved by `owe` alone.
-/

namespace GraphHarness.ServiceRegistry

open Trace (run run_preserves some_of_getElem?_concat some_of_getElem?_set)

/-- What a message asks for: its id and the request, or an error response. -/
def Incoming.asked : Incoming → Option (String × Option Request)
  | .text (.error _) => some ("", none)
  | .text (.ok (.request id request)) => some (id, some request)
  | _ => none

/-- The request that is being worked on. -/
def Task.inProgress : Task → List (String × Option Request)
  | .updating held => [(held.id, some held.request)]
  | .emitting held _ => [(held.id, some held.request)]
  | _ => []

/-- What an answer answers. -/
def Answer.asked (answer : Answer) : String × Option Request := (answer.id, answer.request)

/-- The responses among what was sent. -/
def responses (ws : List Outgoing) : List ServerMessage :=
  ws.filterMap fun
    | .text (.response id data error) => some (.response id data error)
    | _ => none

theorem responses_append (ws ws' : List Outgoing) :
    responses (ws ++ ws') = responses ws ++ responses ws' := List.filterMap_append

theorem responses_answers (answers : List Answer) :
    responses (answers.map fun a => .text a.message) = answers.map Answer.message := by
  induction answers with
  | nil => rfl
  | cons answer answers ih =>
    have hanswer : responses [.text answer.message] = [answer.message] := by
      unfold Answer.message
      cases answer.response with
      | ok data => rfl
      | error e => rfl
    rw [List.map_cons, List.map_cons, ← List.singleton_append, responses_append, hanswer, ih]
    rfl

theorem responses_pongs (incoming : Incoming) : responses (Connection.pongs incoming) = [] := by
  cases incoming with
  | _ => rfl

namespace Connection

/-- The responses are the answers, and the answers are to what was received, in order. -/
structure Consistent (connection : Connection) : Prop where
  sent : responses connection.handler.ws = connection.answers.map Answer.message
  inOrder : connection.answers.map Answer.asked ++ connection.task.inProgress =
    connection.received.filterMap Incoming.asked

variable {σ : Type} [RegistryBackend σ]

theorem asked_answersOf (handler : ConnectionHandler) (registry : Registry σ)
    (circumstances : Circumstances) (incoming : Incoming) :
    (answersOf handler registry circumstances incoming).map Answer.asked =
      incoming.asked.toList := by
  cases incoming with
  | text parsed =>
    cases parsed with
    | error e => rfl
    | ok text =>
      cases text with
      | request id request => rfl
      | other => rfl
  | _ => rfl

theorem consistent_accept (registry : Registry σ) (circumstances : Circumstances)
    (addr : SocketAddr) : (accept registry circumstances addr).Consistent := by
  unfold accept ConnectionHandler.sendInitialState
  cases circumstances.serialize with
  | some e => exact ⟨rfl, rfl⟩
  | none =>
    cases circumstances.reply with
    | some e => exact ⟨rfl, rfl⟩
    | none => exact ⟨rfl, rfl⟩

theorem filterMap_asked_append (received : List Incoming) (incoming : Incoming) :
    (received ++ [incoming]).filterMap Incoming.asked =
      received.filterMap Incoming.asked ++ incoming.asked.toList := by
  rw [List.filterMap_append, List.filterMap_cons]
  cases incoming.asked with
  | none => rfl
  | some asked => rfl

variable {connection : Connection}

theorem consistent_receive (h : connection.Consistent) (hwaiting : connection.task = .waiting)
    (registry : Registry σ) {circumstances : Circumstances} (hsmooth : circumstances.Smooth)
    (incoming : Incoming) :
    (connection.receive registry circumstances incoming).1.Consistent := by
  have hinOrder := h.inOrder
  rw [hwaiting, show Task.waiting.inProgress = [] from rfl, List.append_nil] at hinOrder
  unfold receive
  split
  next held hsuspends =>
    obtain ⟨action, rfl, _⟩ := suspends_some hsuspends
    refine ⟨h.sent, ?_⟩
    show connection.answers.map Answer.asked ++ [(held.id, some held.request)] = _
    rw [hinOrder, filterMap_asked_append]
    rfl
  next =>
    have hws := ws_turn connection.handler registry hsmooth incoming
    have hsent : responses (connection.handler.turn registry circumstances incoming).1.ws =
        (connection.answers ++ answersOf connection.handler registry circumstances incoming).map
          Answer.message := by
      rw [hws, responses_append, responses_append, h.sent, responses_answers, responses_pongs,
        List.append_nil, List.map_append]
    have hasked : (connection.answers ++
        answersOf connection.handler registry circumstances incoming).map Answer.asked ++ [] =
          (connection.received ++ [incoming]).filterMap Incoming.asked := by
      rw [List.append_nil, List.map_append, asked_answersOf, hinOrder, filterMap_asked_append]
    dsimp only
    split
    next heq =>
      rw [heq] at hsent
      exact ⟨hsent, hasked⟩
    next heq =>
      rw [heq] at hsent
      exact ⟨hsent, hasked⟩
    next heq =>
      rw [heq] at hsent
      exact ⟨hsent, hasked⟩

/-- Taking a message adds to what has been sent and received. -/
theorem receive_grows (connection : Connection) (registry : Registry σ)
    {circumstances : Circumstances} (hsmooth : circumstances.Smooth) (incoming : Incoming) :
    connection.handler.ws <+: (connection.receive registry circumstances incoming).1.handler.ws ∧
      (connection.receive registry circumstances incoming).1.received =
        connection.received ++ [incoming] := by
  have hws := ws_turn connection.handler registry hsmooth incoming
  rw [List.append_assoc] at hws
  unfold receive
  split
  next => exact ⟨List.prefix_refl _, rfl⟩
  next =>
    dsimp only
    split
    next heq =>
      rw [heq] at hws
      exact ⟨⟨_, hws.symm⟩, rfl⟩
    next heq =>
      rw [heq] at hws
      exact ⟨⟨_, hws.symm⟩, rfl⟩
    next heq =>
      rw [heq] at hws
      exact ⟨⟨_, hws.symm⟩, rfl⟩

/-- The write answers nothing. -/
theorem consistent_store {held : Suspended} (h : connection.Consistent)
    (hupdating : connection.task = .updating held) (registry : Registry σ)
    (circumstances : Circumstances) :
    (connection.store registry circumstances held).1.Consistent := by
  have hinOrder := h.inOrder
  rw [hupdating] at hinOrder
  exact ⟨h.sent, hinOrder⟩

omit [RegistryBackend σ] in
theorem consistent_resume {held : Suspended} {stored : Except Error Unit}
    (h : connection.Consistent) (hemitting : connection.task = .emitting held stored)
    (registry : Registry σ) {circumstances : Circumstances} (hsmooth : circumstances.Smooth) :
    (connection.resume registry circumstances held stored).1.Consistent := by
  have hinOrder := h.inOrder
  rw [hemitting] at hinOrder
  constructor
  · have hanswer := responses_answers [changeAnswer registry circumstances held stored]
    rw [List.map_singleton] at hanswer
    rw [ws_resume connection registry hsmooth held stored, responses_append, h.sent, hanswer,
      ← List.map_append]
    rfl
  · show (connection.answers ++ [changeAnswer registry circumstances held stored]).map
      Answer.asked ++ [] = connection.received.filterMap Incoming.asked
    rw [List.append_nil, List.map_append, ← hinOrder]
    rfl

omit [RegistryBackend σ] in
theorem owe_eq (messages : Messages) (connection : Connection) :
    ∃ owed, connection.owe messages = { connection with owed := owed } := by
  unfold owe
  split
  next => exact ⟨_, rfl⟩
  next => exact ⟨connection.owed, rfl⟩

end Connection

namespace Server

variable {σ : Type} [RegistryBackend σ] {s t : Server σ} {event : ServerEvent}

/-- The `i`th connection after a step: it is new, it is where it was, or the event is its
own. -/
inductive Moved (s : Server σ) (i : Nat) : ServerEvent → Connection → Prop
  | accepted {addr : SocketAddr} {circumstances : SmoothTurn} (hnew : i = s.connections.length) :
    Moved s i (.accept addr circumstances) (Connection.accept s.registry circumstances addr)
  | kept {event : ServerEvent} {connection : Connection} {owed : List WsMessage}
    (hconnection : s.connections[i]? = some connection) :
    Moved s i event { connection with owed := owed }
  | received {incoming : Incoming} {circumstances : SmoothTurn} {connection : Connection}
    (hconnection : s.connections[i]? = some connection) (htask : connection.task = .waiting) :
    Moved s i (.receive i incoming circumstances)
      (connection.receive s.registry circumstances incoming).1
  | stored {circumstances : SmoothTurn} {connection : Connection} {held : Suspended}
    (hconnection : s.connections[i]? = some connection)
    (htask : connection.task = .updating held) :
    Moved s i (.store i circumstances) (connection.store s.registry circumstances held).1
  | resumed {circumstances : SmoothTurn} {connection : Connection} {held : Suspended}
    {stored : Except Error Unit} {owed : List WsMessage}
    (hconnection : s.connections[i]? = some connection)
    (htask : connection.task = .emitting held stored) :
    Moved s i (.resume i circumstances)
      { (connection.resume s.registry circumstances held stored).1 with owed := owed }

/-- A step moves one connection at most. -/
theorem moved_of_step (h : s.step event = some t) {i : Nat} {connection : Connection}
    (hconnection : t.connections[i]? = some connection) : s.Moved i event connection := by
  cases step_cases h with
  | accept =>
    rcases some_of_getElem?_concat hconnection with hbefore | ⟨rfl, rfl⟩
    · exact .kept hbefore
    · exact .accepted rfl
  | @receive j incoming circumstances before hbefore htask =>
    rcases some_of_getElem?_set hconnection with ⟨rfl, rfl⟩ | ⟨_, hkept⟩
    · exact .received hbefore htask
    · exact .kept hkept
  | @store j circumstances before held hbefore htask =>
    rcases some_of_getElem?_set hconnection with ⟨rfl, rfl⟩ | ⟨_, hkept⟩
    · exact .stored hbefore htask
    · exact .kept hkept
  | @resume j circumstances before held stored hbefore htask =>
    rw [List.getElem?_map, Option.map_eq_some_iff] at hconnection
    obtain ⟨other, hother, rfl⟩ := hconnection
    obtain ⟨owed, howed⟩ :=
      Connection.owe_eq (before.resume s.registry circumstances held stored).2 other
    rw [howed]
    rcases some_of_getElem?_set hother with ⟨rfl, rfl⟩ | ⟨_, hkept⟩
    · exact .resumed hbefore htask
    · exact .kept hkept

theorem length_step (h : s.step event = some t) :
    s.connections.length ≤ t.connections.length := by
  cases step_cases h with
  | accept => simp
  | receive => simp
  | store => simp
  | resume => simp

/-- One step keeps the connections consistent. -/
theorem consistent_step (h : s.step event = some t)
    (hs : ∀ connection ∈ s.connections, connection.Consistent) :
    ∀ connection ∈ t.connections, connection.Consistent := by
  intro connection hmem
  obtain ⟨i, hconnection⟩ := List.mem_iff_getElem?.mp hmem
  cases moved_of_step h hconnection with
  | accepted => exact Connection.consistent_accept ..
  | kept hbefore =>
    have hsame := hs _ (List.mem_of_getElem? hbefore)
    exact ⟨hsame.sent, hsame.inOrder⟩
  | @received incoming circumstances before hbefore htask =>
    have hconsistent := hs before (List.mem_of_getElem? hbefore)
    exact Connection.consistent_receive hconsistent htask s.registry circumstances.2 incoming
  | @stored circumstances before held hbefore htask =>
    have hconsistent := hs before (List.mem_of_getElem? hbefore)
    exact Connection.consistent_store hconsistent htask s.registry circumstances
  | @resumed circumstances before held stored owed hbefore htask =>
    have hconsistent := hs before (List.mem_of_getElem? hbefore)
    have hresumed := Connection.consistent_resume hconsistent htask s.registry circumstances.2
    exact ⟨hresumed.sent, hresumed.inOrder⟩

/-- In every run, on every connection: one response for each text that asks for one, with
its id, in the order of the texts. -/
theorem responses_in_order (registry : Registry σ) {events : List ServerEvent}
    (hrun : run step (start registry) events = some t) :
    ∀ connection ∈ t.connections, connection.Consistent := by
  have hstep : ∀ (s : Server σ) (event : ServerEvent) (t : Server σ),
      (∀ connection ∈ s.connections, connection.Consistent) → s.step event = some t →
      ∀ connection ∈ t.connections, connection.Consistent := by
    intro s event t hs h
    exact consistent_step h hs
  exact run_preserves hstep (by simp [start]) hrun

/-- A connection's history grows at its end. What it has received grows by a message it
receives. -/
theorem moved_grows {i : Nat} {connection : Connection} (h : s.Moved i event connection) :
    (s.connections[i]? = none ∧ connection.received = []) ∨
      ∃ before, s.connections[i]? = some before ∧
        before.handler.ws <+: connection.handler.ws ∧
        (connection.received = before.received ∨ ∃ incoming circumstances,
          event = .receive i incoming circumstances ∧
            connection.received = before.received ++ [incoming]) := by
  cases h with
  | accepted hnew =>
    refine .inl ⟨by rw [hnew]; exact List.getElem?_eq_none (Nat.le_refl _), ?_⟩
    unfold Connection.accept
    split
    next => rfl
    next => rfl
  | kept hbefore => exact .inr ⟨_, hbefore, List.prefix_refl _, .inl rfl⟩
  | @received incoming circumstances before hbefore htask =>
    refine .inr ⟨before, hbefore, ?_⟩
    obtain ⟨hgrows, hlog⟩ := before.receive_grows s.registry circumstances.2 incoming
    exact ⟨hgrows, .inr ⟨incoming, circumstances, rfl, hlog⟩⟩
  | stored hbefore _ => exact .inr ⟨_, hbefore, List.prefix_refl _, .inl rfl⟩
  | @resumed circumstances before held stored owed hbefore htask =>
    refine .inr ⟨before, hbefore, ?_, .inl rfl⟩
    exact ⟨_, (Connection.ws_resume before s.registry circumstances.2 held stored).symm⟩

end Server

end GraphHarness.ServiceRegistry
