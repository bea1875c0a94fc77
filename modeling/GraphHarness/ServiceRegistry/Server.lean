import GraphHarness.ServiceRegistry.Subscriptions
import GraphHarness.Trace.Steps

/-!
# The WebSocket server (`service-registry/src/websocket.rs`)

Any number of connections over one registry. A connection takes what comes in one by
one. No send fails here.

A service action is not one step. `update_state` reads the service, writes it with its new
state and awaits the flush, and only then locks the subscribers to see whom it has to
tell; at each of these the task of the connection may be put aside and the other
connections go on. So it takes three steps: the first is the turn that takes the message
(`receive`), which suspends the connection when the check of the transition has passed;
`store` writes; `resume` asks the subscribers as they are then and answers. Every other
message is dealt with in one turn.

What a connection has received and answered, and the messages that were for it while it
was open, are written down beside it.

Circumstances are those of one turn; `Smooth` turns are the ones in which every send works,
while the storage may fail in any of them. `Stepped` is the inversion of a step, and
everything about runs of the server goes through it. A connection that has ended takes no
further steps, and its subscriptions are what `Cleanup.lean` is about.
-/

namespace GraphHarness.ServiceRegistry

namespace Registry

variable {σ : Type} [RegistryBackend σ]

/-- `update_state` up to its second storage call: the entry it goes on with. -/
def checkState (registry : Registry σ) (faults : Faults) (name : String)
    (newState : ServiceState) : Except Error ServiceEntry :=
  match registry.get faults name with
  | .error e => .error e
  | .ok entry =>
    if isValidTransition entry.state newState then .ok entry
    else .error (.invalidStateTransition entry.state newState)

/-- `update_state` from there up to the lock on the subscribers. -/
def storeState (registry : Registry σ) (faults : Faults) (entry : ServiceEntry)
    (newState : ServiceState) (changedAt : Timestamp) : Registry σ × Except Error Unit :=
  let stored := putService registry.backend faults (entry.updateState newState changedAt)
  ({ registry with backend := stored.1 }, stored.2)

/-- The rest of `update_state`, with what the write has come to. -/
def emitState (registry : Registry σ) (name : String) (entry : ServiceEntry)
    (newState : ServiceState) (now : Timestamp) :
    Except Error Unit → Except Error (ServiceState × Messages)
  | .error e => .error e
  | .ok () => .ok (entry.state, registry.emitEvent .serviceStateChanged
      (.stateChange name entry.state newState now))

/-- The three parts, with nothing in between. -/
theorem updateState_eq (registry : Registry σ) (faults : Faults) (name : String)
    (newState : ServiceState) (changedAt now : Timestamp) :
    registry.updateState faults name newState changedAt now =
      match registry.checkState faults name newState with
      | .error e => (registry, .error e)
      | .ok entry =>
        let stored := registry.storeState faults entry newState changedAt
        (stored.1, stored.1.emitState name entry newState now stored.2) := by
  unfold updateState checkState
  cases registry.get faults name with
  | error e => rfl
  | ok entry =>
    dsimp only
    cases isValidTransition entry.state newState with
    | true =>
      rw [if_pos rfl, if_pos rfl]
      unfold storeAndEmit storeState
      dsimp only
      cases (putService registry.backend faults (entry.updateState newState changedAt)).2 with
      | error e => rfl
      | ok u => rfl
    | false => rfl

end Registry

/-- The messages that `update_state` returns. -/
def messagesOf : Except Error (ServiceState × Messages) → Messages
  | .ok (_, messages) => messages
  | .error _ => []

/-- Every send of the turn works. -/
structure Circumstances.Smooth (circumstances : Circumstances) : Prop where
  reply : circumstances.reply = none
  errorReply : circumstances.errorReply = none
  pong : circumstances.pong = none

/-- A turn in which nothing fails. -/
abbrev SmoothTurn := { circumstances : Circumstances // circumstances.Smooth }

/-- A service action whose transition is a valid one. -/
structure Suspended where
  id : String
  request : Request
  name : String
  newState : ServiceState
  entry : ServiceEntry

/-- Where the task of a connection is: it waits for a message, it has a new state to write,
it has written one and has yet to tell of it, or it is over. -/
inductive Task where
  | waiting
  | updating (held : Suspended)
  | emitting (held : Suspended) (stored : Except Error Unit)
  | ended

/-- The task of the connection has not ended. -/
def Task.isOpen : Task → Bool
  | .ended => false
  | _ => true

/-- What was answered to a request, or to a text that was none. -/
structure Answer where
  id : String
  request : Option Request
  response : Except ConnectionError ResponseData

/-- The message that an answer is sent as. -/
def Answer.message (answer : Answer) : ServerMessage :=
  match answer.response with
  | .ok data => .response answer.id (some data) none
  | .error e => .response answer.id none (some ⟨"error", e.display⟩)

/-- A connection with its task and its history. `owed` are the messages that a service
action has caused for its address while it was open. -/
structure Connection where
  handler : ConnectionHandler
  task : Task
  received : List Incoming
  answers : List Answer
  owed : List WsMessage

namespace Connection

variable {σ : Type} [RegistryBackend σ]

/-- A connection is accepted and sent the initial state. -/
def accept (registry : Registry σ) (circumstances : Circumstances) (addr : SocketAddr) :
    Connection :=
  match (ConnectionHandler.accept addr).sendInitialState registry circumstances with
  | (handler, .ok ()) => ⟨handler, .waiting, [], [], []⟩
  | (handler, .error _) => ⟨handler, .ended, [], [], []⟩

/-- The message makes the connection call the storage a second time. -/
def suspends (registry : Registry σ) (circumstances : Circumstances) : Incoming → Option Suspended
  | .text (.ok (.request id (.serviceAction (.ok (name, action))))) =>
    match ConnectionHandler.newState action with
    | none => none
    | some newState =>
      match registry.checkState circumstances.storage name newState with
      | .error _ => none
      | .ok entry => some ⟨id, .serviceAction (.ok (name, action)), name, newState, entry⟩
  | _ => none

theorem suspends_serviceAction [LawfulBackend σ] {registry : Registry σ} {name : String}
    {entry : ServiceEntry} {action : ServiceAction} {newState : ServiceState}
    (hstored : registry.stored name = some entry)
    (haction : ConnectionHandler.newState action = some newState)
    (hvalid : isValidTransition entry.state newState = true) (id : String) :
    suspends registry ConnectionHandler.smooth
      (.text (.ok (.request id (.serviceAction (.ok (name, action)))))) =
        some ⟨id, .serviceAction (.ok (name, action)), name, newState, entry⟩ := by
  have hcheck : registry.checkState Faults.none name newState = .ok entry := by
    unfold Registry.checkState
    rw [Registry.get_present hstored]
    dsimp only
    rw [if_pos hvalid]
  unfold suspends
  dsimp only [ConnectionHandler.smooth]
  rw [haction]
  dsimp only
  rw [hcheck]

/-- What a turn answers. -/
def answersOf (handler : ConnectionHandler) (registry : Registry σ)
    (circumstances : Circumstances) : Incoming → List Answer
  | .text (.error e) => [⟨"", none, .error (.registry (.json e))⟩]
  | .text (.ok (.request id request)) =>
    [⟨id, some request, (handler.respond registry circumstances request).2.2⟩]
  | _ => []

/-- A message is read. A change of state waits for its write, and the rest is answered. -/
def receive (connection : Connection) (registry : Registry σ) (circumstances : Circumstances)
    (incoming : Incoming) : Connection × Registry σ :=
  let received := connection.received ++ [incoming]
  match suspends registry circumstances incoming with
  | some held => ({ connection with task := .updating held, received := received }, registry)
  | none =>
    let answers := connection.answers ++
      answersOf connection.handler registry circumstances incoming
    match connection.handler.turn registry circumstances incoming with
    | (handler, registry, .next) =>
      (⟨handler, .waiting, received, answers, connection.owed⟩, registry)
    | (handler, registry, .stop) =>
      (⟨handler, .ended, received, answers, connection.owed⟩,
        registry.removeSubscriber handler.addr)
    | (handler, registry, .fail _) =>
      (⟨handler, .ended, received, answers, connection.owed⟩, registry)

/-- The write of a service action. -/
def store (connection : Connection) (registry : Registry σ) (circumstances : Circumstances)
    (held : Suspended) : Connection × Registry σ :=
  let stored := registry.storeState circumstances.storage held.entry held.newState
    circumstances.changedAt
  ({ connection with task := .emitting held stored.2 }, stored.1)

theorem store_works [LawfulBackend σ] (connection : Connection) (registry : Registry σ)
    (held : Suspended) : connection.store registry ConnectionHandler.smooth held =
      ({ connection with task := .emitting held (.ok ()) },
        { registry with backend := (putService registry.backend Faults.none
          (held.entry.updateState held.newState ConnectionHandler.smooth.changedAt)).1 }) := by
  have hput : (putService registry.backend Faults.none (held.entry.updateState held.newState
      ConnectionHandler.smooth.changedAt)).2 = .ok () := LawfulBackend.put_none _ _
  rw [← hput]
  rfl

/-- What `update_state` returns in the end. -/
def change (registry : Registry σ) (circumstances : Circumstances) (held : Suspended)
    (stored : Except Error Unit) : Except Error (ServiceState × Messages) :=
  registry.emitState held.name held.entry held.newState circumstances.now stored

/-- The answer to a change of state, from what came of the write. -/
def changeAnswer (registry : Registry σ) (circumstances : Circumstances) (held : Suspended)
    (stored : Except Error Unit) : Answer :=
  ⟨held.id, some held.request, ConnectionHandler.stateChangeResponse held.name held.newState
    (change registry circumstances held stored)⟩

/-- The rest of a service action: its answer is sent, and the messages are returned. -/
def resume (connection : Connection) (registry : Registry σ) (circumstances : Circumstances)
    (held : Suspended) (stored : Except Error Unit) : Connection × Messages :=
  let answer := changeAnswer registry circumstances held stored
  let handler := (connection.handler.reply circumstances.reply answer.id answer.response).1
  (⟨handler, .waiting, connection.received, connection.answers ++ [answer], connection.owed⟩,
    messagesOf (change registry circumstances held stored))

/-- The messages that are for the connection are owed to it, while it is open. -/
def owe (messages : Messages) (connection : Connection) : Connection :=
  if connection.task.isOpen then
    { connection with
      owed := connection.owed ++ messages.filterMap fun message =>
        if message.1 = connection.handler.addr then some message.2 else none }
  else connection

/-! ## What is sent -/

/-- The pong that answers a ping. -/
def pongs : Incoming → List Outgoing
  | .ping data => [.pong data]
  | _ => []

omit [RegistryBackend σ] in
theorem ws_reply (handler : ConnectionHandler) (id : String) (request : Option Request)
    (response : Except ConnectionError ResponseData) :
    (handler.reply none id response).1.ws =
      handler.ws ++ [.text (Answer.message ⟨id, request, response⟩)] := by
  cases response with
  | ok data => rfl
  | error e => rfl

theorem ws_respond (handler : ConnectionHandler) (registry : Registry σ)
    (circumstances : Circumstances) (request : Request) :
    (handler.respond registry circumstances request).1.ws = handler.ws := by
  cases request with
  | subscribe params =>
    cases params with
    | error e => rfl
    | ok events => rfl
  | unsubscribe params =>
    cases params with
    | error e => rfl
    | ok events => rfl
  | _ => rfl

/-- A request is processed by sending its answer. -/
theorem processTextMessage_request (handler : ConnectionHandler) (registry : Registry σ)
    {circumstances : Circumstances} (hreply : circumstances.reply = none) (id : String)
    (request : Request) :
    handler.processTextMessage registry circumstances (.ok (.request id request)) =
      (((handler.respond registry circumstances request).1.reply none id
          (handler.respond registry circumstances request).2.2).1,
        (handler.respond registry circumstances request).2.1, .ok ()) := by
  rw [← ConnectionHandler.reply_works (handler.respond registry circumstances request).1 id
    (handler.respond registry circumstances request).2.2, ← hreply]
  rfl

/-- A turn sends what it answers, and a pong for a ping. -/
theorem ws_turn (handler : ConnectionHandler) (registry : Registry σ)
    {circumstances : Circumstances} (hsmooth : circumstances.Smooth) (incoming : Incoming) :
    (handler.turn registry circumstances incoming).1.ws = handler.ws ++
      ((answersOf handler registry circumstances incoming).map fun a => .text a.message) ++
      pongs incoming := by
  cases incoming with
  | text parsed =>
    cases parsed with
    | error e =>
      rw [ConnectionHandler.turn_text_error (e := .registry (.json e)) rfl]
      show (handler.reply circumstances.errorReply "" (.error (.registry (.json e)))).1.ws = _
      rw [hsmooth.errorReply, ws_reply handler "" none]
      exact (List.append_nil _).symm
    | ok text =>
      cases text with
      | request id request =>
        rw [ConnectionHandler.turn_text_ok
          (processTextMessage_request handler registry hsmooth.reply id request)]
        dsimp only
        rw [ws_reply _ id (some request), ws_respond]
        exact (List.append_nil _).symm
      | other =>
        simp [ConnectionHandler.turn, ConnectionHandler.processTextMessage,
          ConnectionHandler.fromValue, answersOf, pongs]
  | ping data =>
    show (handler.send circumstances.pong (.pong data)).1.ws = handler.ws ++ [] ++ pongs _
    rw [hsmooth.pong, List.append_nil]
    rfl
  | close => simp [ConnectionHandler.turn, answersOf, pongs]
  | other => simp [ConnectionHandler.turn, answersOf, pongs]
  | error message => simp [ConnectionHandler.turn, answersOf, pongs]

omit [RegistryBackend σ] in
theorem ws_resume (connection : Connection) (registry : Registry σ)
    {circumstances : Circumstances} (hsmooth : circumstances.Smooth) (held : Suspended)
    (stored : Except Error Unit) :
    (connection.resume registry circumstances held stored).1.handler.ws =
      connection.handler.ws ++
        [.text (changeAnswer registry circumstances held stored).message] := by
  unfold resume
  dsimp only
  rw [hsmooth.reply]
  exact ws_reply _ _ _ _

/-! ## The parts of a service action -/

theorem suspends_some {registry : Registry σ} {circumstances : Circumstances}
    {incoming : Incoming} {held : Suspended}
    (h : suspends registry circumstances incoming = some held) : ∃ action,
    incoming = .text (.ok (.request held.id held.request)) ∧
      held.request = .serviceAction (.ok (held.name, action)) ∧
      ConnectionHandler.newState action = some held.newState ∧
      registry.checkState circumstances.storage held.name held.newState = .ok held.entry := by
  unfold suspends at h
  split at h
  next id name action =>
    split at h
    next => simp at h
    next newState hnew =>
      split at h
      next => simp at h
      next entry hcheck =>
        obtain rfl := Option.some.inj h
        exact ⟨action, rfl, rfl, hnew, hcheck⟩
  next => simp at h

/-- **A service action with nothing in between is one turn**: the connection that has taken
the message, written and resumed is where `turn` has it, and so is the registry. -/
theorem resume_receive (connection : Connection) (registry : Registry σ)
    {circumstances : Circumstances} (hsmooth : circumstances.Smooth) {incoming : Incoming}
    {held : Suspended} (h : suspends registry circumstances incoming = some held) :
    ∃ connection' registry' stored,
      (connection.receive registry circumstances incoming).1.store registry circumstances held =
        (connection', registry') ∧ connection'.task = .emitting held stored ∧
      connection.handler.turn registry circumstances incoming =
        ((connection'.resume registry' circumstances held stored).1.handler, registry', .next) := by
  obtain ⟨action, hincoming, hrequest, hnew, hcheck⟩ := suspends_some h
  have hreceive : (connection.receive registry circumstances incoming).1.handler =
      connection.handler := by
    unfold receive
    rw [h]
  have hrespond : connection.handler.respond registry circumstances held.request =
      (connection.handler,
        (registry.storeState circumstances.storage held.entry held.newState
          circumstances.changedAt).1,
        (changeAnswer (registry.storeState circumstances.storage held.entry held.newState
          circumstances.changedAt).1 circumstances held
          (registry.storeState circumstances.storage held.entry held.newState
            circumstances.changedAt).2).response) := by
    rw [hrequest]
    unfold ConnectionHandler.respond ConnectionHandler.handleServiceAction
      ConnectionHandler.fromValue
    dsimp only
    rw [hnew]
    dsimp only
    rw [Registry.updateState_eq, hcheck]
    rfl
  have hturn := ConnectionHandler.turn_text_ok
    (processTextMessage_request connection.handler registry hsmooth.reply held.id
      held.request)
  rw [hrespond, ← hincoming] at hturn
  refine ⟨_, _, _, rfl, rfl, ?_⟩
  rw [hturn]
  unfold resume
  dsimp only
  rw [hreceive, hsmooth.reply]
  rfl

end Connection

/-- The registry and the connections, each with a task of its own. -/
structure Server (σ : Type) where
  registry : Registry σ
  connections : List Connection

/-- A client connects, or the task of the `i`th connection takes a message, writes the new
state of a service, or goes on after that. -/
inductive ServerEvent where
  | accept (addr : SocketAddr) (circumstances : SmoothTurn)
  | receive (i : Nat) (incoming : Incoming) (circumstances : SmoothTurn)
  | store (i : Nat) (circumstances : SmoothTurn)
  | resume (i : Nat) (circumstances : SmoothTurn)

namespace Server

variable {σ : Type} [RegistryBackend σ]

/-- No connection yet. -/
def start (registry : Registry σ) : Server σ := ⟨registry, []⟩

/-- A turn on which everything works. -/
def untroubled : SmoothTurn := ⟨ConnectionHandler.smooth, rfl, rfl, rfl⟩

/-- A peer's address is that of one open connection at most. -/
def step (s : Server σ) : ServerEvent → Option (Server σ)
  | .accept addr circumstances =>
    if s.connections.any fun c => c.task.isOpen && decide (c.handler.addr = addr) then none
    else some ⟨s.registry, s.connections ++ [Connection.accept s.registry circumstances addr]⟩
  | .receive i incoming circumstances =>
    match s.connections[i]? with
    | some connection =>
      match connection.task with
      | .waiting =>
        let received := connection.receive s.registry circumstances incoming
        some ⟨received.2, s.connections.set i received.1⟩
      | _ => none
    | none => none
  | .store i circumstances =>
    match s.connections[i]? with
    | some connection =>
      match connection.task with
      | .updating held =>
        let stored := connection.store s.registry circumstances held
        some ⟨stored.2, s.connections.set i stored.1⟩
      | _ => none
    | none => none
  | .resume i circumstances =>
    match s.connections[i]? with
    | some connection =>
      match connection.task with
      | .emitting held stored =>
        -- the subscribers are those of now, not those of the write
        let resumed := connection.resume s.registry circumstances held stored
        some ⟨s.registry, (s.connections.set i resumed.1).map (Connection.owe resumed.2)⟩
      | _ => none
    | none => none

/-- The first of the three steps of a service action. -/
theorem step_suspends {s : Server σ} {i : Nat} {connection : Connection} {incoming : Incoming}
    {circumstances : SmoothTurn} {held : Suspended}
    (hconnection : s.connections[i]? = some connection) (htask : connection.task = .waiting)
    (hsuspends : Connection.suspends s.registry circumstances incoming = some held) :
    s.step (.receive i incoming circumstances) = some ⟨s.registry, s.connections.set i
      { connection with
        task := .updating held
        received := connection.received ++ [incoming] }⟩ := by
  unfold step Connection.receive
  dsimp only
  rw [hconnection]
  dsimp only
  rw [htask]
  dsimp only
  rw [hsuspends]

/-- The second one. -/
theorem step_stores {s : Server σ} {i : Nat} {connection : Connection}
    {circumstances : SmoothTurn} {held : Suspended}
    (hconnection : s.connections[i]? = some connection)
    (htask : connection.task = .updating held) :
    s.step (.store i circumstances) =
      some ⟨(connection.store s.registry circumstances held).2,
        s.connections.set i (connection.store s.registry circumstances held).1⟩ := by
  unfold step
  dsimp only
  rw [hconnection]
  dsimp only
  rw [htask]

/-- Everything a step can be. -/
inductive Stepped (s : Server σ) : ServerEvent → Server σ → Prop
  | accept {addr : SocketAddr} {circumstances : SmoothTurn} :
    Stepped s (.accept addr circumstances)
      ⟨s.registry, s.connections ++ [Connection.accept s.registry circumstances addr]⟩
  | receive {i : Nat} {incoming : Incoming} {circumstances : SmoothTurn} {connection : Connection}
    (hconnection : s.connections[i]? = some connection) (htask : connection.task = .waiting) :
    Stepped s (.receive i incoming circumstances)
      ⟨(connection.receive s.registry circumstances incoming).2,
        s.connections.set i (connection.receive s.registry circumstances incoming).1⟩
  | store {i : Nat} {circumstances : SmoothTurn} {connection : Connection} {held : Suspended}
    (hconnection : s.connections[i]? = some connection)
    (htask : connection.task = .updating held) :
    Stepped s (.store i circumstances) ⟨(connection.store s.registry circumstances held).2,
      s.connections.set i (connection.store s.registry circumstances held).1⟩
  | resume {i : Nat} {circumstances : SmoothTurn} {connection : Connection} {held : Suspended}
    {stored : Except Error Unit} (hconnection : s.connections[i]? = some connection)
    (htask : connection.task = .emitting held stored) :
    Stepped s (.resume i circumstances) ⟨s.registry,
      (s.connections.set i (connection.resume s.registry circumstances held stored).1).map
        (Connection.owe (connection.resume s.registry circumstances held stored).2)⟩

/-- A step of the server is one of these. -/
theorem step_cases {s t : Server σ} {event : ServerEvent} (h : s.step event = some t) :
    s.Stepped event t := by
  cases event with
  | accept addr circumstances =>
    unfold step at h
    dsimp only at h
    split at h
    next => cases h
    next =>
      obtain rfl := Option.some.inj h
      exact .accept
  | receive i incoming circumstances =>
    unfold step at h
    dsimp only at h
    split at h
    next connection hconnection =>
      split at h
      next htask =>
        obtain rfl := Option.some.inj h
        exact .receive hconnection htask
      next => cases h
    next => cases h
  | store i circumstances =>
    unfold step at h
    dsimp only at h
    split at h
    next connection hconnection =>
      split at h
      next held htask =>
        obtain rfl := Option.some.inj h
        exact .store hconnection htask
      next => cases h
    next => cases h
  | resume i circumstances =>
    unfold step at h
    dsimp only at h
    split at h
    next connection hconnection =>
      split at h
      next held stored htask =>
        obtain rfl := Option.some.inj h
        exact .resume hconnection htask
      next => cases h
    next => cases h

end Server

end GraphHarness.ServiceRegistry
