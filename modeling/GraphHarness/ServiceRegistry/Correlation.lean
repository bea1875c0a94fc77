import GraphHarness.ServiceRegistry.Pending
import GraphHarness.ServiceRegistry.Responses

/-!
# Requests and their responses

A client and the server, and between them two streams that deliver everything in order.
The client's connection is one of any number, and the server may push an event on it at
any time.

> `requests_correlated` — **in every run** the connection sends one response for each
> request it has received, with its id and in order, and a call that has been answered
> has returned what the server answered to its own request, in a response that no other
> call has got.

The link between the two sides is that a call's id occurs in nothing but its own request
and the answer to it.

The proof joins two invariants, one for each side: `Client.Linked` of `Pending.lean`, which
says what the map of the client has to do with its calls, and `Connection.Consistent` of
`Responses.lean`, which says what the server has sent for what it has received. `Joined` adds
that each side has received a beginning of what the other one has sent, in order. A step of
the whole is a step of one side or a message between them (`Taken`), and keeps all three.

Departures from the source: the two streams neither lose nor reorder anything, as TCP does
not, and they break only by ending; the frames that the WebSocket library handles itself are
sent and heard without being requests. Ids are fresh, and a response that finds no sender in
the map is dropped, as the handler does. All connections share one registry, so what a request
is answered depends on the others' requests too; the statement is about whose answer a
response is.
-/

namespace GraphHarness.ServiceRegistry

open Trace (run run_preserves getElem?_append_of_some some_of_getElem?_set prefix_concat)

/-- `serde_json` on what the two sides send: what was written is read back. Of an address the
text has everything but the flow label, so the laws are those of data without flow labels;
`Documents.lean` says what is heard of any data. -/
structure Wire where
  Text : Type
  writeRequest : String → Request → Text
  readRequest : Text → Except String ClientText
  writeMessage : ServerMessage → Text
  readMessage : Text → Heard ResponseData
  read_request : ∀ id request,
    readRequest (writeRequest id request) = .ok (.request id request)
  read_response : ∀ id data error, readMessage (writeMessage (.response id data error)) =
    .response id data (error.map ErrorInfo.message)
  read_registryLoaded : ∀ services, readMessage (writeMessage (.registryLoaded services)) = .event
  read_pushed : ∀ event, readMessage (writeMessage (.pushed event)) = .event

namespace Wire

variable (wire : Wire)

/-- What arrives of a message of the client. -/
def arrive : ClientMessage Request → Incoming
  | .request id request => .text (wire.readRequest (wire.writeRequest id request))
  | .close => .close

/-- What is heard of a message of the server. -/
def hearing : Outgoing → Heard ResponseData
  | .text message => wire.readMessage (wire.writeMessage message)
  | .pong _ => .frame

end Wire

/-- What a message of the client asks for. -/
def ClientMessage.asked : ClientMessage Request → Option (String × Option Request)
  | .request id body => some (id, some body)
  | .close => none

/-- What a call gets to know of an answer. -/
def Answer.result (answer : Answer) : Except Error ResponseData :=
  match answer.response with
  | .ok data => .ok data
  | .error e => .error (.package e.display)

namespace Client

variable {ρ V : Type} {s t : Client ρ V} {event : ClientEvent ρ V}

/-- The event is one of the stream of the connection. -/
def isHear : ClientEvent ρ V → Bool
  | .hear _ => true
  | _ => false

/-- There is a call with this id and this request. -/
def Called (s : Client ρ V) (id : String) (request : ρ) : Prop :=
  ∃ call ∈ s.calls, call.id = id ∧ call.request = request

/-- Whatever is sent, or will be, is the request of a call, under its id. -/
def Carried (s : Client ρ V) : Prop :=
  ∀ id request, ClientMessage.request id request ∈ s.sent ++ s.queue → s.Called id request

/-- What was sent stays sent. -/
theorem sent_step (h : s.step event = some t) : s.sent <+: t.sent := by
  cases taken_of_step h with
  | transmit => exact List.prefix_append _ _
  | hear =>
    obtain ⟨calls, pending, hmessage, _⟩ := s.handleMessage_eq _
    rw [hmessage]
  | @exit reason =>
    cases reason with
    | closeSent => exact List.prefix_append _ _
    | _ => exact List.prefix_refl _
  | _ => exact List.prefix_refl _

/-- Only what is heard is received. -/
theorem received_step (h : s.step event = some t) (hhear : isHear event = false) :
    t.received = s.received := by
  cases taken_of_step h with
  | hear => cases hhear
  | _ => rfl

/-- What was called stays called. -/
theorem called_step (h : s.step event = some t) {id : String} {request : ρ}
    (hcalled : s.Called id request) : t.Called id request := by
  obtain ⟨call, hmem, hid, hrequest⟩ := hcalled
  -- no step changes the id or the request of a call
  have hmodify : ∀ (i : Nat) (f : Call ρ V → Call ρ V),
      (∀ call, (f call).id = call.id ∧ (f call).request = call.request) →
      ∃ call ∈ s.calls.modify i f, call.id = id ∧ call.request = request := by
    intro i f hf
    obtain ⟨j, hj⟩ := List.mem_iff_getElem?.mp hmem
    refine ⟨if i = j then f call else call, ?_, ?_⟩
    · exact List.mem_iff_getElem?.mpr ⟨j, by simp [List.getElem?_modify, hj]⟩
    · split
      next => exact ⟨(hf call).1.trans hid, (hf call).2.trans hrequest⟩
      next => exact ⟨hid, hrequest⟩
  have hphase : ∀ (i : Nat) (phase : Phase V), ∃ call ∈ (s.setPhase i phase).calls,
      call.id = id ∧ call.request = request :=
    fun i phase => hmodify i _ fun _ => ⟨rfl, rfl⟩
  cases taken_of_step h with
  | register => exact ⟨call, List.mem_append_left _ hmem, hid, hrequest⟩
  | enqueue => exact hphase _ _
  | refuse => exact hphase _ _
  | complete => exact hphase _ _
  | cancel => exact hphase _ _
  | abandon => exact hphase _ _
  | hear =>
    obtain ⟨calls, pending, hmessage, hcalls⟩ := s.handleMessage_eq _
    rw [hmessage]
    rcases hcalls with rfl | ⟨i, channel, rfl⟩
    · exact ⟨call, hmem, hid, hrequest⟩
    · exact hmodify i _ fun _ => ⟨rfl, rfl⟩
  | _ => exact ⟨call, hmem, hid, hrequest⟩

/-- What is sent was called, after one step. -/
theorem carried_step (hs : s.Carried) (h : s.step event = some t) : t.Carried := by
  intro id request hmem
  have hcalled : s.Called id request → t.Called id request := called_step h
  cases taken_of_step h with
  | @enqueue i call hcall hphase hrunning =>
    rw [← List.append_assoc, List.mem_append, List.mem_singleton] at hmem
    rcases hmem with hmem | heq
    · exact hcalled (hs id request hmem)
    · obtain ⟨rfl, rfl⟩ := ClientMessage.request.inj heq
      exact hcalled ⟨call, List.mem_of_getElem? hcall, rfl, rfl⟩
  | close =>
    rw [← List.append_assoc, List.mem_append, List.mem_singleton] at hmem
    rcases hmem with hmem | heq
    · exact hcalled (hs id request hmem)
    · cases heq
  | transmit hqueue =>
    refine hcalled (hs id request ?_)
    rw [hqueue]
    simpa using hmem
  | hear =>
    obtain ⟨calls, pending, hmessage, _⟩ := s.handleMessage_eq _
    rw [hmessage] at hmem
    exact hcalled (hs id request hmem)
  | @exit reason =>
    refine hcalled (hs id request ?_)
    cases reason with
    | closeSent =>
      simp only [sentAtExit, List.append_nil, List.mem_append, List.mem_singleton, reduceCtorEq,
        or_false] at hmem
      exact List.mem_append_left _ hmem
    | _ =>
      rw [List.append_nil] at hmem
      exact List.mem_append_left _ hmem
  | _ => exact hcalled (hs id request hmem)

end Client

/-- What a client reads from the message of an answer. -/
theorem Answer.outcome_message {answer : Answer} {id : String} {data : Option ResponseData}
    {error : Option ErrorInfo} (h : answer.message = .response id data error) :
    answer.id = id ∧ outcome data (error.map ErrorInfo.message) = answer.result := by
  unfold Answer.message at h
  unfold Answer.result
  cases hresponse : answer.response with
  | ok data' =>
    rw [hresponse] at h
    obtain ⟨rfl, rfl, rfl⟩ := ServerMessage.response.inj h
    exact ⟨rfl, rfl⟩
  | error e =>
    rw [hresponse] at h
    obtain ⟨rfl, rfl, rfl⟩ := ServerMessage.response.inj h
    exact ⟨rfl, rfl⟩

/-- What arrives was asked. -/
theorem Wire.asked_arrive (wire : Wire) (message : ClientMessage Request) :
    (wire.arrive message).asked = message.asked := by
  cases message with
  | request id request =>
    unfold Wire.arrive
    dsimp only
    rw [wire.read_request]
    rfl
  | close => rfl

/-- Only a response is heard as one. -/
theorem Wire.hearing_response {wire : Wire} {message : Outgoing} {id : String}
    {data : Option ResponseData} {error : Option String}
    (h : wire.hearing message = .response id data error) : ∃ info,
      message = .text (.response id data info) ∧ error = info.map ErrorInfo.message := by
  cases message with
  | text message =>
    change wire.readMessage (wire.writeMessage message) = _ at h
    cases message with
    | response id' data' error' =>
      rw [wire.read_response] at h
      obtain ⟨rfl, rfl, rfl⟩ := Heard.response.inj h
      exact ⟨error', rfl, rfl⟩
    | registryLoaded services =>
      rw [wire.read_registryLoaded] at h
      cases h
    | pushed event =>
      rw [wire.read_pushed] at h
      cases h
  | pong data => cases h

/-- A server and one of its clients. -/
structure System (σ : Type) where
  server : Server σ
  client : Client Request ResponseData

/-- A step of the client or of the server, or a message between them. -/
inductive SystemEvent where
  | client (event : ClientEvent Request ResponseData)
  | server (event : ServerEvent)
  | arrive (circumstances : SmoothTurn)
  | hear
  | push (event : WsMessage)

namespace System

variable {σ : Type} [RegistryBackend σ]

/-- The server is started and the client connected, and nothing was sent. -/
def start (registry : Registry σ) : System σ := ⟨Server.start registry, .connect⟩

/-- The event is one of the stream of the connection. -/
def isReceive (k : Nat) : ServerEvent → Bool
  | .receive i _ _ => i == k
  | _ => false

/-- One step. The client's connection is the `k`th one of the server. -/
def step (wire : Wire) (k : Nat) (s : System σ) : SystemEvent → Option (System σ)
  | .client event =>
    if Client.isHear event then none
    else match s.client.step event with
      | some client => some ⟨s.server, client⟩
      | none => none
  | .server event =>
    if isReceive k event then none
    else match s.server.step event with
      | some server => some ⟨server, s.client⟩
      | none => none
  | .arrive circumstances =>
    match s.server.connections[k]? with
    | some connection =>
      match s.client.sent[connection.received.length]? with
      | some message =>
        match s.server.step (.receive k (wire.arrive message) circumstances) with
        | some server => some ⟨server, s.client⟩
        | none => none
      | none => none
    | none => none
  | .hear =>
    match s.server.connections[k]? with
    | some connection =>
      match connection.handler.ws[s.client.received.length]? with
      | some message =>
        match s.client.step (.hear (wire.hearing message)) with
        | some client => some ⟨s.server, client⟩
        | none => none
      | none => none
    | none => none
  | .push event =>
    match s.server.connections[k]? with
    | some connection =>
      if connection.task.isOpen then
        let handler := (connection.handler.sendEvent none event).1
        some ⟨⟨s.server.registry, s.server.connections.set k { connection with handler := handler }⟩,
          s.client⟩
      else none
    | none => none

variable {wire : Wire} {k : Nat} {s t : System σ} {event : SystemEvent}

/-- Everything a step can be. -/
inductive Taken (wire : Wire) (k : Nat) (s : System σ) : SystemEvent → System σ → Prop
  | client {event : ClientEvent Request ResponseData} {client : Client Request ResponseData}
    (hhear : Client.isHear event = false) (h : s.client.step event = some client) :
    Taken wire k s (.client event) ⟨s.server, client⟩
  | server {event : ServerEvent} {server : Server σ} (hreceive : isReceive k event = false)
    (h : s.server.step event = some server) : Taken wire k s (.server event) ⟨server, s.client⟩
  | arrive {circumstances : SmoothTurn} {connection : Connection}
    {message : ClientMessage Request} {server : Server σ}
    (hconnection : s.server.connections[k]? = some connection)
    (hmessage : s.client.sent[connection.received.length]? = some message)
    (h : s.server.step (.receive k (wire.arrive message) circumstances) = some server) :
    Taken wire k s (.arrive circumstances) ⟨server, s.client⟩
  | hear {connection : Connection} {message : Outgoing} {client : Client Request ResponseData}
    (hconnection : s.server.connections[k]? = some connection)
    (hmessage : connection.handler.ws[s.client.received.length]? = some message)
    (h : s.client.step (.hear (wire.hearing message)) = some client) :
    Taken wire k s .hear ⟨s.server, client⟩
  | push {event : WsMessage} {connection : Connection}
    (hconnection : s.server.connections[k]? = some connection) :
    Taken wire k s (.push event) ⟨⟨s.server.registry, s.server.connections.set k
      { connection with handler := (connection.handler.sendEvent none event).1 }⟩, s.client⟩

/-- A step of the whole is one of these. -/
theorem taken_of_step (h : step wire k s event = some t) : Taken wire k s event t := by
  cases event with
  | client event =>
    unfold step at h
    dsimp only at h
    split at h
    next => simp at h
    next hhear =>
      split at h
      next client hclient =>
        obtain rfl := Option.some.inj h
        exact .client (Bool.eq_false_iff.mpr hhear) hclient
      next => simp at h
  | server event =>
    unfold step at h
    dsimp only at h
    split at h
    next => simp at h
    next hreceive =>
      split at h
      next server hserver =>
        obtain rfl := Option.some.inj h
        exact .server (Bool.eq_false_iff.mpr hreceive) hserver
      next => simp at h
  | arrive circumstances =>
    unfold step at h
    dsimp only at h
    split at h
    next connection hconnection =>
      split at h
      next message hmessage =>
        split at h
        next server hserver =>
          obtain rfl := Option.some.inj h
          exact .arrive hconnection hmessage hserver
        next => simp at h
      next => simp at h
    next => simp at h
  | hear =>
    unfold step at h
    dsimp only at h
    split at h
    next connection hconnection =>
      split at h
      next message hmessage =>
        split at h
        next client hclient =>
          obtain rfl := Option.some.inj h
          exact .hear hconnection hmessage hclient
        next => simp at h
      next => simp at h
    next => simp at h
  | push event =>
    unfold step at h
    dsimp only at h
    split at h
    next connection hconnection =>
      split at h
      next =>
        obtain rfl := Option.some.inj h
        exact .push hconnection
      next => simp at h
    next => simp at h

/-! ## The invariant -/

/-- What the connection with the client has sent. -/
def sentTo (k : Nat) (server : Server σ) : List Outgoing :=
  match server.connections[k]? with
  | some connection => connection.handler.ws
  | none => []

/-- The two streams deliver in order, and each side keeps to its own rules. -/
structure Joined (wire : Wire) (k : Nat) (s : System σ) : Prop where
  linked : s.client.Linked
  carried : s.client.Carried
  consistent : ∀ connection ∈ s.server.connections, connection.Consistent
  arrived : ∀ connection, s.server.connections[k]? = some connection →
    connection.received <+: s.client.sent.map wire.arrive
  heard : s.client.received <+: (sentTo k s.server).map wire.hearing

omit [RegistryBackend σ] in
/-- At the start both have nothing. -/
theorem joined_start (wire : Wire) (k : Nat) (registry : Registry σ) :
    (start registry).Joined wire k := by
  refine ⟨Client.linked_connect, ?_, ?_, ?_, ?_⟩
  · intro id request hmem
    simp [start, Client.connect] at hmem
  · intro connection hmem
    simp [start, Server.start] at hmem
  · intro connection hconnection
    simp [start, Server.start] at hconnection
  · exact List.nil_prefix

/-- A pushed event adds no response. -/
theorem sendEvent_grows (handler : ConnectionHandler) (event : WsMessage) :
    handler.ws <+: (handler.sendEvent none event).1.ws ∧
      responses (handler.sendEvent none event).1.ws = responses handler.ws := by
  cases event with
  | event eventType data =>
    unfold ConnectionHandler.sendEvent
    dsimp only
    split
    next =>
      refine ⟨List.prefix_append _ _, ?_⟩
      exact (responses_append _ _).trans (List.append_nil _)
    next => exact ⟨List.prefix_refl _, rfl⟩

/-- The server takes a step on its side. -/
theorem joined_server (hs : s.Joined wire k) {event : ServerEvent} {server : Server σ}
    (h : s.server.step event = some server)
    (harrived : ∀ incoming circumstances connection, event = .receive k incoming circumstances →
      s.server.connections[k]? = some connection →
      connection.received ++ [incoming] <+: s.client.sent.map wire.arrive) :
    (System.mk server s.client).Joined wire k := by
  refine ⟨hs.linked, hs.carried, Server.consistent_step h hs.consistent, ?_, ?_⟩
  · intro connection hconnection
    rcases Server.moved_grows (Server.moved_of_step h hconnection) with
      ⟨_, hnil⟩ | ⟨before, hbefore, _, hsame | ⟨incoming, circumstances, hevent, hmore⟩⟩
    · rw [hnil]
      exact List.nil_prefix
    · rw [hsame]
      exact hs.arrived before hbefore
    · rw [hmore]
      exact harrived incoming circumstances before hevent hbefore
  · refine hs.heard.trans (List.IsPrefix.map _ ?_)
    unfold sentTo
    cases hconnection : server.connections[k]? with
    | none =>
      have hbefore : s.server.connections[k]? = none := by
        rw [List.getElem?_eq_none_iff] at hconnection ⊢
        exact Nat.le_trans (Server.length_step h) hconnection
      rw [hbefore]
    | some connection =>
      rcases Server.moved_grows (Server.moved_of_step h hconnection) with
        ⟨hnone, _⟩ | ⟨before, hbefore, hgrows, _⟩
      · rw [hnone]
        exact List.nil_prefix
      · rw [hbefore]
        exact hgrows

/-- One step keeps the two ends joined. -/
theorem joined_step (hs : s.Joined wire k) (h : step wire k s event = some t) :
    t.Joined wire k := by
  -- a step of one side alone leaves the other's record as it is, a joint one adds to both
  cases taken_of_step h with
  | client hhear hclient =>
    refine ⟨Client.linked_step hs.linked hclient, Client.carried_step hs.carried hclient,
      hs.consistent, ?_, ?_⟩
    · intro connection hconnection
      exact (hs.arrived connection hconnection).trans
        (List.IsPrefix.map _ (Client.sent_step hclient))
    · rw [Client.received_step hclient hhear]
      exact hs.heard
  | server hreceive hserver =>
    refine joined_server hs hserver ?_
    intro incoming circumstances connection hevent
    rw [hevent] at hreceive
    simp [isReceive] at hreceive
  | @arrive circumstances connection message server hconnection hmessage hserver =>
    refine joined_server hs hserver ?_
    intro incoming circumstances' connection' hevent hconnection'
    obtain rfl := Option.some.inj (hconnection.symm.trans hconnection')
    obtain ⟨_, rfl, _⟩ := ServerEvent.receive.inj hevent
    exact prefix_concat (hs.arrived connection hconnection) (by simp [hmessage])
  | @hear connection message client hconnection hmessage hclient =>
    refine ⟨Client.linked_step hs.linked hclient, Client.carried_step hs.carried hclient,
      hs.consistent, ?_, ?_⟩
    · intro connection' hconnection'
      exact (hs.arrived connection' hconnection').trans
        (List.IsPrefix.map _ (Client.sent_step hclient))
    · have hreceived : client.received = s.client.received ++ [wire.hearing message] := by
        cases Client.taken_of_step hclient with
        | hear =>
          obtain ⟨calls, pending, heq, _⟩ := s.client.handleMessage_eq (wire.hearing message)
          rw [heq]
      rw [hreceived]
      refine prefix_concat hs.heard ?_
      simp [sentTo, hconnection, hmessage]
  | @push event connection hconnection =>
    obtain ⟨hgrows, hresponses⟩ := sendEvent_grows connection.handler event
    have hconsistent := hs.consistent connection (List.mem_of_getElem? hconnection)
    refine ⟨hs.linked, hs.carried, ?_, ?_, ?_⟩
    · intro other hmem
      rcases List.mem_or_eq_of_mem_set hmem with hmem | rfl
      · exact hs.consistent other hmem
      · exact ⟨hresponses.trans hconsistent.sent, hconsistent.inOrder⟩
    · intro other hother
      rcases some_of_getElem?_set hother with ⟨_, rfl⟩ | ⟨hne, _⟩
      · exact hs.arrived connection hconnection
      · exact absurd rfl hne
    · refine hs.heard.trans (List.IsPrefix.map _ ?_)
      simp only [sentTo, hconnection, List.getElem?_set_self']
      exact hgrows

/-! ## Correlation -/

/-- Requests and responses belong together. The connection has sent its answers and no
other response, and they are to the requests it has received from the client, in order,
but for one it is working on (`answered`). A call that a message has completed has
returned what was answered to its own id and request, and the message is the response
that says so (`completed`). No message is for two calls (`once`). -/
structure Correlated (k : Nat) (s : System σ) : Prop where
  answered : ∀ connection : Connection, s.server.connections[k]? = some connection →
    responses connection.handler.ws = connection.answers.map Answer.message ∧
      connection.answers.map Answer.asked ++ connection.task.inProgress =
        (s.client.sent.take connection.received.length).filterMap ClientMessage.asked
  completed : ∀ (i : Nat) (call : Call Request ResponseData) (result : Except Error ResponseData),
    s.client.calls[i]? = some call → call.phase = .answered result →
    ∃ (connection : Connection) (n : Nat) (answer : Answer),
      s.server.connections[k]? = some connection ∧ call.channel = some (n, result) ∧
      answer ∈ connection.answers ∧ connection.handler.ws[n]? = some (.text answer.message) ∧
      answer.asked = (call.id, some call.request) ∧ result = answer.result
  once : ∀ (i j n : Nat) (call other : Call Request ResponseData)
    (result result' : Except Error ResponseData), s.client.calls[i]? = some call →
    s.client.calls[j]? = some other → call.channel = some (n, result) →
    other.channel = some (n, result') → i = j

omit [RegistryBackend σ] in
/-- Whatever was answered is the request of a call. -/
theorem called_of_answer (hs : s.Joined wire k) {connection : Connection}
    (hconnection : s.server.connections[k]? = some connection) {answer : Answer}
    (hanswer : answer ∈ connection.answers) :
    ∃ request, answer.request = some request ∧ s.client.Called answer.id request := by
  have hinOrder := (hs.consistent connection (List.mem_of_getElem? hconnection)).inOrder
  have hmem : answer.asked ∈ connection.received.filterMap Incoming.asked := by
    rw [← hinOrder]
    exact List.mem_append_left _ (List.mem_map_of_mem hanswer)
  obtain ⟨incoming, hreceived, hasked⟩ := List.mem_filterMap.mp hmem
  obtain ⟨message, hsent, rfl⟩ :=
    List.mem_map.mp ((hs.arrived connection hconnection).subset hreceived)
  rw [wire.asked_arrive] at hasked
  cases message with
  | request id request =>
    obtain ⟨hid, hrequest⟩ := Prod.mk.inj (Option.some.inj hasked)
    refine ⟨request, hrequest.symm, ?_⟩
    rw [← hid]
    exact hs.carried id request (List.mem_append_left _ hsent)
  | close => cases hasked

omit [RegistryBackend σ] in
/-- The message that has brought a call its result. -/
theorem response_of_channel (hs : s.Joined wire k) {i n : Nat} {call : Call Request ResponseData}
    {result : Except Error ResponseData} (hcall : s.client.calls[i]? = some call)
    (hchannel : call.channel = some (n, result)) :
    ∃ connection answer, s.server.connections[k]? = some connection ∧
      answer ∈ connection.answers ∧ connection.handler.ws[n]? = some (.text answer.message) ∧
      answer.id = call.id ∧ result = answer.result := by
  obtain ⟨_, data, error, hreceived, rfl⟩ := hs.linked.answered hcall hchannel
  have hheard : ((sentTo k s.server).map wire.hearing)[n]? =
      some (.response call.id data error) := by
    obtain ⟨rest, heq⟩ := hs.heard
    rw [← heq]
    exact getElem?_append_of_some hreceived rest
  rw [List.getElem?_map, Option.map_eq_some_iff] at hheard
  obtain ⟨message, hsent, hhearing⟩ := hheard
  obtain ⟨info, rfl, rfl⟩ := Wire.hearing_response hhearing
  cases hconnection : s.server.connections[k]? with
  | none => simp [sentTo, hconnection] at hsent
  | some connection =>
    rw [sentTo, hconnection] at hsent
    have hresponse : ServerMessage.response call.id data info ∈ responses connection.handler.ws :=
      List.mem_filterMap.mpr ⟨_, List.mem_of_getElem? hsent, rfl⟩
    rw [(hs.consistent connection (List.mem_of_getElem? hconnection)).sent] at hresponse
    obtain ⟨answer, hanswer, hmessage⟩ := List.mem_map.mp hresponse
    obtain ⟨hid, houtcome⟩ := Answer.outcome_message hmessage
    exact ⟨connection, answer, rfl, hanswer, by rw [hmessage]; exact hsent, hid, houtcome⟩

omit [RegistryBackend σ] in
/-- Joined ends correlate answers with requests. -/
theorem correlated_of_joined (hs : s.Joined wire k) : s.Correlated k := by
  constructor
  · intro connection hconnection
    have hconsistent := hs.consistent connection (List.mem_of_getElem? hconnection)
    have harrived := List.prefix_iff_eq_take.mp (hs.arrived connection hconnection)
    rw [← List.map_take] at harrived
    refine ⟨hconsistent.sent, hconsistent.inOrder.trans ?_⟩
    calc connection.received.filterMap Incoming.asked
        = ((s.client.sent.take connection.received.length).map wire.arrive).filterMap
            Incoming.asked := congrArg _ harrived
      _ = (s.client.sent.take connection.received.length).filterMap ClientMessage.asked := by
          rw [List.filterMap_map]
          congr 1
          funext message
          exact wire.asked_arrive message
  · intro i call result hcall hphase
    obtain ⟨n, hchannel⟩ := hs.linked.delivered hcall hphase
    obtain ⟨connection, answer, hconnection, hanswer, hsent, hid, hresult⟩ :=
      response_of_channel hs hcall hchannel
    obtain ⟨request, hrequest, other, hmem, hoid, horequest⟩ :=
      called_of_answer hs hconnection hanswer
    -- the ids are distinct, so the request that was answered is that of the call
    obtain ⟨j, hother⟩ := List.mem_iff_getElem?.mp hmem
    obtain rfl := hs.linked.ids hcall hother (hid.symm.trans hoid.symm)
    obtain rfl := Option.some.inj (hcall.symm.trans hother)
    refine ⟨connection, n, answer, hconnection, hchannel, hanswer, hsent, ?_, hresult⟩
    unfold Answer.asked
    rw [hid, hrequest, horequest]
  · intro i j n call other result result' hcall hother hchannel hchannel'
    obtain ⟨_, data, error, hreceived, _⟩ := hs.linked.answered hcall hchannel
    obtain ⟨_, data', error', hreceived', _⟩ := hs.linked.answered hother hchannel'
    have hsame := Option.some.inj (hreceived.symm.trans hreceived')
    exact hs.linked.ids hcall hother (Heard.response.inj hsame).1

/-- For any number of connections and of calls on the client, and any interleaving of the
calls, of what the two streams deliver, of what the server does for others and of the
events it pushes: requests and responses are correlated. -/
theorem requests_correlated (wire : Wire) (k : Nat) (registry : Registry σ)
    (events : List SystemEvent) (t : System σ)
    (hrun : run (step wire k) (start registry) events = some t) : t.Correlated k :=
  correlated_of_joined
    (run_preserves (fun _ _ _ hs h => joined_step hs h) (joined_start wire k registry) hrun)

/-- A wire on which the messages themselves travel. -/
def plainWire : Wire where
  Text := (String × Request) ⊕ ServerMessage
  writeRequest id request := .inl (id, request)
  readRequest
    | .inl (id, request) => .ok (.request id request)
    | .inr _ => .ok .other
  writeMessage := .inr
  readMessage
    | .inl _ => .request
    | .inr (.response id data error) => .response id data (error.map ErrorInfo.message)
    | .inr _ => .event
  read_request _ _ := rfl
  read_response _ _ _ := rfl
  read_registryLoaded _ := rfl
  read_pushed _ := rfl

/-- The client hears the first event, and two calls run at once. Both requests are sent before
one is answered, that of the second call first. -/
def listed : List SystemEvent :=
  [.server (.accept (.v4 0x7f000001 40000) Server.untroubled), .hear,
    .client (.register "1" .listServices), .client (.register "2" .listEndpoints),
    .client (.enqueue 1), .client (.enqueue 0), .client .transmit, .client .transmit,
    .arrive Server.untroubled, .hear, .arrive Server.untroubled, .client (.complete 1), .hear,
    .client (.complete 0)]

/-- Two calls at once. -/
theorem requests_correlated_listed : ∃ t : System (SledStore Serde.numbered),
    run (step plainWire 0) (start (Registry.new Serde.numbered)) listed = some t ∧
      t.Correlated 0 :=
  ⟨_, rfl, requests_correlated plainWire 0 _ listed _ rfl⟩

end System

end GraphHarness.ServiceRegistry
