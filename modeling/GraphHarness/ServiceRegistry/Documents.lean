import GraphHarness.ServiceRegistry.Answers
import GraphHarness.ServiceRegistry.Requests
import GraphHarness.Trace.Simulation

/-!
# Typed calls over documents

The client and the server of `Correlation.lean`, but on the wire there are documents: the
methods of the client write their requests and read the data of the responses, and the
server reads requests and writes messages.

> `typed_calls_answered` — **in every run** a method that has been answered returns what the
> server has answered to its own request: the error as it is displayed, or data of the
> type that the method promises, and never an error of its own about what it has received.

The link is a run in which the messages themselves travel: what the client holds as a value
stands beside what the server has answered (`Mirrors`).

The documents are normalized on the way, as `serde_json::Value` is, so a map may come in
another order and flow labels are lost; what a method returns therefore agrees with the answer
up to these (`Shows`). Requests come back as they were meant (`arrive_eq`).

`Texts` are the texts of addresses and times, which other crates write; their laws are that an
address is read back without its flow label and a time as it was. `unaryTexts` satisfies them.
-/

namespace GraphHarness.ServiceRegistry

open GraphHarness.Serde
open Trace (run run_preserves run_of_simulation)

/-! ## What a method returns -/

/-- What a method has read is what the server has written. -/
def TypedResult.Shows : TypedResult → ResponseData → Prop
  | .services read, .services entries => List.Forall₂ ServiceEntry.Same entries read
  | .service read, .service entry => entry.Same read
  | .value read, .reloadInitiated => member "status" read.json = some (.str "reload_initiated")
  | .value read, .stateChange name oldState newState =>
    member "service" read.json = some (.str name) ∧
      member "old_state" read.json = some (.str oldState.variant) ∧
      member "new_state" read.json = some (.str newState.variant)
  | .endpoints read, .endpoints listed =>
    Format.SameLookups (List.Forall₂ Endpoint.Same) listed read
  | .subscribed read, .subscribed subscriptions =>
    read.Nodup ∧ ∀ event, event ∈ read ↔ event ∈ subscriptions
  | _, _ => False

/-- A method that has got the answer returns this. -/
def Answer.ReturnedAs (answer : Answer) (result : Except Error TypedResult) : Prop :=
  match answer.response with
  | .ok data => ∃ typed, result = .ok typed ∧ typed.Shows data
  | .error e => result = .error (.package e.display)

section Results

variable (texts : Texts) (order : SetOrder) (errors : JsonErrors)

/-- A result that is written is read back up to the relation. -/
theorem resultOf_through {α : Type} {f : Format α} {R : α → α → Prop} (hf : f.Through R)
    (call : TypedCall) (x : α) : ∃ y,
      resultOf f errors call (Value.ofJson (f.serialize x)).json = .ok y ∧ R x y := by
  obtain ⟨y, hread, hxy⟩ := hf x
  refine ⟨y, ?_, hxy⟩
  unfold resultOf
  rw [show f.deserialize (Value.ofJson (f.serialize x)).json = _ from hread]

/-- A name that an object has once is found in its value. -/
theorem member_ofJson {name : String} {members : List Member} {j : Json}
    (h : members.filter (fun m => decide (m.1 = name)) = [(name, j)]) :
    member name (Value.ofJson (.obj members)).json = some j.normalize := by
  show ((((Json.normalizeMembers members).filter fun m => decide (m.1 = name))).map
    Prod.snd).head? = _
  rw [Json.filter_normalizeMembers (fun other => decide (other = name)), h]
  rfl

/-- A member of an object that is a text. -/
theorem member_text {name text : String} {members : List Member}
    (h : members.filter (fun m => decide (m.1 = name)) = [(name, .str text)]) :
    member name (Value.ofJson (.obj members)).json = some (.str text) := member_ofJson h

/-- The answer to a subscription shows the types. -/
theorem subscribedOf_shows (call : TypedCall) (invalid : String) (subscriptions : Finset EventType)
    (n : Nat) : ∃ typed, subscribedOf errors call invalid
      ((ResponseData.subscribed subscriptions).value texts order n) = .ok typed ∧
      typed.Shows (.subscribed subscriptions) := by
  have hmember : member "subscribed"
      ((ResponseData.subscribed subscriptions).value texts order n).json =
        some (eventsFormat.serialize (order.iter n subscriptions)).normalize :=
    member_ofJson (by simp)
  obtain ⟨read, hread, rfl⟩ :=
    resultOf_through errors eventsFormat_through call (order.iter n subscriptions)
  refine ⟨.subscribed (order.iter n subscriptions), ?_, order.nodup n _, order.mem_iter n _⟩
  unfold subscribedOf
  rw [hmember]
  dsimp only
  rw [show resultOf eventsFormat errors call
    (eventsFormat.serialize (order.iter n subscriptions)).normalize = _ from hread]
  rfl

/-- A method reads the data that its request is answered with. -/
theorem result_shows {call : TypedCall} {data : ResponseData}
    (h : call.request.AnsweredBy data) (n : Nat) : ∃ typed,
      call.result texts errors (.ok (data.value texts order n)) = .ok typed ∧
        typed.Shows data := by
  cases call with
  | listServices =>
    cases data with
    | services entries =>
      obtain ⟨read, hread, hsame⟩ :=
        resultOf_through errors (ServiceEntry.through texts).list .listServices entries
      have hresult := congrArg (Except.map TypedResult.services) hread
      exact ⟨.services read, hresult, hsame⟩
    | _ => exact h.elim
  | getService name =>
    cases data with
    | service entry =>
      obtain ⟨read, hread, hsame⟩ :=
        resultOf_through errors (ServiceEntry.through texts) (.getService name) entry
      have hresult := congrArg (Except.map TypedResult.service) hread
      exact ⟨.service read, hresult, hsame⟩
    | _ => exact h.elim
  | serviceAction name action =>
    refine ⟨.value (data.value texts order n), rfl, ?_⟩
    cases data with
    | reloadInitiated =>
      have hstatus : [("status", Json.str "reload_initiated")].filter
          (fun m => decide (m.1 = "status")) = [("status", .str "reload_initiated")] := by simp
      exact member_text hstatus
    | stateChange service oldState newState =>
      let members : List Member := [("service", .str service),
        ("old_state", .str oldState.variant), ("new_state", .str newState.variant)]
      have hservice : members.filter (fun m => decide (m.1 = "service")) =
          [("service", .str service)] := by simp [members]
      have hold : members.filter (fun m => decide (m.1 = "old_state")) =
          [("old_state", .str oldState.variant)] := by simp [members]
      have hnew : members.filter (fun m => decide (m.1 = "new_state")) =
          [("new_state", .str newState.variant)] := by simp [members]
      exact ⟨member_text hservice, member_text hold, member_text hnew⟩
    | _ => exact h.elim
  | listEndpoints =>
    cases data with
    | endpoints listed =>
      obtain ⟨read, hread, hsame⟩ :=
        resultOf_through errors (Endpoint.through texts).list.map .listEndpoints listed
      have hresult := congrArg (Except.map TypedResult.endpoints) hread
      exact ⟨.endpoints read, hresult, hsame⟩
    | _ => exact h.elim
  | subscribe events =>
    cases data with
    | subscribed subscriptions =>
      exact subscribedOf_shows texts order errors _ "Invalid subscribe response" subscriptions n
    | _ => exact h.elim
  | unsubscribe events =>
    cases data with
    | subscribed subscriptions =>
      exact subscribedOf_shows texts order errors _ "Invalid unsubscribe response" subscriptions n
    | _ => exact h.elim
  | deployPackage packagePath targetNode => exact h.elim

end Results

/-! ## The two sides -/

/-- What arrives of a message of the client. -/
def arriveDocument (errors : JsonErrors) : ClientMessage TypedCall → Incoming
  | .request id call =>
    .text (readText errors
      (MessageFormat.WsMessage.format.serialize (.request id call.action call.params)))
  | .close => .close

/-- What is heard of the `n`th message of the server. -/
def hearDocument (texts : Texts) (order : SetOrder) (n : Nat) : Outgoing → Heard Value
  | .text message =>
    MessageFormat.heard (MessageFormat.WsMessage.format.serialize (message.write texts order n))
  | .pong _ => .frame

section Events

variable {ρ ρ' V V' : Type}

/-- An event is one of hearing or not, whatever the data. -/
theorem isHear_map (f : ρ → ρ') (g : V → V') (event : ClientEvent ρ V) :
    Client.isHear (event.map f g) = Client.isHear event := by
  cases event with
  | _ => rfl

/-- Only what is heard has data in it. -/
theorem exists_map_eq (g : V → V') {event : ClientEvent ρ V'} (h : Client.isHear event = false) :
    ∃ event' : ClientEvent ρ V, event'.map id g = event := by
  cases event with
  | register id request => exact ⟨.register id request, rfl⟩
  | enqueue i => exact ⟨.enqueue i, rfl⟩
  | complete i => exact ⟨.complete i, rfl⟩
  | abandon i => exact ⟨.abandon i, rfl⟩
  | close => exact ⟨.close, rfl⟩
  | dropHandles => exact ⟨.dropHandles, rfl⟩
  | transmit => exact ⟨.transmit, rfl⟩
  | hear message => cases h
  | exit reason => exact ⟨.exit reason, rfl⟩

/-- Two maps after each other. -/
theorem Heard.map_map {V'' : Type} (g : V → V') (g' : V' → V'') (message : Heard V) :
    (message.map g).map g' = message.map (g' ∘ g) := by
  cases message with
  | response id data error => simp [Heard.map]
  | _ => rfl

/-- The map that changes nothing. -/
theorem Heard.map_id (message : Heard V) : message.map id = message := by
  cases message with
  | response id data error => simp [Heard.map]
  | _ => rfl

end Events

/-- A server and one of its clients, with documents between them. -/
structure Documents (σ : Type) where
  server : Server σ
  client : Client TypedCall Value

/-- A step of either, or a document between them. -/
inductive DocumentEvent where
  | client (event : ClientEvent TypedCall Value)
  | server (event : ServerEvent)
  | arrive (circumstances : SmoothTurn)
  | hear
  | push (event : WsMessage)

namespace Documents

variable {σ : Type} [RegistryBackend σ]

/-- The server is started and the client connected, and nothing was sent. -/
def start (registry : Registry σ) : Documents σ := ⟨Server.start registry, .connect⟩

/-- One step. The client's connection is the `k`th one of the server. -/
def step (texts : Texts) (order : SetOrder) (errors : JsonErrors) (k : Nat) (s : Documents σ) :
    DocumentEvent → Option (Documents σ)
  | .client event =>
    if Client.isHear event then none
    else match s.client.step event with
      | some client => some ⟨s.server, client⟩
      | none => none
  | .server event =>
    if System.isReceive k event then none
    else match s.server.step event with
      | some server => some ⟨server, s.client⟩
      | none => none
  | .arrive circumstances =>
    match s.server.connections[k]? with
    | some connection =>
      match s.client.sent[connection.received.length]? with
      | some message =>
        match s.server.step (.receive k (arriveDocument errors message) circumstances) with
        | some server => some ⟨server, s.client⟩
        | none => none
      | none => none
    | none => none
  | .hear =>
    let n := s.client.received.length
    match s.server.connections[k]? with
    | some connection =>
      match connection.handler.ws[n]? with
      | some message =>
        match s.client.step (.hear (hearDocument texts order n message)) with
        | some client => some ⟨s.server, client⟩
        | none => none
      | none => none
    | none => none
  | .push event =>
    match s.server.connections[k]? with
    | some connection =>
      if connection.task.isOpen then
        let handler := (connection.handler.sendEvent none event).1
        some ⟨⟨s.server.registry, s.server.connections.set k { connection with handler := handler }⟩,
          s.client⟩
      else none
    | none => none


/-- Everything a step can be. -/
inductive Taken (texts : Texts) (order : SetOrder) (errors : JsonErrors) (k : Nat)
    (s : Documents σ) : DocumentEvent → Documents σ → Prop
  | client {event : ClientEvent TypedCall Value} {client : Client TypedCall Value}
    (hhear : Client.isHear event = false) (h : s.client.step event = some client) :
    Taken texts order errors k s (.client event) ⟨s.server, client⟩
  | server {event : ServerEvent} {server : Server σ}
    (hreceive : System.isReceive k event = false) (h : s.server.step event = some server) :
    Taken texts order errors k s (.server event) ⟨server, s.client⟩
  | arrive {circumstances : SmoothTurn} {connection : Connection}
    {message : ClientMessage TypedCall} {server : Server σ}
    (hconnection : s.server.connections[k]? = some connection)
    (hmessage : s.client.sent[connection.received.length]? = some message)
    (h : s.server.step (.receive k (arriveDocument errors message) circumstances) = some server) :
    Taken texts order errors k s (.arrive circumstances) ⟨server, s.client⟩
  | hear {connection : Connection} {message : Outgoing} {client : Client TypedCall Value}
    (hconnection : s.server.connections[k]? = some connection)
    (hmessage : connection.handler.ws[s.client.received.length]? = some message)
    (h : s.client.step
      (.hear (hearDocument texts order s.client.received.length message)) = some client) :
    Taken texts order errors k s .hear ⟨s.server, client⟩
  | push {event : WsMessage} {connection : Connection}
    (hconnection : s.server.connections[k]? = some connection)
    (hopen : connection.task.isOpen = true) :
    Taken texts order errors k s (.push event) ⟨⟨s.server.registry, s.server.connections.set k
      { connection with handler := (connection.handler.sendEvent none event).1 }⟩, s.client⟩

/-- A step of the whole is one of these. -/
theorem taken_of_step {texts : Texts} {order : SetOrder} {errors : JsonErrors} {k : Nat}
    {s t : Documents σ} {event : DocumentEvent}
    (h : step texts order errors k s event = some t) : Taken texts order errors k s event t := by
  cases event with
  | client event =>
    unfold step at h
    dsimp only at h
    split at h
    next => cases h
    next hhear =>
      split at h
      next client hclient =>
        obtain rfl := Option.some.inj h
        exact .client (Bool.eq_false_iff.mpr hhear) hclient
      next => cases h
  | server event =>
    unfold step at h
    dsimp only at h
    split at h
    next => cases h
    next hreceive =>
      split at h
      next server hserver =>
        obtain rfl := Option.some.inj h
        exact .server (Bool.eq_false_iff.mpr hreceive) hserver
      next => cases h
  | arrive circumstances =>
    unfold step at h
    dsimp only at h
    split at h
    next connection hconnection =>
      split at h
      next message hmessage =>
        split at h
        next server hserver =>
          obtain rfl := Option.some.inj h
          exact .arrive hconnection hmessage hserver
        next => cases h
      next => cases h
    next => cases h
  | hear =>
    unfold step at h
    dsimp only at h
    split at h
    next connection hconnection =>
      split at h
      next message hmessage =>
        split at h
        next client hclient =>
          obtain rfl := Option.some.inj h
          exact .hear hconnection hmessage hclient
        next => cases h
      next => cases h
    next => cases h
  | push event =>
    unfold step at h
    dsimp only at h
    split at h
    next connection hconnection =>
      split at h
      next hopen =>
        obtain rfl := Option.some.inj h
        exact .push hconnection hopen
      next => cases h
    next => cases h

/-! ## The messages themselves -/

section Mirrors

variable {texts : Texts} {order : SetOrder} {errors : JsonErrors} {k : Nat}

/-- A document that arrives is the request it was written from. -/
theorem arrive_eq (message : ClientMessage TypedCall) :
    arriveDocument errors message = System.plainWire.arrive (message.map TypedCall.request) := by
  cases message with
  | request id call => exact congrArg Incoming.text (readText_call errors id call)
  | close => rfl

/-- A document that is heard is the answer, as a value. -/
theorem hear_eq (n : Nat) (message : Outgoing) : hearDocument texts order n message =
    (System.plainWire.hearing message).map (ResponseData.value texts order n) := by
  cases message with
  | text message => exact heard_write message
  | pong data => rfl

/-- What the server has answered, and the value that the client holds for it. -/
structure Encoded (texts : Texts) (order : SetOrder) where
  data : ResponseData
  value : Value
  written : ∃ n, value = data.value texts order n

/-- Both the client that holds values and the one that holds the data itself are seen in a
client that holds the two together. -/
structure Mirrors (texts : Texts) (order : SetOrder) (s : Documents σ) (t : System σ) : Prop where
  server : t.server = s.server
  client : ∃ joint : Client TypedCall (Encoded texts order),
    joint.map id Encoded.value = s.client ∧ joint.map TypedCall.request Encoded.data = t.client

omit [RegistryBackend σ] in
/-- At the start the two mirror each other. -/
theorem mirrors_start (registry : Registry σ) :
    Mirrors texts order (start registry) (System.start registry) :=
  ⟨rfl, .connect, rfl, rfl⟩

variable {s t : Documents σ} {s' : System σ}

omit [RegistryBackend σ] in
/-- The two clients take one step together. -/
theorem Mirrors.client_step (h : Mirrors texts order s s')
    {event : ClientEvent TypedCall (Encoded texts order)} {client : Client TypedCall Value}
    (hstep : s.client.step (event.map id Encoded.value) = some client) : ∃ client',
      s'.client.step (event.map TypedCall.request Encoded.data) = some client' ∧
        Mirrors texts order ⟨s.server, client⟩ ⟨s'.server, client'⟩ := by
  obtain ⟨joint, hvalue, hdata⟩ := h.client
  rw [← hvalue, Client.step_map] at hstep
  obtain ⟨joint', hjoint, hclient⟩ := Option.map_eq_some_iff.mp hstep
  refine ⟨joint'.map TypedCall.request Encoded.data, ?_, h.server, joint', hclient, rfl⟩
  rw [← hdata, Client.step_map, hjoint]
  rfl

omit [RegistryBackend σ] in
/-- What was sent is mirrored. -/
theorem Mirrors.sent (h : Mirrors texts order s s') :
    s'.client.sent = s.client.sent.map (ClientMessage.map TypedCall.request) := by
  obtain ⟨joint, hvalue, hdata⟩ := h.client
  rw [← hvalue, ← hdata]
  unfold Client.map
  dsimp only
  rw [List.map_map]
  refine List.map_congr_left fun message _ => ?_
  cases message with
  | _ => rfl

omit [RegistryBackend σ] in
/-- So is what was received. -/
theorem Mirrors.received (h : Mirrors texts order s s') :
    s'.client.received.length = s.client.received.length := by
  obtain ⟨joint, hvalue, hdata⟩ := h.client
  rw [← hvalue, ← hdata]
  exact (List.length_map ..).trans (List.length_map ..).symm

omit [RegistryBackend σ] in
/-- What is heard is what was sent, and with it the value that it is written as. -/
theorem Mirrors.hear_step (h : Mirrors texts order s s') {message : Outgoing}
    {client : Client TypedCall Value}
    (hstep : s.client.step (.hear (hearDocument texts order s.client.received.length message)) =
      some client) : ∃ client',
      s'.client.step (.hear (System.plainWire.hearing message)) = some client' ∧
        Mirrors texts order ⟨s.server, client⟩ ⟨s'.server, client'⟩ := by
  let heard : Heard (Encoded texts order) := (System.plainWire.hearing message).map
    fun data => ⟨data, _, s.client.received.length, rfl⟩
  have hvalue : hearDocument texts order s.client.received.length message =
      heard.map Encoded.value := by
    rw [hear_eq, Heard.map_map]
    rfl
  have hdata : System.plainWire.hearing message = heard.map Encoded.data := by
    rw [Heard.map_map]
    exact (Heard.map_id _).symm
  rw [hvalue] at hstep
  rw [hdata]
  have hjoint : s.client.step (ClientEvent.map id Encoded.value (.hear heard)) = some client :=
    hstep
  exact h.client_step hjoint

/-- Each step over documents is one with the messages themselves. -/
theorem mirrors_step (h : Mirrors texts order s s') {event : DocumentEvent}
    (hstep : step texts order errors k s event = some t) :
    ∃ event' t', System.step System.plainWire k s' event' = some t' ∧
      Mirrors texts order t t' := by
  obtain ⟨server, client'⟩ := s'
  obtain rfl : server = s.server := h.server
  cases taken_of_step hstep with
  | @client event client hhear hclient =>
    let value : Encoded texts order → Value := Encoded.value
    obtain ⟨joint, rfl⟩ := exists_map_eq value hhear
    obtain ⟨mirrored, hmirrored, hmirrors⟩ := h.client_step hclient
    rw [isHear_map] at hhear
    refine ⟨.client (joint.map TypedCall.request Encoded.data), _, ?_, hmirrors⟩
    simp [System.step, isHear_map, hhear, hmirrored]
  | @server event server hreceive hserver =>
    refine ⟨.server event, ⟨server, client'⟩, ?_, rfl, h.client⟩
    simp [System.step, hreceive, hserver]
  | @arrive circumstances connection message server hconnection hmessage hserver =>
    have hsent : client'.sent[connection.received.length]? =
        some (message.map TypedCall.request) := by
      rw [h.sent, List.getElem?_map, hmessage]
      rfl
    rw [arrive_eq] at hserver
    refine ⟨.arrive circumstances, ⟨server, client'⟩, ?_, rfl, h.client⟩
    simp [System.step, hconnection, hsent, hserver]
  | @hear connection message client hconnection hmessage hclient =>
    obtain ⟨mirrored, hmirrored, hmirrors⟩ := h.hear_step hclient
    have hlength : client'.received.length = s.client.received.length := h.received
    refine ⟨.hear, _, ?_, hmirrors⟩
    simp [System.step, hconnection, hlength, hmessage, hmirrored]
  | @push event connection hconnection hopen =>
    refine ⟨.push event, ⟨_, client'⟩, ?_, rfl, h.client⟩
    simp [System.step, hconnection, hopen]

end Mirrors

/-! ## Typed calls -/

/-- Whatever method has been answered, the connection has answered its request, with data
that fits it, and this is what the method returns. -/
def Answered (texts : Texts) (errors : JsonErrors) (k : Nat) (s : Documents σ) : Prop :=
  ∀ (i : Nat) (call : Call TypedCall Value) (received : Except Error Value),
    s.client.calls[i]? = some call → call.phase = .answered received →
    ∃ (connection : Connection) (answer : Answer), s.server.connections[k]? = some connection ∧
      answer ∈ connection.answers ∧ answer.asked = (call.id, some call.request.request) ∧
      answer.Fits ∧ answer.ReturnedAs (call.request.result texts errors received)

variable {texts : Texts} {order : SetOrder} {errors : JsonErrors} {k : Nat}

omit [RegistryBackend σ] in
/-- What a call has received beside what the server has answered it. -/
theorem Mirrors.answered {s : Documents σ} {t : System σ} (h : Mirrors texts order s t) {i : Nat}
    {call : Call TypedCall Value} {received : Except Error Value}
    (hcall : s.client.calls[i]? = some call) (hphase : call.phase = .answered received) :
    ∃ (mirrored : Call Request ResponseData) (result : Except Error (Encoded texts order)),
      t.client.calls[i]? = some mirrored ∧ mirrored.id = call.id ∧
      mirrored.request = call.request.request ∧
      mirrored.phase = .answered (result.map Encoded.data) ∧
      received = result.map Encoded.value := by
  obtain ⟨joint, hvalue, hdata⟩ := h.client
  rw [← hvalue] at hcall
  obtain ⟨both, hboth, rfl⟩ := Option.map_eq_some_iff.mp (List.getElem?_map.symm.trans hcall)
  obtain ⟨id, request, phase, channel⟩ := both
  cases phase with
  | answered result =>
    refine ⟨Call.map TypedCall.request Encoded.data ⟨id, request, .answered result, channel⟩,
      result, ?_, rfl, rfl, rfl, (Phase.answered.inj hphase).symm⟩
    rw [← hdata]
    exact List.getElem?_map.trans (congrArg _ hboth)
  | _ => cases hphase

/-- A method returns what its request has been answered. -/
theorem returnedAs_of_fits {answer : Answer} {call : TypedCall} (hfits : answer.Fits)
    (hrequest : answer.request = some call.request)
    {result : Except Error (Encoded texts order)}
    (hresult : result.map Encoded.data = answer.result) :
    answer.ReturnedAs (call.result texts errors (result.map Encoded.value)) := by
  unfold Answer.ReturnedAs
  unfold Answer.result at hresult
  cases hresponse : answer.response with
  | error e =>
    rw [hresponse] at hresult
    cases result with
    | error received => exact congrArg Except.error (Except.error.inj hresult)
    | ok encoded => cases hresult
  | ok data =>
    rw [hresponse] at hresult
    cases result with
    | error received => cases hresult
    | ok encoded =>
      obtain ⟨data', value, n, rfl⟩ := encoded
      obtain rfl : data' = data := Except.ok.inj hresult
      exact result_shows texts order errors (hfits _ _ hrequest hresponse) n

/-- For any number of typed calls on the client, however they interleave with what the two
streams deliver, with what the server does for others and with the events it pushes: every
method that is answered returns what the server has answered to its own request. -/
theorem typed_calls_answered [LawfulBackend σ] (texts : Texts) (order : SetOrder)
    (errors : JsonErrors) (k : Nat) (registry : Registry σ) (events : List DocumentEvent)
    (t : Documents σ) (hrun : run (step texts order errors k) (start registry) events = some t) :
    t.Answered texts errors k := by
  obtain ⟨events', t', hrun', hmirrors⟩ :=
    run_of_simulation (fun _ _ _ _ h hstep => mirrors_step h hstep) (mirrors_start registry) hrun
  have hcorrelated := System.correlated_of_joined
    (run_preserves (fun _ _ _ hs h => System.joined_step hs h)
      (System.joined_start System.plainWire k registry) hrun')
  have hfit := System.answers_fit hrun'
  intro i call received hcall hphase
  obtain ⟨mirrored, result, hmirrored, hid, hrequest, hanswered, rfl⟩ :=
    hmirrors.answered hcall hphase
  obtain ⟨connection, _, answer, hconnection, _, hanswer, _, hasked, hresult⟩ :=
    hcorrelated.completed i mirrored _ hmirrored hanswered
  rw [hid, hrequest] at hasked
  have hfits := hfit connection (List.mem_of_getElem? hconnection) answer hanswer
  refine ⟨connection, answer, ?_, hanswer, hasked, hfits, ?_⟩
  · rw [← hmirrors.server]
    exact hconnection
  · exact returnedAs_of_fits hfits (Prod.mk.inj hasked).2 hresult

/-! A text of so many characters, and sets in the order of the declaration. -/

/-- A number as that many digits. -/
def unary (n : Nat) : String := String.ofList (List.replicate n '1')

/-- The number is the length. -/
theorem length_unary (n : Nat) : (unary n).length = n := by simp [unary]

/-- An address as numbers, without its flow label. -/
def packed : SocketAddr → Nat × Nat ⊕ Nat × Nat × Nat
  | .v4 ip port => .inl (ip.toNat, port.toNat)
  | .v6 ip port _ scopeId => .inr (ip.toNat, port.toNat, scopeId.toNat)

/-- The address of such numbers. -/
def unpacked : Nat × Nat ⊕ Nat × Nat × Nat → SocketAddr
  | .inl (ip, port) => .v4 (.ofNat ip) (.ofNat port)
  | .inr (ip, port, scopeId) => .v6 (.ofNat 128 ip) (.ofNat port) 0 (.ofNat scopeId)

/-- The flow label is lost, and nothing else. -/
theorem unpacked_packed (addr : SocketAddr) : unpacked (packed addr) = addr.withoutFlow := by
  cases addr with
  | v4 ip port => simp [packed, unpacked, SocketAddr.withoutFlow]
  | v6 ip port flowinfo scopeId => simp [packed, unpacked, SocketAddr.withoutFlow]

/-- Texts that can be read back, for the example. -/
def unaryTexts : Texts where
  address addr := unary (Encodable.encode (packed addr))
  parseAddress text := (Encodable.decode text.length).map unpacked
  time instant := unary (Encodable.encode instant)
  parseTime text := Encodable.decode text.length
  parse_address addr := by
    rw [length_unary, Encodable.encodek, Option.map_some, unpacked_packed]
  parse_time instant := by rw [length_unary, Encodable.encodek]

/-- The types of events in their order. -/
def declared : List EventType :=
  [.serviceRegistered, .serviceUpdated, .serviceDeregistered, .serviceStateChanged,
    .endpointUpdated, .deploymentProgress, .healthCheckResult, .registryLoaded]

/-- Sets in that order. -/
def declaredOrder : SetOrder where
  iter _ events := declared.filter fun event => event ∈ events
  nodup _ _ := List.Nodup.filter _ (by decide)
  mem_iter _ _ event := by
    have hall : event ∈ declared := by
      cases event with
      | _ => decide
    simp [hall]

/-- The client subscribes, from the call of the method to what it returns. -/
def subscribing : List DocumentEvent :=
  [.server (.accept (.v4 0x7f000001 40000) Server.untroubled), .hear,
    .client (.register "1" (.subscribe [.endpointUpdated, .serviceStateChanged])),
    .client (.enqueue 0), .client .transmit, .arrive Server.untroubled, .hear,
    .client (.complete 0)]

/-- Errors without a text. -/
def textless : JsonErrors := ⟨fun _ => "", fun _ _ => "", fun _ _ => ""⟩

/-- A subscription and its answer. -/
theorem typed_calls_answered_subscribing : ∃ t : Documents (SledStore Serde.numbered),
    run (step unaryTexts declaredOrder textless 0) (start (Registry.new Serde.numbered))
      subscribing = some t ∧ t.Answered unaryTexts textless 0 := by
  have hrun : run (step unaryTexts declaredOrder textless 0)
      (start (Registry.new Serde.numbered)) subscribing = some _ := rfl
  exact ⟨_, hrun, typed_calls_answered unaryTexts declaredOrder textless 0 _ subscribing _ hrun⟩

end Documents

end GraphHarness.ServiceRegistry
