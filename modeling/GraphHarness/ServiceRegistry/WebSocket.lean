import GraphHarness.ServiceRegistry.States

/-!
# Connections (`service-registry/src/websocket.rs`, `models.rs`, `error.rs`)

One connection of the WebSocket server: how it answers a request, and its loop over what
comes in. A text carries what `serde_json` reads from it. Which calls fail is told from
outside, and so is what other tasks do to the registry between two turns of the loop.

The handler's fields are the address, the subscriptions and what was sent; the registry is
passed along. `respond` is the answer to a request, `reply` its sending, and a turn of the
loop is one of both with the way on (`Flow`): to the next message, out of the loop, or out of
the function with an error.

A pong is answered by nothing and a close frame ends the loop. A binary frame is passed over.
The parameters of a request are read by `serde_json` in each handler, so a request with wrong
parameters gets an error as its response.
-/

namespace GraphHarness.ServiceRegistry

open Trace (after)

/-- The errors a connection meets: those of the registry, and the WebSocket's own. -/
inductive ConnectionError where
  | registry (e : Error)
  | webSocket (message : String)
  deriving DecidableEq, Repr

/-- `Debug`. -/
def ServiceState.debug : ServiceState → String
  | .registered => "Registered"
  | .starting => "Starting"
  | .running => "Running"
  | .stopping => "Stopping"
  | .stopped => "Stopped"
  | .failed => "Failed"

/-- `to_string`. -/
def ConnectionError.display : ConnectionError → String
  | .registry (.serviceNotFound name) => "Service not found: " ++ name
  | .registry (.serviceExists name) => "Service already exists: " ++ name
  | .registry (.invalidStateTransition «from» «to») =>
    "Invalid state transition: " ++ «from».debug ++ " -> " ++ «to».debug
  | .registry (.json message) => "JSON serialization error: " ++ message
  | .registry (.package message) => "Package error: " ++ message
  | .registry (.database message) => "Database error: " ++ message
  | .webSocket message => "WebSocket error: " ++ message

/-- `ServiceAction`. -/
inductive ServiceAction where
  | start
  | stop
  | restart
  | reload
  deriving DecidableEq, Repr

/-- A request by its action, with what `from_value` makes of its parameters. -/
inductive Request where
  | listServices
  | getService (params : Except String String)
  | serviceAction (params : Except String (String × ServiceAction))
  | listEndpoints
  | subscribe (params : Except String (List EventType))
  | unsubscribe (params : Except String (List EventType))
  | deployPackage

/-- A message that a client may send: a request, or one that only a server sends. -/
inductive ClientText where
  | request (id : String) (request : Request)
  | other

/-- What the stream of a connection yields, until it ends. -/
inductive Incoming where
  | text (parsed : Except String ClientText)
  | close
  | ping (data : List UInt8)
  | other
  | error (message : String)

/-- The data of a response, by the request it answers. -/
inductive ResponseData where
  | services (services : List ServiceEntry)
  | service (service : ServiceEntry)
  | reloadInitiated
  | stateChange (service : String) (oldState newState : ServiceState)
  | endpoints (endpoints : HashMap String (List Endpoint))
  | subscribed (events : Finset EventType)
  deriving DecidableEq

/-- No details are ever given. -/
structure ErrorInfo where
  code : String
  message : String
  deriving DecidableEq, Repr

/-- A message of the server. The first event, `RegistryLoaded`, has the services. -/
inductive ServerMessage where
  | response (id : String) (data : Option ResponseData) (error : Option ErrorInfo)
  | registryLoaded (services : List ServiceEntry)
  | pushed (event : WsMessage)
  deriving DecidableEq

/-- What is sent on the socket. -/
inductive Outgoing where
  | text (message : ServerMessage)
  | pong (data : List UInt8)
  deriving DecidableEq

/-- What happens during one turn of the loop: which storage calls fail, whether the data
of the response can be serialized, which of the three sends fails, and the two readings
of the clock. -/
structure Circumstances where
  storage : Faults
  serialize : Option String
  reply : Option ConnectionError
  errorReply : Option ConnectionError
  pong : Option ConnectionError
  changedAt : Timestamp
  now : Timestamp

/-- A connection. `ws` is what has been sent on it. -/
structure ConnectionHandler where
  addr : SocketAddr
  subscriptions : Finset EventType
  ws : List Outgoing

namespace ConnectionHandler

/-- A handler that was just made. -/
def accept (addr : SocketAddr) : ConnectionHandler := ⟨addr, ∅, []⟩

/-- A message is sent, or the socket fails. -/
def send (handler : ConnectionHandler) (fault : Option ConnectionError) (message : Outgoing) :
    ConnectionHandler × Except ConnectionError Unit :=
  match fault with
  | some e => (handler, .error e)
  | none => ({ handler with ws := handler.ws ++ [message] }, .ok ())

/-- `send_message`. -/
def sendMessage (handler : ConnectionHandler) (fault : Option ConnectionError)
    (message : ServerMessage) : ConnectionHandler × Except ConnectionError Unit :=
  handler.send fault (.text message)

/-- `send_response`. -/
def sendResponse (handler : ConnectionHandler) (fault : Option ConnectionError) (id : String)
    (data : ResponseData) : ConnectionHandler × Except ConnectionError Unit :=
  handler.sendMessage fault (.response id (some data) none)

/-- `send_error_response`. -/
def sendErrorResponse (handler : ConnectionHandler) (fault : Option ConnectionError)
    (id : String) (error : ConnectionError) : ConnectionHandler × Except ConnectionError Unit :=
  handler.sendMessage fault (.response id none (some ⟨"error", error.display⟩))

/-- `is_subscribed`. -/
def isSubscribed (handler : ConnectionHandler) (eventType : EventType) : Bool :=
  eventType ∈ handler.subscriptions

/-- Nothing in the repository calls this. -/
def sendEvent (handler : ConnectionHandler) (fault : Option ConnectionError) :
    WsMessage → ConnectionHandler × Except ConnectionError Unit
  | .event event data =>
    if handler.isSubscribed event then handler.sendMessage fault (.pushed (.event event data))
    else (handler, .ok ())

/-! ## Requests -/

/-- `serde_json::to_value`. -/
def toValue (circumstances : Circumstances) (data : ResponseData) :
    Except ConnectionError ResponseData :=
  match circumstances.serialize with
  | some e => .error (.registry (.json e))
  | none => .ok data

/-- `serde_json::from_value`, its error converted by `?`. -/
def fromValue {α : Type} : Except String α → Except ConnectionError α
  | .ok params => .ok params
  | .error e => .error (.registry (.json e))

/-- The state an action asks for. A reload asks for none. -/
def newState : ServiceAction → Option ServiceState
  | .start => some .starting
  | .stop => some .stopping
  | .restart => some .starting
  | .reload => none

/-- `handle_subscribe`. -/
def handleSubscribe {σ : Type} (handler : ConnectionHandler) (registry : Registry σ)
    (params : Except String (List EventType)) :
    ConnectionHandler × Registry σ × Except ConnectionError ResponseData :=
  match fromValue params with
  | .error e => (handler, registry, .error e)
  | .ok events =>
    let subscriptions := events.foldl (fun all event => insert event all) handler.subscriptions
    let handler := { handler with subscriptions := subscriptions }
    (handler, registry.subscribe handler.addr events, .ok (.subscribed handler.subscriptions))

/-- `handle_unsubscribe`. -/
def handleUnsubscribe {σ : Type} (handler : ConnectionHandler) (registry : Registry σ)
    (params : Except String (List EventType)) :
    ConnectionHandler × Registry σ × Except ConnectionError ResponseData :=
  match fromValue params with
  | .error e => (handler, registry, .error e)
  | .ok events =>
    let subscriptions := events.foldl Finset.erase handler.subscriptions
    let handler := { handler with subscriptions := subscriptions }
    (handler, registry.unsubscribe handler.addr events, .ok (.subscribed handler.subscriptions))

/-- `handle_deploy_package`, which is not implemented. -/
def handleDeployPackage : Except ConnectionError ResponseData :=
  .error (.registry (.package "Package deployment not yet implemented"))

variable {σ : Type} [RegistryBackend σ]

/-- `handle_list_services`. -/
def handleListServices (registry : Registry σ) (circumstances : Circumstances) :
    Except ConnectionError ResponseData :=
  toValue circumstances (.services (registry.list circumstances.storage))

/-- `handle_get_service`. -/
def handleGetService (registry : Registry σ) (circumstances : Circumstances)
    (params : Except String String) : Except ConnectionError ResponseData :=
  match fromValue params with
  | .error e => .error e
  | .ok name =>
    match registry.get circumstances.storage name with
    | .error e => .error (.registry e)
    | .ok service => toValue circumstances (.service service)

/-- `handle_list_endpoints`. -/
def handleListEndpoints (registry : Registry σ) (circumstances : Circumstances) :
    Except ConnectionError ResponseData :=
  toValue circumstances (.endpoints (registry.listEndpoints circumstances.storage))

/-- What is answered when `update_state` has returned. The messages it returns are bound
to `_events`. -/
def stateChangeResponse (name : String) (newState : ServiceState) :
    Except Error (ServiceState × Messages) → Except ConnectionError ResponseData
  | .error e => .error (.registry e)
  | .ok (oldState, _events) => .ok (.stateChange name oldState newState)

/-- `handle_service_action`. Starting and stopping only change the state in the registry. -/
def handleServiceAction (registry : Registry σ) (circumstances : Circumstances)
    (params : Except String (String × ServiceAction)) :
    Registry σ × Except ConnectionError ResponseData :=
  match fromValue params with
  | .error e => (registry, .error e)
  | .ok (name, action) =>
    match newState action with
    | none => (registry, .ok .reloadInitiated)
    | some newState =>
      (registry.updateState circumstances.storage name newState circumstances.changedAt
        circumstances.now).map id (stateChangeResponse name newState)

/-- The answer to a request, by its action. -/
def respond (handler : ConnectionHandler) (registry : Registry σ) (circumstances : Circumstances) :
    Request → ConnectionHandler × Registry σ × Except ConnectionError ResponseData
  | .listServices => (handler, registry, handleListServices registry circumstances)
  | .getService params => (handler, registry, handleGetService registry circumstances params)
  | .serviceAction params => (handler, handleServiceAction registry circumstances params)
  | .listEndpoints => (handler, registry, handleListEndpoints registry circumstances)
  | .subscribe params => handler.handleSubscribe registry params
  | .unsubscribe params => handler.handleUnsubscribe registry params
  | .deployPackage => (handler, registry, handleDeployPackage)

/-- The answer, sent. -/
def reply (handler : ConnectionHandler) (fault : Option ConnectionError) (id : String)
    (response : Except ConnectionError ResponseData) :
    ConnectionHandler × Except ConnectionError Unit :=
  match response with
  | .ok data => handler.sendResponse fault id data
  | .error e => handler.sendErrorResponse fault id e

theorem addr_send (handler : ConnectionHandler) (fault : Option ConnectionError)
    (message : Outgoing) : (handler.send fault message).1.addr = handler.addr := by
  unfold send
  split
  next => rfl
  next => rfl

theorem addr_reply (handler : ConnectionHandler) (fault : Option ConnectionError) (id : String)
    (response : Except ConnectionError ResponseData) :
    (handler.reply fault id response).1.addr = handler.addr := by
  unfold reply
  split
  next => exact addr_send ..
  next => exact addr_send ..

theorem reply_fails (handler : ConnectionHandler) (e : ConnectionError) (id : String)
    (response : Except ConnectionError ResponseData) :
    (handler.reply (some e) id response).2 = .error e := by
  cases response with
  | ok data => rfl
  | error e' => rfl

theorem reply_works (handler : ConnectionHandler) (id : String)
    (response : Except ConnectionError ResponseData) :
    (handler.reply none id response).2 = .ok () := by
  cases response with
  | ok data => rfl
  | error e => rfl

/-- `handle_request`. -/
def handleRequest (handler : ConnectionHandler) (registry : Registry σ)
    (circumstances : Circumstances) (id : String) (request : Request) :
    ConnectionHandler × Registry σ × Except ConnectionError Unit :=
  let (handler, registry, response) := handler.respond registry circumstances request
  let (handler, result) := handler.reply circumstances.reply id response
  (handler, registry, result)

/-- `process_text_message`. -/
def processTextMessage (handler : ConnectionHandler) (registry : Registry σ)
    (circumstances : Circumstances) (parsed : Except String ClientText) :
    ConnectionHandler × Registry σ × Except ConnectionError Unit :=
  match fromValue parsed with
  | .error e => (handler, registry, .error e)
  | .ok (.request id request) => handler.handleRequest registry circumstances id request
  | .ok .other => (handler, registry, .ok ())

/-! ## The loop -/

/-- How a turn of the loop ends: the next one follows, `break`, or `?`. -/
inductive Flow where
  | next
  | stop
  | fail (e : ConnectionError)

/-- A result that is passed on by `?`. -/
def Flow.ofResult : Except ConnectionError Unit → Flow
  | .ok () => .next
  | .error e => .fail e

/-- One turn of the loop of `process_messages`. -/
def turn (handler : ConnectionHandler) (registry : Registry σ) (circumstances : Circumstances) :
    Incoming → ConnectionHandler × Registry σ × Flow
  | .text parsed =>
    match handler.processTextMessage registry circumstances parsed with
    | (handler, registry, .ok ()) => (handler, registry, .next)
    | (handler, registry, .error e) =>
      let (handler, result) := handler.sendErrorResponse circumstances.errorReply "" e
      (handler, registry, .ofResult result)
  | .close => (handler, registry, .stop)
  | .ping data =>
    let (handler, result) := handler.send circumstances.pong (.pong data)
    (handler, registry, .ofResult result)
  | .other => (handler, registry, .next)
  | .error _ => (handler, registry, .stop)

/-- A turn of which the message was processed. -/
theorem turn_text_ok {handler handler' : ConnectionHandler} {registry registry' : Registry σ}
    {circumstances : Circumstances} {parsed : Except String ClientText}
    (h : handler.processTextMessage registry circumstances parsed = (handler', registry', .ok ())) :
    handler.turn registry circumstances (.text parsed) = (handler', registry', .next) := by
  unfold turn
  dsimp only
  rw [h]

/-- A turn of which it was not, which is answered with an error. -/
theorem turn_text_error {handler handler' : ConnectionHandler} {registry registry' : Registry σ}
    {circumstances : Circumstances} {parsed : Except String ClientText} {e : ConnectionError}
    (h : handler.processTextMessage registry circumstances parsed =
      (handler', registry', .error e)) :
    handler.turn registry circumstances (.text parsed) =
      ((handler'.sendErrorResponse circumstances.errorReply "" e).1, registry',
        .ofResult (handler'.sendErrorResponse circumstances.errorReply "" e).2) := by
  unfold turn
  dsimp only
  rw [h]

/-- `send_initial_state`. -/
def sendInitialState (handler : ConnectionHandler) (registry : Registry σ)
    (circumstances : Circumstances) : ConnectionHandler × Except ConnectionError Unit :=
  let services := registry.list circumstances.storage
  match circumstances.serialize with
  | some e => (handler, .error (.registry (.json e)))
  | none => handler.sendMessage circumstances.reply (.registryLoaded services)

end ConnectionHandler

/-- The operation leaves the subscription of an address alone. -/
def Operation.Elsewhere (addr : SocketAddr) : Operation → Prop
  | .subscribe other _ => other ≠ addr
  | .unsubscribe other _ => other ≠ addr
  | .removeSubscriber other => other ≠ addr
  | _ => True

/-- One turn of the loop of the connection with an address, after what other tasks have
done to the registry since the last one. -/
structure Turn (addr : SocketAddr) where
  others : List { op : Faults × Operation // op.2.Elsewhere addr }
  circumstances : Circumstances
  incoming : Incoming

namespace ConnectionHandler

variable {σ : Type} [RegistryBackend σ] {addr : SocketAddr}

/-- What the turn finds in the registry. -/
def meanwhile (registry : Registry σ) (turn : Turn addr) : Registry σ :=
  after Registry.attempt registry (turn.others.map Subtype.val)

/-- The loop, to the end of the stream, and the cleanup behind it. -/
def processMessages (handler : ConnectionHandler) (registry : Registry σ) :
    List (Turn addr) → ConnectionHandler × Registry σ × Except ConnectionError Unit
  | [] => (handler, registry.removeSubscriber handler.addr, .ok ())
  | t :: turns =>
    match handler.turn (meanwhile registry t) t.circumstances t.incoming with
    | (handler, registry, .next) => processMessages handler registry turns
    | (handler, registry, .stop) => (handler, registry.removeSubscriber handler.addr, .ok ())
    | (handler, registry, .fail e) => (handler, registry, .error e)

/-- `handle`. Every error ends it at once. -/
def handle (handler : ConnectionHandler) (registry : Registry σ) (circumstances : Circumstances)
    (turns : List (Turn addr)) : ConnectionHandler × Registry σ × Except ConnectionError Unit :=
  match handler.sendInitialState registry circumstances with
  | (handler, .error e) => (handler, registry, .error e)
  | (handler, .ok ()) => handler.processMessages registry turns

end ConnectionHandler

end GraphHarness.ServiceRegistry
