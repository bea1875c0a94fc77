import GraphHarness.ServiceRegistry.ClientMap
import GraphHarness.ServiceRegistry.Correlation
import GraphHarness.ServiceRegistry.Format

/-!
# Typed calls (`service-registry/src/client.rs`, `websocket.rs`)

What the methods of `WsClientHandle` send and what they make of the data they get, and what
the server reads of a text and writes of a message. A text is a document; what `serde_json`
says of one that it cannot read is a parameter.

`TypedCall` are the methods with their arguments, `TypedResult` what they return.
`readRequest` is the server's dispatch on the action, with its parameters read by the formats
of `Format.lean`; that it reads what the method has meant is `readRequest_params`, for any
call.

A set is written in an order that is decided elsewhere (`SetOrder`), and the initial state and
events are written from the same types.
-/

namespace GraphHarness.ServiceRegistry

open GraphHarness.Serde

namespace ServiceAction

/-- The name of an action. -/
def variant : ServiceAction → String
  | .start => "start"
  | .stop => "stop"
  | .restart => "restart"
  | .reload => "reload"

/-- The action of a name. -/
def ofVariant : String → Option ServiceAction
  | "start" => some .start
  | "stop" => some .stop
  | "restart" => some .restart
  | "reload" => some .reload
  | _ => none

/-- The format of `ServiceAction`. -/
def format : Format ServiceAction := .unitEnum variant ofVariant

theorem through : format.Through Eq := by
  refine Format.unitEnum_through fun action => ?_
  cases action with
  | _ => rfl

end ServiceAction

/-- A method of the client with its arguments. -/
inductive TypedCall where
  | listServices
  | getService (name : String)
  | serviceAction (name : String) (action : ServiceAction)
  | listEndpoints
  | subscribe (events : List EventType)
  | unsubscribe (events : List EventType)
  | deployPackage (packagePath : String) (targetNode : Option String)

/-- What a method returns. -/
inductive TypedResult where
  | services (services : List ServiceEntry)
  | service (service : ServiceEntry)
  | value (value : Value)
  | endpoints (endpoints : HashMap String (List Endpoint))
  | subscribed (events : List EventType)

/-- The texts of the errors of `serde_json`, for what cannot be read as which type. -/
structure JsonErrors where
  text : Json → String
  params : MessageFormat.Action → Value → String
  result : TypedCall → Json → String

/-- The order in which each answer iterates over a `HashSet`. -/
structure SetOrder where
  iter : Nat → Finset EventType → List EventType
  nodup : ∀ n events, (iter n events).Nodup
  mem_iter : ∀ n events event, event ∈ iter n events ↔ event ∈ events

/-! ## The client -/

/-- The format of a list of types. -/
def eventsFormat : Format (List EventType) := .list MessageFormat.EventType.format

namespace TypedCall

/-- The action of a call. -/
def action : TypedCall → MessageFormat.Action
  | .listServices => .listServices
  | .getService _ => .getService
  | .serviceAction _ _ => .serviceAction
  | .listEndpoints => .listEndpoints
  | .subscribe _ => .subscribe
  | .unsubscribe _ => .unsubscribe
  | .deployPackage _ _ => .deployPackage

/-- The parameters that `json!` makes. -/
def params : TypedCall → Value
  | .listServices => .ofJson (.obj [])
  | .getService name => .ofJson (.obj [("name", .str name)])
  | .serviceAction name action =>
    .ofJson (.obj [("name", .str name), ("action", ServiceAction.format.serialize action)])
  | .listEndpoints => .ofJson (.obj [])
  | .subscribe events => .ofJson (.obj [("events", eventsFormat.serialize events)])
  | .unsubscribe events => .ofJson (.obj [("events", eventsFormat.serialize events)])
  | .deployPackage packagePath none => .ofJson (.obj [("package_path", .str packagePath)])
  | .deployPackage packagePath (some node) =>
    .ofJson (.obj [("package_path", .str packagePath), ("target_node", .str node)])

end TypedCall

/-- `Value::get`. -/
def member (name : String) : Json → Option Json
  | .obj members => (named name members).head?
  | _ => none

/-- `from_value`, its error converted by `?`. -/
def resultOf {α : Type} (f : Format α) (errors : JsonErrors) (call : TypedCall) (j : Json) :
    Except Error α :=
  match f.deserialize j with
  | some x => .ok x
  | none => .error (.json (errors.result call j))

/-- What `subscribe` and `unsubscribe` take out of the data. -/
def subscribedOf (errors : JsonErrors) (call : TypedCall) (invalid : String) (data : Value) :
    Except Error TypedResult :=
  match member "subscribed" data.json with
  | some subscribed => (resultOf eventsFormat errors call subscribed).map .subscribed
  | none => .error (.package invalid)

/-- What a method makes of what `request` returns. -/
def TypedCall.result (texts : Texts) (errors : JsonErrors) (call : TypedCall) :
    Except Error Value → Except Error TypedResult
  | .error e => .error e
  | .ok data =>
    match call with
    | .listServices =>
      (resultOf (.list (ServiceEntry.format texts)) errors call data.json).map .services
    | .getService _ => (resultOf (ServiceEntry.format texts) errors call data.json).map .service
    | .serviceAction _ _ => .ok (.value data)
    | .listEndpoints =>
      (resultOf (.map (.list (Endpoint.format texts))) errors call data.json).map .endpoints
    | .subscribe _ => subscribedOf errors call "Invalid subscribe response" data
    | .unsubscribe _ => subscribedOf errors call "Invalid unsubscribe response" data
    | .deployPackage _ _ => .ok (.value data)

/-! ## The server -/

/-- The parameters of `get_service`. -/
def getServiceParams : Fields String := .required "name" .string

/-- The parameters of `service_action`. -/
def serviceActionParams : Fields (String × ServiceAction) :=
  (Fields.required "name" .string).prod (.required "action" ServiceAction.format)

/-- The parameters of a subscription. -/
def subscribeParams : Fields (List EventType) := .required "events" eventsFormat

/-- What `from_value` makes of the parameters. -/
def paramsOf {α : Type} (f : Fields α) (errors : JsonErrors) (action : MessageFormat.Action)
    (params : Value) : Except String α :=
  match f.object.deserialize params.json with
  | some x => .ok x
  | none => .error (errors.params action params)

/-- The request that the handlers read of an action and its parameters. -/
def readRequest (errors : JsonErrors) (action : MessageFormat.Action) (params : Value) : Request :=
  match action with
  | .listServices => .listServices
  | .getService => .getService (paramsOf getServiceParams errors action params)
  | .serviceAction => .serviceAction (paramsOf serviceActionParams errors action params)
  | .listEndpoints => .listEndpoints
  | .subscribe => .subscribe (paramsOf subscribeParams errors action params)
  | .unsubscribe => .unsubscribe (paramsOf subscribeParams errors action params)
  | .deployPackage => .deployPackage

/-- What `process_text_message` reads. -/
def readText (errors : JsonErrors) (document : Json) : Except String ClientText :=
  match MessageFormat.WsMessage.format.deserialize document with
  | some (.request id action params) => .ok (.request id (readRequest errors action params))
  | some _ => .ok .other
  | none => .error (errors.text document)

/-- The data of an answer as the handlers write it; it is the `n`th message. -/
def ResponseData.document (texts : Texts) (order : SetOrder) (n : Nat) : ResponseData → Json
  | .services entries => (Format.list (ServiceEntry.format texts)).serialize entries
  | .service entry => (ServiceEntry.format texts).serialize entry
  | .reloadInitiated => .obj [("status", .str "reload_initiated")]
  | .stateChange name oldState newState =>
    .obj [("service", .str name), ("old_state", ServiceState.format.serialize oldState),
      ("new_state", ServiceState.format.serialize newState)]
  | .endpoints listed => (Format.map (.list (Endpoint.format texts))).serialize listed
  | .subscribed events => .obj [("subscribed", eventsFormat.serialize (order.iter n events))]

/-- The answer as a value. -/
def ResponseData.value (texts : Texts) (order : SetOrder) (n : Nat) (data : ResponseData) : Value :=
  .ofJson (data.document texts order n)

/-- The data of an event as the registry writes it. -/
def EventData.value (texts : Texts) : EventData → Value
  | .service name timestamp =>
    .ofJson (.obj [("service", .str name), ("timestamp", texts.timeFormat.serialize timestamp)])
  | .stateChange name oldState newState timestamp =>
    .ofJson (.obj [("service", .str name), ("old_state", ServiceState.format.serialize oldState),
      ("new_state", ServiceState.format.serialize newState),
      ("timestamp", texts.timeFormat.serialize timestamp)])
  | .endpoints name listed timestamp =>
    .ofJson (.obj [("service", .str name),
      ("endpoints", (Format.list (Endpoint.format texts)).serialize listed),
      ("timestamp", texts.timeFormat.serialize timestamp)])

/-- The `n`th message of a connection as the server writes it. -/
def ServerMessage.write (texts : Texts) (order : SetOrder) (n : Nat) :
    ServerMessage → MessageFormat.WsMessage
  | .response id data error =>
    .response id (data.map (ResponseData.value texts order n))
      (error.map fun info => ⟨info.code, info.message, none⟩)
  | .registryLoaded services =>
    .event .registryLoaded
      (.ofJson ((Format.list (ServiceEntry.format texts)).serialize services))
  | .pushed (.event event data) => .event event (data.value texts)

/-! ## A request is read as it was meant -/

/-- The request that a call means. -/
def TypedCall.request : TypedCall → Request
  | .listServices => .listServices
  | .getService name => .getService (.ok name)
  | .serviceAction name action => .serviceAction (.ok (name, action))
  | .listEndpoints => .listEndpoints
  | .subscribe events => .subscribe (.ok events)
  | .unsubscribe events => .unsubscribe (.ok events)
  | .deployPackage _ _ => .deployPackage

theorem eventsFormat_through : eventsFormat.Through Eq := EventType.through.list_eq

theorem getServiceParams_through : getServiceParams.Through Eq := required_string_through "name"

theorem serviceActionParams_through : serviceActionParams.Through Eq :=
  (required_string_through "name").prod_eq
    (fun _ => Fields.field_through ServiceAction.through "action" none) (by decide)

theorem subscribeParams_through : subscribeParams.Through Eq :=
  Fields.field_through eventsFormat_through "events" none

theorem paramsOf_ok {α : Type} {f : Fields α} (hf : f.Through Eq) (errors : JsonErrors)
    (action : MessageFormat.Action) (x : α) :
    paramsOf f errors action (.ofJson (f.object.serialize x)) = .ok x := by
  obtain ⟨_, hread, rfl⟩ := hf.object x
  unfold paramsOf
  rw [show f.object.deserialize (Value.ofJson (f.object.serialize x)).json = _ from hread]

theorem readRequest_params (errors : JsonErrors) (call : TypedCall) :
    readRequest errors call.action call.params = call.request := by
  cases call with
  | getService name =>
    exact congrArg Request.getService (paramsOf_ok getServiceParams_through errors _ name)
  | serviceAction name action =>
    exact congrArg Request.serviceAction
      (paramsOf_ok serviceActionParams_through errors _ (name, action))
  | subscribe events =>
    exact congrArg Request.subscribe (paramsOf_ok subscribeParams_through errors _ events)
  | unsubscribe events =>
    exact congrArg Request.unsubscribe (paramsOf_ok subscribeParams_through errors _ events)
  | _ => rfl

/-- The text of a call is read as the request that it means. -/
theorem readText_call (errors : JsonErrors) (id : String) (call : TypedCall) :
    readText errors (MessageFormat.WsMessage.format.serialize
      (.request id call.action call.params)) = .ok (.request id call.request) := by
  have hkeeps : MessageFormat.WsMessage.format.Keeps (.request id call.action call.params) :=
    (MessageFormat.WsMessage.keeps_iff _).mpr not_false
  unfold readText
  rw [show MessageFormat.WsMessage.format.deserialize _ = _ from hkeeps]
  dsimp only
  rw [readRequest_params]

/-! ## An answer is heard as it was sent -/

variable {texts : Texts} {order : SetOrder} {n : Nat}

theorem ResponseData.value_ne_null (data : ResponseData) : data.value texts order n ≠ .null := by
  rw [ResponseData.value, Ne, ← Value.json_eq_null_iff, Value.ofJson, Json.normalize_eq_null_iff]
  intro h
  cases data with
  | _ => cases h

/-- The client is told what the server has sent, its data as a value. -/
theorem heard_write (message : ServerMessage) :
    MessageFormat.heard (MessageFormat.WsMessage.format.serialize (message.write texts order n)) =
      (System.plainWire.hearing (.text message)).map (ResponseData.value texts order n) := by
  have hkeeps : MessageFormat.WsMessage.format.Keeps (message.write texts order n) := by
    rw [MessageFormat.WsMessage.keeps_iff]
    cases message with
    | response id data error =>
      rintro (hdata | ⟨info, herror, hdetails⟩)
      · obtain ⟨data', _, hnull⟩ := Option.map_eq_some_iff.mp hdata
        exact data'.value_ne_null hnull
      · obtain ⟨_, _, rfl⟩ := Option.map_eq_some_iff.mp herror
        cases hdetails
    | registryLoaded services => exact not_false
    | pushed event => exact not_false
  unfold MessageFormat.heard
  rw [show MessageFormat.WsMessage.format.deserialize _ = _ from hkeeps]
  cases message with
  | response id data error =>
    cases error with
    | none => rfl
    | some info => rfl
  | registryLoaded entries => rfl
  | pushed event => rfl

end GraphHarness.ServiceRegistry
