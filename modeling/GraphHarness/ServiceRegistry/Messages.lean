import GraphHarness.Serde.Fields
import GraphHarness.ServiceRegistry.Client

/-!
# The messages on the wire (`models.rs`)

`WsMessage` with everything it can hold, and the format that is derived for it.

> `messages_keep_iff` — a message is read as it was written **unless it holds `Some(Null)`**,
> which is read as nothing; the caller of a response without data is told that it is empty.

`Option<Value>` is where the derived format and the type differ: `Some(Null)` is written as
null and read as `None`. Everything else is read back, and the members that are skipped when
they are missing are read as missing. `answer` is what the client makes of a response, for
which it matters whether there are data.
-/

namespace GraphHarness.ServiceRegistry.MessageFormat

open GraphHarness.Serde

/-- `Action`. -/
inductive Action where
  | listServices
  | getService
  | serviceAction
  | listEndpoints
  | deployPackage
  | subscribe
  | unsubscribe
  deriving DecidableEq, Repr

/-- `ErrorInfo`. -/
structure ErrorInfo where
  code : String
  message : String
  details : Option Value

/-- `WsMessage`. -/
inductive WsMessage where
  | request (id : String) (action : Action) (params : Value)
  | response (id : String) (data : Option Value) (error : Option ErrorInfo)
  | event (event : EventType) (data : Value)

/-! ## The format -/

namespace Action

/-- The name of an action. -/
def variant : Action → String
  | .listServices => "list_services"
  | .getService => "get_service"
  | .serviceAction => "service_action"
  | .listEndpoints => "list_endpoints"
  | .deployPackage => "deploy_package"
  | .subscribe => "subscribe"
  | .unsubscribe => "unsubscribe"

/-- The action of a name. -/
def ofVariant : String → Option Action
  | "list_services" => some .listServices
  | "get_service" => some .getService
  | "service_action" => some .serviceAction
  | "list_endpoints" => some .listEndpoints
  | "deploy_package" => some .deployPackage
  | "subscribe" => some .subscribe
  | "unsubscribe" => some .unsubscribe
  | _ => none

/-- The format of `Action`. -/
def format : Format Action := .unitEnum variant ofVariant

end Action

namespace EventType

/-- The name of a type of event. -/
def variant : EventType → String
  | .serviceRegistered => "service_registered"
  | .serviceUpdated => "service_updated"
  | .serviceDeregistered => "service_deregistered"
  | .serviceStateChanged => "service_state_changed"
  | .endpointUpdated => "endpoint_updated"
  | .deploymentProgress => "deployment_progress"
  | .healthCheckResult => "health_check_result"
  | .registryLoaded => "registry_loaded"

/-- The type of event of a name. -/
def ofVariant : String → Option EventType
  | "service_registered" => some .serviceRegistered
  | "service_updated" => some .serviceUpdated
  | "service_deregistered" => some .serviceDeregistered
  | "service_state_changed" => some .serviceStateChanged
  | "endpoint_updated" => some .endpointUpdated
  | "deployment_progress" => some .deploymentProgress
  | "health_check_result" => some .healthCheckResult
  | "registry_loaded" => some .registryLoaded
  | _ => none

/-- The format of `EventType`. -/
def format : Format EventType := .unitEnum variant ofVariant

end EventType

namespace ErrorInfo

/-- The fields of the struct in their order. -/
def equiv : String × String × Option Value ≃ ErrorInfo where
  toFun := fun (code, message, details) => ⟨code, message, details⟩
  invFun info := (info.code, info.message, info.details)
  left_inv _ := rfl
  right_inv _ := rfl

/-- The fields of `ErrorInfo`; details that are missing are left out. -/
def fields : Fields ErrorInfo :=
  .equiv equiv ((Fields.required "code" .string).prod
    ((Fields.required "message" .string).prod (.skipNone "details" .value)))

/-- The format of `ErrorInfo`. -/
def format : Format ErrorInfo := fields.object

end ErrorInfo

namespace WsMessage

/-- The fields of a request. -/
def requestFields : Fields (String × Action × Value) :=
  (Fields.required "id" .string).prod
    ((Fields.required "action" Action.format).prod (.required "params" .value))

/-- The fields of a response; what is missing is left out. -/
def responseFields : Fields (String × Option Value × Option ErrorInfo) :=
  (Fields.required "id" .string).prod
    ((Fields.skipNone "data" .value).prod (.skipNone "error" ErrorInfo.format))

/-- The fields of an event. -/
def eventFields : Fields (EventType × Value) :=
  (Fields.required "event" EventType.format).prod (.required "data" .value)

/-- The tag of a message. -/
def variant : WsMessage → String
  | .request _ _ _ => "request"
  | .response _ _ _ => "response"
  | .event _ _ => "event"

/-- The members of a message besides its tag. -/
def write : WsMessage → List Member
  | .request id action params => requestFields.write (id, action, params)
  | .response id data error => responseFields.write (id, data, error)
  | .event kind data => eventFields.write (kind, data)

/-- A message from its tag and its members. -/
def read (variant : String) (members : List Member) : Option WsMessage :=
  match variant with
  | "request" =>
    (requestFields.read members).map fun (id, action, params) => .request id action params
  | "response" =>
    (responseFields.read members).map fun (id, data, error) => .response id data error
  | "event" => (eventFields.read members).map fun (kind, data) => .event kind data
  | _ => none

/-- The format of `WsMessage`, with its tag inside. -/
def format : Format WsMessage := .tagged "type" variant write read

/-- `Some(Null)` somewhere in the message. -/
def HoldsNull : WsMessage → Prop
  | .response _ data error =>
    data = some .null ∨ ∃ info, error = some info ∧ info.details = some .null
  | _ => False

end WsMessage

/-- What `handle_message` takes a document for. -/
def heard (document : Json) : Heard Value :=
  match WsMessage.format.deserialize document with
  | some (.response id data error) => .response id data (error.map ErrorInfo.message)
  | some (.event _ _) => .event
  | some (.request _ _ _) => .request
  | none => .unreadable

/-- What the call is told that a message is for. -/
def told : Heard Value → Option (Except Error Value)
  | .response _ data error => some (outcome data error)
  | _ => none

/-- What the call is told that `send_response` answers. -/
def answer (id : String) (data : Value) : Option (Except Error Value) :=
  told (heard (WsMessage.format.serialize (.response id (some data) none)))

/-! ## What is kept -/

/-- An action is read back. -/
theorem action_roundTrips : Action.format.RoundTrips := by
  refine Format.unitEnum_roundTrips fun action => ?_
  cases action with
  | _ => rfl

/-- A type of event is read back. -/
theorem eventType_roundTrips : EventType.format.RoundTrips := by
  refine Format.unitEnum_roundTrips fun event => ?_
  cases event with
  | _ => rfl

/-- A value that may be missing is kept unless it is `null`. -/
theorem skipNone_value_iff {name : String} {data : Option Value} :
    (Fields.skipNone name .value).Keeps data ↔ data ≠ some .null := by
  cases data with
  | none => exact iff_of_true Fields.skipNone_none (by simp)
  | some v =>
    rw [Fields.skipNone_some_iff, Format.option_some_iff]
    have hserialize : Format.value.serialize v = v.json := rfl
    rw [hserialize, Ne, Value.json_eq_null_iff, Ne, Option.some.injEq]
    exact and_iff_right (Format.value_roundTrips v)

/-- An error is read back, unless its details are null. -/
theorem errorInfo_iff {info : ErrorInfo} :
    ErrorInfo.format.Keeps info ↔ info.details ≠ some .null := by
  rw [ErrorInfo.format, Fields.object_iff, ErrorInfo.fields, Fields.equiv_iff]
  show Fields.Keeps _ (info.code, info.message, info.details) ↔ _
  rw [Fields.prod_iff (by decide), Fields.prod_iff (by decide), skipNone_value_iff]
  simp only [Fields.required_roundTrips Format.string_roundTrips _ _, true_and]

/-- An error that may be missing is read back, unless its details are null. -/
theorem error_iff {error : Option ErrorInfo} :
    (Fields.skipNone "error" ErrorInfo.format).Keeps error ↔
      ∀ info, error = some info → info.details ≠ some .null := by
  cases error with
  | none => exact iff_of_true Fields.skipNone_none (by simp)
  | some info =>
    rw [Fields.skipNone_some_iff, Format.option_some_iff, errorInfo_iff]
    simp [Fields.object_neverNull ErrorInfo.fields info, ErrorInfo.format]

namespace WsMessage

/-- A request is read back. -/
theorem requestFields_roundTrips : requestFields.RoundTrips := by
  have haction := Fields.required_roundTrips action_roundTrips "action"
  exact (Fields.string_roundTrips _).prod
    (haction.prod fun _ => Fields.required_roundTrips Format.value_roundTrips _) (by decide)

/-- An event is read back. -/
theorem eventFields_roundTrips : eventFields.RoundTrips :=
  (Fields.required_roundTrips eventType_roundTrips _).prod
    (fun _ => Fields.required_roundTrips Format.value_roundTrips _) (by decide)

/-- A response is read back, unless its data or its details are null. -/
theorem responseFields_iff {id : String} {data : Option Value} {error : Option ErrorInfo} :
    responseFields.Keeps (id, data, error) ↔
      data ≠ some .null ∧ ∀ info, error = some info → info.details ≠ some .null := by
  rw [responseFields, Fields.prod_iff (by decide), Fields.prod_iff (by decide), skipNone_value_iff,
    error_iff]
  exact and_iff_right (Fields.required_roundTrips Format.string_roundTrips _ id)

/-- The tag is not the name of a field. -/
theorem write_ne_tag (m : WsMessage) : ∀ member ∈ m.write, member.1 ≠ "type" := by
  intro member hmember
  cases m with
  | request id action params => exact Fields.ne_of_mem_write (by decide) hmember
  | response id data error => exact Fields.ne_of_mem_write (by decide) hmember
  | event kind data => exact Fields.ne_of_mem_write (by decide) hmember

/-- A message is read as it was written, unless it has a `null` where there may be
nothing. -/
theorem keeps_iff (m : WsMessage) : format.Keeps m ↔ ¬ m.HoldsNull := by
  rw [format, Format.tagged_iff m.write_ne_tag]
  cases m with
  | request id action params =>
    exact iff_of_true ((requestFields_roundTrips (id, action, params)).map _) not_false
  | response id data error =>
    have hinjective : Function.Injective fun x : String × Option Value × Option ErrorInfo =>
        response x.1 x.2.1 x.2.2 := by
      rintro ⟨_, _, _⟩ ⟨_, _, _⟩ ⟨⟩
      rfl
    refine (Fields.map_read_iff hinjective).trans (responseFields_iff.trans ?_)
    rw [HoldsNull, not_or, not_exists]
    simp only [not_and]
  | event kind data =>
    exact iff_of_true ((eventFields_roundTrips (kind, data)).map _) not_false

/-- Data that is `null` is read as no data. -/
theorem deserialize_null (id : String) :
    format.deserialize (format.serialize (.response id (some .null) none)) =
      some (.response id none none) := rfl

end WsMessage

/-- The caller is handed the data, unless it is `null`. -/
theorem answer_iff {id : String} {data : Value} :
    answer id data = some (.ok data) ↔ data ≠ .null := by
  by_cases hnull : data = .null
  · subst hnull
    refine iff_of_false ?_ (not_not_intro rfl)
    rw [answer, heard, WsMessage.deserialize_null]
    intro h
    cases h
  · refine iff_of_true ?_ hnull
    have hkeeps : WsMessage.format.Keeps (.response id (some data) none) := by
      rw [WsMessage.keeps_iff]
      rintro (hdata | ⟨_, herror, _⟩)
      · exact hnull (Option.some.inj hdata)
      · cases herror
    rw [answer, heard, show WsMessage.format.deserialize _ = _ from hkeeps]
    rfl

/-- A message is read as it was written exactly if it holds no `Some(Null)`, and the data of
a response is handed to the caller exactly if it is not `null`. -/
theorem messages_keep_iff (m : WsMessage) (id : String) (data : Value) :
    (WsMessage.format.Keeps m ↔ ¬ m.HoldsNull) ∧
      (answer id data = some (.ok data) ↔ data ≠ .null) :=
  ⟨m.keeps_iff, answer_iff⟩

/-- A response with the data `null` is not read as it was written. -/
theorem null_response_lost :
    ¬ ((∀ m : WsMessage, WsMessage.format.Keeps m) ∧
      ∀ (id : String) (data : Value), answer id data = some (.ok data)) := by
  rintro ⟨hkeeps, _⟩
  have hnull := hkeeps (.response "1" (some .null) none)
  rw [Format.Keeps, WsMessage.deserialize_null] at hnull
  cases hnull

end GraphHarness.ServiceRegistry.MessageFormat
