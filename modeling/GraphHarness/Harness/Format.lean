import GraphHarness.Harness.Protocol
import GraphHarness.Orchestration.Format

/-!
# The protocol on the wire

The formats of requests and responses, both tagged internally.

> `protocol_roundTrips` — **every request and every response is read as it was written**,
> and no two are written alike.

The order of the members is that of the structs, as `serde_derive` writes them, and a member
that is unknown is passed over. A `tag` attribute puts the variant's name among the members;
`skip_serializing_if` is not used by this protocol, so what is missing is written as null.

The formats of the configurations inside are those of `Orchestration.Format`. That no two
requests are written alike follows from reading, as what was written is read back as itself.
-/

namespace GraphHarness.Protocol

open Orchestration (ServiceConfig ServiceStatus)
open Serde

namespace Request

/-- The fields of `StartService`. -/
def startServiceFields : Fields (String × ServiceConfig) :=
  (Fields.required "name" .string).prod (.required "config" ServiceConfig.format)

/-- The field of a request about one service. -/
def nameField : Fields String := .required "name" .string

/-- The field of a request about variables. -/
def namesField : Fields (List String) := .required "names" (.list .string)

/-- The tag of a request. -/
def variant : Request → String
  | .startService _ _ => "StartService"
  | .stopService _ => "StopService"
  | .getServiceStatus _ => "GetServiceStatus"
  | .listServices => "ListServices"
  | .listServicesDetailed => "ListServicesDetailed"
  | .runHealthChecks => "RunHealthChecks"
  | .shutdown => "Shutdown"
  | .getEnvironmentVariables _ => "GetEnvironmentVariables"

/-- The members of a request besides its tag. -/
def write : Request → List Member
  | .startService name config => startServiceFields.write (name, config)
  | .stopService name => nameField.write name
  | .getServiceStatus name => nameField.write name
  | .getEnvironmentVariables names => namesField.write names
  | .listServices | .listServicesDetailed | .runHealthChecks | .shutdown => Fields.unit.write ()

/-- A request from its tag and its members. -/
def read (variant : String) (members : List Member) : Option Request :=
  match variant with
  | "StartService" =>
    (startServiceFields.read members).map fun (name, config) => .startService name config
  | "StopService" => (nameField.read members).map .stopService
  | "GetServiceStatus" => (nameField.read members).map .getServiceStatus
  | "ListServices" => (Fields.unit.read members).map fun _ => .listServices
  | "ListServicesDetailed" => (Fields.unit.read members).map fun _ => .listServicesDetailed
  | "RunHealthChecks" => (Fields.unit.read members).map fun _ => .runHealthChecks
  | "Shutdown" => (Fields.unit.read members).map fun _ => .shutdown
  | "GetEnvironmentVariables" => (namesField.read members).map .getEnvironmentVariables
  | _ => none

/-- The format of `Request`, with its tag inside. -/
def format : Format Request := .tagged "type" variant write read

end Request

namespace ServiceNetworkInfo

/-- The fields of the struct in their order. -/
def equiv : String × Option UInt16 × String × List UInt16 ≃ ServiceNetworkInfo where
  toFun := fun (ip, port, hostname, ports) => ⟨ip, port, hostname, ports⟩
  invFun info := (info.ip, info.port, info.hostname, info.ports)
  left_inv _ := rfl
  right_inv _ := rfl

/-- The fields of `ServiceNetworkInfo`. -/
def fields : Fields ServiceNetworkInfo :=
  .equiv equiv ((Fields.required "ip" .string).prod ((Fields.optional "port" .u16).prod
    ((Fields.required "hostname" .string).prod (.required "ports" (.list .u16)))))

/-- The format of `ServiceNetworkInfo`. -/
def format : Format ServiceNetworkInfo := fields.object

end ServiceNetworkInfo

namespace DetailedServiceInfo

/-- The fields of the struct in their order. -/
def equiv : String × ServiceStatus × Option ServiceNetworkInfo × HashMap String String ×
    Option UInt32 × Option String × Option String × List String ≃ DetailedServiceInfo where
  toFun := fun (name, status, networkInfo, endpoints, pid, containerId, startTime, dependencies) =>
    ⟨name, status, networkInfo, endpoints, pid, containerId, startTime, dependencies⟩
  invFun info := (info.name, info.status, info.networkInfo, info.endpoints, info.pid,
    info.containerId, info.startTime, info.dependencies)
  left_inv _ := rfl
  right_inv _ := rfl

/-- The fields of `DetailedServiceInfo`. -/
def fields : Fields DetailedServiceInfo :=
  .equiv equiv ((Fields.required "name" .string).prod
    ((Fields.required "status" ServiceStatus.format).prod
      ((Fields.optional "network_info" ServiceNetworkInfo.format).prod
        ((Fields.required "endpoints" (.map .string)).prod ((Fields.optional "pid" .u32).prod
          ((Fields.optional "container_id" .string).prod
            ((Fields.optional "start_time" .string).prod
              (.required "dependencies" (.list .string)))))))))

/-- The format of `DetailedServiceInfo`. -/
def format : Format DetailedServiceInfo := fields.object

end DetailedServiceInfo

namespace Response

/-- The field of `Error`. -/
def messageField : Fields String := .required "message" .string

/-- The fields of `ServiceStarted`. -/
def serviceStartedFields : Fields (String × ServiceNetworkInfo) :=
  (Fields.required "name" .string).prod (.required "network_info" ServiceNetworkInfo.format)

/-- The field of `ServiceStatus`. -/
def statusField : Fields ServiceStatus := .required "status" ServiceStatus.format

/-- The field of `ServiceList`. -/
def servicesField : Fields (HashMap String ServiceStatus) :=
  .required "services" (.map ServiceStatus.format)

/-- The field of `ServiceListDetailed`. -/
def detailedField : Fields (List DetailedServiceInfo) :=
  .required "services" (.list DetailedServiceInfo.format)

/-- The field of `HealthCheckResults`. -/
def resultsField : Fields (HashMap String String) := .required "results" (.map .string)

/-- The field of `EnvironmentVariables`. -/
def variablesField : Fields (HashMap String String) := .required "variables" (.map .string)

/-- The tag of a response. -/
def variant : Response → String
  | .success => "Success"
  | .error _ => "Error"
  | .serviceStarted _ _ => "ServiceStarted"
  | .serviceStatus _ => "ServiceStatus"
  | .serviceList _ => "ServiceList"
  | .serviceListDetailed _ => "ServiceListDetailed"
  | .healthCheckResults _ => "HealthCheckResults"
  | .environmentVariables _ => "EnvironmentVariables"

/-- The members of a response besides its tag. -/
def write : Response → List Member
  | .success => Fields.unit.write ()
  | .error message => messageField.write message
  | .serviceStarted name networkInfo => serviceStartedFields.write (name, networkInfo)
  | .serviceStatus status => statusField.write status
  | .serviceList services => servicesField.write services
  | .serviceListDetailed services => detailedField.write services
  | .healthCheckResults results => resultsField.write results
  | .environmentVariables values => variablesField.write values

/-- A response from its tag and its members. -/
def read (variant : String) (members : List Member) : Option Response :=
  match variant with
  | "Success" => (Fields.unit.read members).map fun _ => .success
  | "Error" => (messageField.read members).map .error
  | "ServiceStarted" =>
    (serviceStartedFields.read members).map fun (name, info) => .serviceStarted name info
  | "ServiceStatus" => (statusField.read members).map .serviceStatus
  | "ServiceList" => (servicesField.read members).map .serviceList
  | "ServiceListDetailed" => (detailedField.read members).map .serviceListDetailed
  | "HealthCheckResults" => (resultsField.read members).map .healthCheckResults
  | "EnvironmentVariables" => (variablesField.read members).map .environmentVariables
  | _ => none

/-- The format of `Response`, with its tag inside. -/
def format : Format Response := .tagged "type" variant write read

end Response

/-! ## They round-trip -/

namespace Request

/-- No member of a request is named like the tag. -/
theorem write_ne_tag (request : Request) : ∀ m ∈ request.write, m.1 ≠ "type" := by
  intro m hm
  cases request with
  | startService => exact Fields.ne_of_mem_write (by decide) hm
  | stopService => exact Fields.ne_of_mem_write (by decide) hm
  | getServiceStatus => exact Fields.ne_of_mem_write (by decide) hm
  | getEnvironmentVariables => exact Fields.ne_of_mem_write (by decide) hm
  | _ => cases hm

/-- What a request is written as is read back as that request. -/
theorem roundTrips : format.RoundTrips := by
  intro request
  refine (Format.tagged_iff request.write_ne_tag).mpr ?_
  cases request with
  | startService =>
    have hfields : startServiceFields.RoundTrips := (Fields.string_roundTrips _).prod
      (fun _ => Fields.required_roundTrips ServiceConfig.roundTrips _) (by decide)
    exact (hfields _).map _
  | stopService name => exact (Fields.string_roundTrips "name" name).map stopService
  | getServiceStatus name => exact (Fields.string_roundTrips "name" name).map getServiceStatus
  | getEnvironmentVariables => exact (Fields.strings_roundTrips _ _).map _
  | _ => rfl

end Request

/-- The network information of a service is read back. -/
theorem ServiceNetworkInfo.roundTrips : ServiceNetworkInfo.format.RoundTrips := by
  refine (Fields.RoundTrips.equiv ?_ _).object
  have hport : (Fields.optional "port" .u16).RoundTrips :=
    Fields.optional_roundTrips Format.u16_roundTrips _ (Format.unsigned_neverNull _ _ _)
  refine (Fields.string_roundTrips _).prod (hport.prod ?_) (by decide)
  exact (Fields.string_roundTrips _).prod fun _ =>
    Fields.required_roundTrips Format.u16_roundTrips.list _

/-- The details of a service are read back. -/
theorem DetailedServiceInfo.roundTrips : DetailedServiceInfo.format.RoundTrips := by
  refine (Fields.RoundTrips.equiv ?_ _).object
  have hnetworkInfo : (Fields.optional "network_info" ServiceNetworkInfo.format).RoundTrips :=
    Fields.optional_roundTrips ServiceNetworkInfo.roundTrips _ (Fields.object_neverNull _)
  have hpid : (Fields.optional "pid" .u32).RoundTrips :=
    Fields.optional_roundTrips Format.u32_roundTrips _ (Format.unsigned_neverNull _ _ _)
  have hstatus := Fields.required_roundTrips ServiceStatus.roundTrips "status"
  refine (Fields.string_roundTrips _).prod (hstatus.prod (hnetworkInfo.prod ?_)) (by decide)
  refine (Fields.stringMap_roundTrips _).prod (hpid.prod ?_)
  refine (Fields.optionalString_roundTrips _).prod (.prod (Fields.optionalString_roundTrips _) ?_)
  exact fun _ => Fields.strings_roundTrips _

namespace Response

/-- No member of a response is named like the tag. -/
theorem write_ne_tag (response : Response) : ∀ m ∈ response.write, m.1 ≠ "type" := by
  intro m hm
  cases response with
  | success => cases hm
  | _ => exact Fields.ne_of_mem_write (by decide) hm

/-- What a response is written as is read back as that response. -/
theorem roundTrips : format.RoundTrips := by
  intro response
  refine (Format.tagged_iff response.write_ne_tag).mpr ?_
  cases response with
  | success => rfl
  | error message => exact (Fields.string_roundTrips "message" message).map error
  | serviceStarted =>
    have hfields : serviceStartedFields.RoundTrips := (Fields.string_roundTrips _).prod
      (fun _ => Fields.required_roundTrips ServiceNetworkInfo.roundTrips _) (by decide)
    exact (hfields _).map _
  | serviceStatus => exact (Fields.required_roundTrips ServiceStatus.roundTrips _ _).map _
  | serviceList => exact (Fields.required_roundTrips ServiceStatus.roundTrips.map _ _).map _
  | serviceListDetailed =>
    exact (Fields.required_roundTrips DetailedServiceInfo.roundTrips.list _ _).map _
  | healthCheckResults => exact (Fields.stringMap_roundTrips _ _).map _
  | environmentVariables => exact (Fields.stringMap_roundTrips _ _).map _

end Response

/-- Every request and every response is read as it was written, and no two are written
alike. -/
theorem protocol_roundTrips :
    Request.format.RoundTrips ∧ Response.format.RoundTrips ∧
      Function.Injective Request.format.serialize ∧ Function.Injective Response.format.serialize :=
  ⟨Request.roundTrips, Response.roundTrips, Request.roundTrips.injective,
    Response.roundTrips.injective⟩

end GraphHarness.Protocol
