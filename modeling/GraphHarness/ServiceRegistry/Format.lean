import GraphHarness.Serde.Values
import GraphHarness.ServiceRegistry.Messages

/-!
# The registry's types on the wire (`models.rs`)

The formats that are derived for an entry and what it consists of. Addresses and times are
written as texts by others; of an address the text has everything but the flow label.

> `ServiceEntry.through` — an entry that goes through a value comes out **the same but for the flow
> labels of its addresses and the order of the metadata**.

`Through` is proved in the order of the definitions, each struct from its fields.
`Endpoint.Same` and `ServiceEntry.Same` say what may change: the flow label of an address,
which its text does not have, and the order of a map. Every other field comes out as it was,
by equality.
-/

namespace GraphHarness.ServiceRegistry

open GraphHarness.Serde

/-! ## The formats -/

/-- What the text of an address has. -/
def SocketAddr.withoutFlow : SocketAddr → SocketAddr
  | .v4 ip port => .v4 ip port
  | .v6 ip port _ scopeId => .v6 ip port 0 scopeId

/-- `SocketAddr` and `DateTime<Utc>`: how they are written, and that they are read back. -/
structure Texts where
  address : SocketAddr → String
  parseAddress : String → Option SocketAddr
  time : Timestamp → String
  parseTime : String → Option Timestamp
  parse_address : ∀ addr, parseAddress (address addr) = some addr.withoutFlow
  parse_time : ∀ instant, parseTime (time instant) = some instant

namespace Texts

/-- The format of an address, which is a text. -/
def addressFormat (texts : Texts) : Format SocketAddr := .text texts.address texts.parseAddress

/-- The format of a time, which is a text. -/
def timeFormat (texts : Texts) : Format Timestamp := .text texts.time texts.parseTime

end Texts

namespace ExecutionInfo

/-- The fields of a managed process. -/
def managedProcessFields : Fields (Option UInt32 × String × List String) :=
  (Fields.optional "pid" .u32).prod
    ((Fields.required "command" .string).prod (.required "args" (.list .string)))

/-- The fields of a container. -/
def dockerContainerFields : Fields (Option String × String × Option String) :=
  (Fields.optional "container_id" .string).prod
    ((Fields.required "image" .string).prod (.optional "name" .string))

/-- The field of a systemd service. -/
def systemdServiceFields : Fields String := .required "unit_name" .string

/-- The fields of a portable service. -/
def systemdPortableFields : Fields (String × String) :=
  (Fields.required "image_name" .string).prod (.required "unit_name" .string)

/-- The tag of an execution. -/
def variant : ExecutionInfo → String
  | .managedProcess _ _ _ => "managed_process"
  | .dockerContainer _ _ _ => "docker_container"
  | .systemdService _ => "systemd_service"
  | .systemdPortable _ _ => "systemd_portable"

/-- The members of an execution besides its tag. -/
def write : ExecutionInfo → List Member
  | .managedProcess pid command args => managedProcessFields.write (pid, command, args)
  | .dockerContainer containerId image name =>
    dockerContainerFields.write (containerId, image, name)
  | .systemdService unitName => systemdServiceFields.write unitName
  | .systemdPortable imageName unitName => systemdPortableFields.write (imageName, unitName)

/-- An execution from its tag and its members. -/
def read (variant : String) (members : List Member) : Option ExecutionInfo :=
  match variant with
  | "managed_process" => (managedProcessFields.read members).map fun (pid, command, args) =>
    .managedProcess pid command args
  | "docker_container" => (dockerContainerFields.read members).map fun (containerId, image, name) =>
    .dockerContainer containerId image name
  | "systemd_service" => (systemdServiceFields.read members).map .systemdService
  | "systemd_portable" => (systemdPortableFields.read members).map fun (imageName, unitName) =>
    .systemdPortable imageName unitName
  | _ => none

/-- The format of `ExecutionInfo`, with its tag inside. -/
def format : Format ExecutionInfo := .tagged "type" variant write read

end ExecutionInfo

namespace Location

/-- The fields of a remote location. -/
def remoteFields : Fields (String × String × Option UInt16) :=
  (Fields.required "host" .string).prod
    ((Fields.required "ssh_user" .string).prod (.optional "ssh_port" .u16))

/-- The tag of a location. -/
def variant : Location → String
  | .local => "local"
  | .remote _ _ _ => "remote"

/-- The members of a location besides its tag. -/
def write : Location → List Member
  | .local => Fields.unit.write ()
  | .remote host sshUser sshPort => remoteFields.write (host, sshUser, sshPort)

/-- A location from its tag and its members. -/
def read (variant : String) (members : List Member) : Option Location :=
  match variant with
  | "local" => (Fields.unit.read members).map fun () => .local
  | "remote" => (remoteFields.read members).map fun (host, sshUser, sshPort) =>
    .remote host sshUser sshPort
  | _ => none

/-- The format of `Location`, with its tag inside. -/
def format : Format Location := .tagged "type" variant write read

end Location

namespace Protocol

/-- The tag of a protocol. -/
def variant : Protocol → String
  | .http => "http"
  | .https => "https"
  | .grpc => "grpc"
  | .tcp => "tcp"
  | .webSocket => "websocket"
  | .custom _ => "custom"

/-- What stands under the tag; only a custom protocol has anything. -/
def content : Protocol → Option Json
  | .custom name => some (Format.string.serialize name)
  | _ => none

/-- A protocol from its tag and its content. -/
def read (variant : String) (content : Option Json) : Option Protocol :=
  match variant with
  | "http" => if Format.isUnit content then some .http else none
  | "https" => if Format.isUnit content then some .https else none
  | "grpc" => if Format.isUnit content then some .grpc else none
  | "tcp" => if Format.isUnit content then some .tcp else none
  | "websocket" => if Format.isUnit content then some .webSocket else none
  | "custom" => (content.bind Format.string.deserialize).map .custom
  | _ => none

/-- The format of `Protocol`, with its tag outside. -/
def format : Format Protocol := .external variant content read

end Protocol

namespace Endpoint

/-- The fields of the struct in their order. -/
def equiv : String × SocketAddr × Protocol × HashMap String String ≃ Endpoint where
  toFun := fun (name, address, protocol, metadata) => ⟨name, address, protocol, metadata⟩
  invFun endpoint := (endpoint.name, endpoint.address, endpoint.protocol, endpoint.metadata)
  left_inv _ := rfl
  right_inv _ := rfl

/-- The fields of `Endpoint`. -/
def fields (texts : Texts) : Fields Endpoint :=
  .equiv equiv ((Fields.required "name" .string).prod
    ((Fields.required "address" texts.addressFormat).prod
      ((Fields.required "protocol" Protocol.format).prod (.required "metadata" (.map .string)))))

/-- The format of `Endpoint`. -/
def format (texts : Texts) : Format Endpoint := (fields texts).object

end Endpoint

namespace ServiceState

/-- The name of a state. -/
def variant : ServiceState → String
  | .registered => "registered"
  | .starting => "starting"
  | .running => "running"
  | .stopping => "stopping"
  | .stopped => "stopped"
  | .failed => "failed"

/-- The state of a name. -/
def ofVariant : String → Option ServiceState
  | "registered" => some .registered
  | "starting" => some .starting
  | "running" => some .running
  | "stopping" => some .stopping
  | "stopped" => some .stopped
  | "failed" => some .failed
  | _ => none

/-- The format of `ServiceState`. -/
def format : Format ServiceState := .unitEnum variant ofVariant

end ServiceState

namespace HealthStatus

/-- The fields of the struct in their order. -/
def equiv : Bool × Option String × Timestamp × UInt64 ≃ HealthStatus where
  toFun := fun (healthy, message, checkedAt, durationMs) => ⟨healthy, message, checkedAt, durationMs⟩
  invFun status := (status.healthy, status.message, status.checkedAt, status.durationMs)
  left_inv _ := rfl
  right_inv _ := rfl

/-- The fields of `HealthStatus`. -/
def fields (texts : Texts) : Fields HealthStatus :=
  .equiv equiv ((Fields.required "healthy" .bool).prod ((Fields.optional "message" .string).prod
    ((Fields.required "checked_at" texts.timeFormat).prod (.required "duration_ms" .u64))))

/-- The format of `HealthStatus`. -/
def format (texts : Texts) : Format HealthStatus := (fields texts).object

end HealthStatus

namespace ServiceEntry

/-- The fields up to the endpoints, and those after them. -/
def equiv : (String × String × ExecutionInfo × Location) × List Endpoint ×
    (List String × ServiceState × Option HealthStatus × Timestamp × Timestamp) ≃ ServiceEntry where
  toFun := fun ((name, version, execution, location), endpoints,
      (dependsOn, state, lastHealthCheck, registeredAt, lastStateChange)) =>
    ⟨name, version, execution, location, endpoints, dependsOn, state, lastHealthCheck,
      registeredAt, lastStateChange⟩
  invFun entry :=
    ((entry.name, entry.version, entry.execution, entry.location), entry.endpoints,
      (entry.dependsOn, entry.state, entry.lastHealthCheck, entry.registeredAt,
        entry.lastStateChange))
  left_inv _ := rfl
  right_inv _ := rfl

/-- The fields before the endpoints. -/
def firstFields : Fields (String × String × ExecutionInfo × Location) :=
  (Fields.required "name" .string).prod ((Fields.required "version" .string).prod
    ((Fields.required "execution" ExecutionInfo.format).prod (.required "location" Location.format)))

/-- The fields behind the endpoints. -/
def lastFields (texts : Texts) :
    Fields (List String × ServiceState × Option HealthStatus × Timestamp × Timestamp) :=
  (Fields.required "depends_on" (.list .string)).prod
    ((Fields.required "state" ServiceState.format).prod
      ((Fields.optional "last_health_check" (HealthStatus.format texts)).prod
        ((Fields.required "registered_at" texts.timeFormat).prod
          (.required "last_state_change" texts.timeFormat))))

/-- The fields of `ServiceEntry`. -/
def fields (texts : Texts) : Fields ServiceEntry :=
  .equiv equiv (firstFields.prod
    ((Fields.required "endpoints" (.list (Endpoint.format texts))).prod (lastFields texts)))

/-- The format of `ServiceEntry`. -/
def format (texts : Texts) : Format ServiceEntry := (fields texts).object

end ServiceEntry

/-! ## What comes out of a value -/

/-- The same endpoint, but for what is said of the flow label and of the order of the
metadata. -/
structure Endpoint.Same (a b : Endpoint) : Prop where
  name : b.name = a.name
  address : b.address = a.address.withoutFlow
  protocol : b.protocol = a.protocol
  metadata : ∀ key, b.metadata.lookup key = a.metadata.lookup key

/-- The same entry, but for its endpoints, which are the same one by one. -/
structure ServiceEntry.Same (a b : ServiceEntry) : Prop where
  rest : { b with endpoints := a.endpoints } = a
  endpoints : List.Forall₂ Endpoint.Same a.endpoints b.endpoints

section Through

variable (texts : Texts)

/-- A time goes through unchanged. -/
theorem Texts.time_through : texts.timeFormat.Through Eq :=
  Format.text_through fun instant => ⟨instant, texts.parse_time instant, rfl⟩

/-- An address loses its flow label. -/
theorem Texts.address_through :
    texts.addressFormat.Through fun addr addr' => addr' = addr.withoutFlow :=
  Format.text_through fun addr => ⟨addr.withoutFlow, texts.parse_address addr, rfl⟩

/-- A text that has to be there goes through. -/
theorem required_string_through (name : String) : (Fields.required name .string).Through Eq :=
  Fields.field_through Format.string_through name none

/-- A text that may be missing goes through. -/
theorem optional_string_through (name : String) : (Fields.optional name .string).Through Eq :=
  Fields.field_through (Format.string_through.option_eq Format.string_neverNull) name _

/-- A list of texts goes through. -/
theorem required_strings_through (name : String) :
    (Fields.required name (.list .string)).Through Eq :=
  Fields.field_through Format.string_through.list_eq name none

namespace ExecutionInfo

/-- A managed process goes through. -/
theorem managedProcessFields_through : managedProcessFields.Through Eq := by
  have hpid := Format.unsigned_through Format.u32_roundTrips
  exact (Fields.field_through (hpid.option_eq (Format.unsigned_neverNull _ _ _)) "pid" _).prod_eq
    (fun h => (required_string_through "command").prod_eq
      (fun _ => required_strings_through "args") h) (by decide)

/-- A container goes through. -/
theorem dockerContainerFields_through : dockerContainerFields.Through Eq :=
  (optional_string_through "container_id").prod_eq
    (fun h => (required_string_through "image").prod_eq
      (fun _ => optional_string_through "name") h) (by decide)

/-- A portable service goes through. -/
theorem systemdPortableFields_through : systemdPortableFields.Through Eq :=
  (required_string_through "image_name").prod_eq
    (fun _ => required_string_through "unit_name") (by decide)

/-- No member of an execution is named like the tag. -/
theorem write_ne_tag (execution : ExecutionInfo) : ∀ m ∈ execution.write, m.1 ≠ "type" := by
  intro m hm
  cases execution with
  | _ => exact Fields.ne_of_mem_write (by decide) hm

/-- An execution goes through unchanged. -/
theorem through : format.Through Eq := by
  refine Format.tagged_through write_ne_tag fun execution => ?_
  cases execution with
  | managedProcess pid command args =>
    obtain ⟨_, hread, rfl⟩ := managedProcessFields_through (pid, command, args)
    refine ⟨_, ?_, rfl⟩
    simp only [variant, read, write, hread, Option.map_some]
  | dockerContainer containerId image name =>
    obtain ⟨_, hread, rfl⟩ := dockerContainerFields_through (containerId, image, name)
    refine ⟨_, ?_, rfl⟩
    simp only [variant, read, write, hread, Option.map_some]
  | systemdService unitName =>
    have hfields : systemdServiceFields.Through Eq := required_string_through "unit_name"
    obtain ⟨_, hread, rfl⟩ := hfields unitName
    refine ⟨_, ?_, rfl⟩
    simp only [variant, read, write, hread, Option.map_some]
  | systemdPortable imageName unitName =>
    obtain ⟨_, hread, rfl⟩ := systemdPortableFields_through (imageName, unitName)
    refine ⟨_, ?_, rfl⟩
    simp only [variant, read, write, hread, Option.map_some]

end ExecutionInfo

namespace Location

/-- A remote location goes through. -/
theorem remoteFields_through : remoteFields.Through Eq := by
  have hport := Format.unsigned_through Format.u16_roundTrips
  exact (required_string_through "host").prod_eq
    (fun h => (required_string_through "ssh_user").prod_eq
      (fun _ => Fields.field_through (hport.option_eq (Format.unsigned_neverNull _ _ _))
        "ssh_port" _) h) (by decide)

/-- No member of a location is named like the tag. -/
theorem write_ne_tag (location : Location) : ∀ m ∈ location.write, m.1 ≠ "type" := by
  intro m hm
  cases location with
  | «local» => cases hm
  | remote => exact Fields.ne_of_mem_write (by decide) hm

/-- A location goes through unchanged. -/
theorem through : format.Through Eq := by
  refine Format.tagged_through write_ne_tag fun location => ?_
  cases location with
  | «local» => exact ⟨_, rfl, rfl⟩
  | remote host sshUser sshPort =>
    obtain ⟨_, hread, rfl⟩ := remoteFields_through (host, sshUser, sshPort)
    refine ⟨_, ?_, rfl⟩
    simp only [variant, read, write, hread, Option.map_some]

end Location

/-- A protocol goes through unchanged. -/
theorem Protocol.through : Protocol.format.Through Eq := by
  refine Format.external_through fun protocol => ?_
  cases protocol with
  | _ => rfl

/-- A state goes through unchanged. -/
theorem ServiceState.through : ServiceState.format.Through Eq := by
  refine Format.unitEnum_through fun state => ?_
  cases state with
  | _ => rfl

/-- The type of an event goes through unchanged. -/
theorem EventType.through : MessageFormat.EventType.format.Through Eq := by
  refine Format.unitEnum_through fun event => ?_
  cases event with
  | _ => rfl

/-- A health status goes through unchanged. -/
theorem HealthStatus.through : (HealthStatus.format texts).Through Eq := by
  have hduration := Format.unsigned_through Format.u64_roundTrips
  refine (Fields.Through.equiv_eq ?_ HealthStatus.equiv).object
  exact (Fields.field_through Format.bool_through "healthy" none).prod_eq
    (fun h => (optional_string_through "message").prod_eq
      (fun h => (Fields.field_through texts.time_through "checked_at" none).prod_eq
        (fun _ => Fields.field_through hduration "duration_ms" none) h) h)
    (show ["healthy", "message", "checked_at", "duration_ms"].Nodup by decide)

/-- An endpoint goes through up to the flow label of its address. -/
theorem Endpoint.through : (Endpoint.format texts).Through Endpoint.Same := by
  have haddress := Fields.field_through texts.address_through "address" none
  have hprotocol := Fields.field_through Protocol.through "protocol" none
  have hmetadata := Fields.field_through Format.string_through.map "metadata" none
  have hlast := hprotocol.prod hmetadata (by decide)
  have hrest := haddress.prod hlast (show ∀ name ∈ ["address"], name ∉ ["protocol", "metadata"] by
    decide)
  have hfields := (required_string_through "name").prod hrest
    (show ∀ name ∈ ["name"], name ∉ ["address", "protocol", "metadata"] by decide)
  refine ((hfields.equiv Endpoint.equiv).imp ?_).object
  rintro a b ⟨hname, haddr, hprot, hmeta⟩
  exact ⟨hname.symm, haddr, hprot.symm, hmeta.lookup_eq⟩

namespace ServiceEntry

/-- The fields before the endpoints go through. -/
theorem firstFields_through : firstFields.Through Eq :=
  (required_string_through "name").prod_eq
    (fun h => (required_string_through "version").prod_eq
      (fun h => (Fields.field_through ExecutionInfo.through "execution" none).prod_eq
        (fun _ => Fields.field_through Location.through "location" none) h) h) (by decide)

/-- The fields behind the endpoints go through. -/
theorem lastFields_through : (lastFields texts).Through Eq := by
  have hstate := Fields.field_through ServiceState.through "state" none
  have hcheck := Fields.field_through ((HealthStatus.through texts).option_eq
    (Fields.object_neverNull (HealthStatus.fields texts))) "last_health_check" (some none)
  have hregistered := Fields.field_through texts.time_through "registered_at" none
  exact (required_strings_through "depends_on").prod_eq
    (fun h => hstate.prod_eq
      (fun h => hcheck.prod_eq
        (fun h => hregistered.prod_eq
          (fun _ => Fields.field_through texts.time_through "last_state_change" none) h) h) h)
    (show ["depends_on", "state", "last_health_check", "registered_at", "last_state_change"].Nodup
      by decide)

/-- An entry goes through up to the flow labels of its endpoints. -/
theorem through : (format texts).Through Same := by
  have hendpoints := Fields.field_through (Endpoint.through texts).list "endpoints" none
  have hlater := hendpoints.prod (lastFields_through texts)
    (show ∀ name ∈ ["endpoints"], name ∉ ["depends_on", "state", "last_health_check",
      "registered_at", "last_state_change"] by decide)
  have hfields := firstFields_through.prod hlater
    (show ∀ name ∈ ["name", "version", "execution", "location"], name ∉ ["endpoints",
      "depends_on", "state", "last_health_check", "registered_at", "last_state_change"] by decide)
  refine ((hfields.equiv equiv).imp ?_).object
  rintro a b ⟨hfirst, hsame, hlast⟩
  refine ⟨?_, hsame⟩
  cases a
  cases b
  cases hfirst
  cases hlast
  rfl

end ServiceEntry

end Through

end GraphHarness.ServiceRegistry
