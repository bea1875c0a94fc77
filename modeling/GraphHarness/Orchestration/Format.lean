import GraphHarness.Orchestration.Config
import GraphHarness.Serde.Fields

/-!
# The orchestrator's types on the wire

The formats that are derived in `config.rs`: dependencies are untagged, a target is tagged
internally with the mode of a remote one among its fields, a status is tagged externally.

The order of the members and their names are those of the structs, with the attributes of
`serde` that stand there: `default` for what may be missing, `flatten` for the mode of a
remote target, `rename` for the kinds of targets. What may be missing is written as null,
since no attribute skips it.

An untagged enum is read as the first variant that fits. That a value is never read as another
variant is part of the round trip, and holds because the variants have different required
members.
-/

namespace GraphHarness.Orchestration

open Serde

namespace Dependency

/-- The two variants. -/
def equiv : String ⊕ String ≃ Dependency where
  toFun
    | .inl name => .service name
    | .inr name => .task name
  invFun
    | .service name => .inl name
    | .task name => .inr name
  left_inv := by rintro (_ | _) <;> rfl
  right_inv := by rintro (_ | _) <;> rfl

/-- The fields of `Dependency`; the first variant that can be read is taken. -/
def fields : Fields Dependency :=
  .equiv equiv ((Fields.required "service" .string).orElse (.required "task" .string))

/-- The format of `Dependency`. -/
def format : Format Dependency := fields.object

end Dependency

namespace RemoteMode

/-- The fields of a remote process. -/
def processFields : Fields (String × List String) :=
  (Fields.required "binary" .string).prod (.required "args" (.list .string))

/-- The fields of a remote package. -/
def packageFields : Fields String := .required "package" .string

/-- The two variants. -/
def equiv : (String × List String) ⊕ String ≃ RemoteMode where
  toFun
    | .inl (binary, args) => .process binary args
    | .inr path => .package path
  invFun
    | .process binary args => .inl (binary, args)
    | .package path => .inr path
  left_inv := by rintro (_ | _) <;> rfl
  right_inv := by rintro (_ | _) <;> rfl

/-- The fields of `RemoteMode`; the first variant that can be read is taken. -/
def fields : Fields RemoteMode := .equiv equiv (processFields.orElse packageFields)

end RemoteMode

namespace ServiceTarget

/-- The environment of a target. -/
def envField : Fields (HashMap String String) := .required "env" (.map .string)

/-- The fields of `Process`. -/
def processFields : Fields (String × List String × HashMap String String × Option String) :=
  (Fields.required "binary" .string).prod ((Fields.required "args" (.list .string)).prod
    (envField.prod (.optional "working_dir" .string)))

/-- The fields of `Docker`. -/
def dockerFields : Fields (String × HashMap String String × List UInt16 × List String) :=
  (Fields.required "image" .string).prod (envField.prod ((Fields.required "ports" (.list .u16)).prod
    (.defaulted "volumes" (.list .string) [])))

/-- The fields of `DockerAttach`. -/
def dockerAttachFields : Fields (String × HashMap String String) :=
  (Fields.required "container" .string).prod envField

/-- The fields of `ProcessAttach`. -/
def processAttachFields : Fields (Option UInt32 × Option String × HashMap String String) :=
  (Fields.optional "pid" .u32).prod ((Fields.optional "process_name" .string).prod envField)

/-- The fields of `Remote`, those of its mode among them. -/
def remoteFields : Fields (String × String × RemoteMode × HashMap String String) :=
  (Fields.required "host" .string).prod ((Fields.required "user" .string).prod
    ((RemoteMode.fields.flatten ["host", "user", "env"]).prod envField))

/-- The fields of `RemoteLan`. -/
def remoteLanFields : Fields (String × String × String × List String) :=
  (Fields.required "host" .string).prod ((Fields.required "user" .string).prod
    ((Fields.required "binary" .string).prod (.required "args" (.list .string))))

/-- The fields of `Wireguard`. -/
def wireguardFields : Fields (String × String × String) :=
  (Fields.required "host" .string).prod ((Fields.required "user" .string).prod
    (.required "package" .string))

/-- The tag of a target. -/
def variant : ServiceTarget → String
  | .process _ _ _ _ => "process"
  | .docker _ _ _ _ => "docker"
  | .dockerAttach _ _ => "docker-attach"
  | .processAttach _ _ _ => "process-attach"
  | .remote _ _ _ _ => "remote"
  | .remoteLan _ _ _ _ => "remote-lan"
  | .wireguard _ _ _ => "wireguard"

/-- The members of a target besides its tag. -/
def write : ServiceTarget → List Member
  | .process binary args env workingDir => processFields.write (binary, args, env, workingDir)
  | .docker image env ports volumes => dockerFields.write (image, env, ports, volumes)
  | .dockerAttach container env => dockerAttachFields.write (container, env)
  | .processAttach pid processName env => processAttachFields.write (pid, processName, env)
  | .remote host user mode env => remoteFields.write (host, user, mode, env)
  | .remoteLan host user binary args => remoteLanFields.write (host, user, binary, args)
  | .wireguard host user package => wireguardFields.write (host, user, package)

/-- A target from its tag and its members. -/
def read (variant : String) (members : List Member) : Option ServiceTarget :=
  match variant with
  | "process" => (processFields.read members).map fun (binary, args, env, workingDir) =>
    .process binary args env workingDir
  | "docker" => (dockerFields.read members).map fun (image, env, ports, volumes) =>
    .docker image env ports volumes
  | "docker-attach" => (dockerAttachFields.read members).map fun (container, env) =>
    .dockerAttach container env
  | "process-attach" => (processAttachFields.read members).map fun (pid, processName, env) =>
    .processAttach pid processName env
  | "remote" => (remoteFields.read members).map fun (host, user, mode, env) =>
    .remote host user mode env
  | "remote-lan" => (remoteLanFields.read members).map fun (host, user, binary, args) =>
    .remoteLan host user binary args
  | "wireguard" => (wireguardFields.read members).map fun (host, user, package) =>
    .wireguard host user package
  | _ => none

/-- The format of `ServiceTarget`, with its tag inside. -/
def format : Format ServiceTarget := .tagged "type" variant write read

end ServiceTarget

namespace HealthCheck

/-- The fields of the struct in their order. -/
def equiv : String × List String × UInt64 × UInt32 × UInt64 ≃ HealthCheck where
  toFun := fun (command, args, interval, retries, timeout) =>
    ⟨command, args, interval, retries, timeout⟩
  invFun check := (check.command, check.args, check.interval, check.retries, check.timeout)
  left_inv _ := rfl
  right_inv _ := rfl

/-- The fields of `HealthCheck`. -/
def fields : Fields HealthCheck :=
  .equiv equiv ((Fields.required "command" .string).prod
    ((Fields.required "args" (.list .string)).prod ((Fields.required "interval" .u64).prod
      ((Fields.required "retries" .u32).prod (.required "timeout" .u64)))))

/-- The format of `HealthCheck`. -/
def format : Format HealthCheck := fields.object

end HealthCheck

namespace ServiceConfig

/-- The fields of the struct in their order. -/
def equiv : String × ServiceTarget × List Dependency × Option HealthCheck ≃ ServiceConfig where
  toFun := fun (name, target, dependencies, healthCheck) =>
    ⟨name, target, dependencies, healthCheck⟩
  invFun config := (config.name, config.target, config.dependencies, config.healthCheck)
  left_inv _ := rfl
  right_inv _ := rfl

/-- The fields of `ServiceConfig`. -/
def fields : Fields ServiceConfig :=
  .equiv equiv ((Fields.required "name" .string).prod
    ((Fields.required "target" ServiceTarget.format).prod
      ((Fields.defaulted "dependencies" (.list Dependency.format) []).prod
        (.optional "health_check" HealthCheck.format))))

/-- The format of `ServiceConfig`. -/
def format : Format ServiceConfig := fields.object

end ServiceConfig

namespace ServiceStatus

/-- The tag of a status. -/
def variant : ServiceStatus → String
  | .stopped => "Stopped"
  | .starting => "Starting"
  | .running => "Running"
  | .unhealthy => "Unhealthy"
  | .failed _ => "Failed"

/-- What stands under the tag; only a failure has anything. -/
def content : ServiceStatus → Option Json
  | .failed message => some (Format.string.serialize message)
  | _ => none

/-- A status from its tag and its content. -/
def read (variant : String) (content : Option Json) : Option ServiceStatus :=
  match variant with
  | "Stopped" => if Format.isUnit content then some .stopped else none
  | "Starting" => if Format.isUnit content then some .starting else none
  | "Running" => if Format.isUnit content then some .running else none
  | "Unhealthy" => if Format.isUnit content then some .unhealthy else none
  | "Failed" => (content.bind Format.string.deserialize).map .failed
  | _ => none

/-- The format of `ServiceStatus`, with its tag outside. -/
def format : Format ServiceStatus := .external variant content read

end ServiceStatus

/-! ## They round-trip -/

/-- A task has no member that a service is read from. -/
theorem Dependency.roundTrips : Dependency.format.RoundTrips := by
  refine (Fields.RoundTrips.equiv (.orElse ?_ ?_ ?_) _).object
  · exact Fields.string_roundTrips _
  · exact Fields.string_roundTrips _
  · intro task
    exact Fields.required_eq_none fun m hm => Fields.ne_of_mem_write (by decide) hm

/-- A package has no member that a process is read from. -/
theorem RemoteMode.roundTrips : RemoteMode.fields.RoundTrips := by
  refine Fields.RoundTrips.equiv (.orElse ?_ ?_ ?_) _
  · exact (Fields.string_roundTrips _).prod (fun _ => Fields.strings_roundTrips _) (by decide)
  · exact Fields.string_roundTrips _
  · intro path
    exact Fields.prod_eq_none
      (Fields.required_eq_none fun m hm => Fields.ne_of_mem_write (by decide) hm)

namespace ServiceTarget

/-- The environment is read back. -/
theorem envField_roundTrips : envField.RoundTrips := Fields.stringMap_roundTrips _

/-- A process is read back. -/
theorem processFields_roundTrips : processFields.RoundTrips := by
  refine (Fields.string_roundTrips _).prod (.prod (Fields.strings_roundTrips _) ?_) (by decide)
  exact envField_roundTrips.prod fun _ => Fields.optionalString_roundTrips _

/-- A container is read back. -/
theorem dockerFields_roundTrips : dockerFields.RoundTrips := by
  refine (Fields.string_roundTrips _).prod (.prod envField_roundTrips ?_) (by decide)
  exact (Fields.required_roundTrips Format.u16_roundTrips.list _).prod fun _ =>
    Fields.defaulted_roundTrips Format.string_roundTrips.list _ _

/-- A container to attach to is read back. -/
theorem dockerAttachFields_roundTrips : dockerAttachFields.RoundTrips :=
  (Fields.string_roundTrips _).prod (fun _ => envField_roundTrips) (by decide)

/-- A process to attach to is read back. -/
theorem processAttachFields_roundTrips : processAttachFields.RoundTrips := by
  have hpid : (Fields.optional "pid" .u32).RoundTrips :=
    Fields.optional_roundTrips Format.u32_roundTrips _ (Format.unsigned_neverNull _ _ _)
  exact hpid.prod ((Fields.optionalString_roundTrips _).prod fun _ => envField_roundTrips)
    (by decide)

/-- No field of a mode has the name of a field beside it. -/
theorem remoteFields_roundTrips : remoteFields.RoundTrips := by
  have hmode : (RemoteMode.fields.flatten ["host", "user", "env"]).RoundTrips :=
    RemoteMode.roundTrips.flatten (by decide)
  refine (Fields.string_roundTrips _).prod (.prod (Fields.string_roundTrips _) ?_) (by decide)
  exact hmode.prod fun _ => envField_roundTrips

/-- A process on the local network is read back. -/
theorem remoteLanFields_roundTrips : remoteLanFields.RoundTrips := by
  refine (Fields.string_roundTrips _).prod (.prod (Fields.string_roundTrips _) ?_) (by decide)
  exact (Fields.string_roundTrips _).prod fun _ => Fields.strings_roundTrips _

/-- A package behind a tunnel is read back. -/
theorem wireguardFields_roundTrips : wireguardFields.RoundTrips := by
  refine (Fields.string_roundTrips _).prod (.prod (Fields.string_roundTrips _) ?_) (by decide)
  exact fun _ => Fields.string_roundTrips _

/-- The tag is not the name of a field. -/
theorem write_ne_tag (target : ServiceTarget) : ∀ m ∈ target.write, m.1 ≠ "type" := by
  intro m hm
  cases target with
  | process => exact Fields.ne_of_mem_write (by decide) hm
  | docker => exact Fields.ne_of_mem_write (by decide) hm
  | dockerAttach => exact Fields.ne_of_mem_write (by decide) hm
  | processAttach => exact Fields.ne_of_mem_write (by decide) hm
  | remote => exact Fields.ne_of_mem_write (by decide) hm
  | remoteLan => exact Fields.ne_of_mem_write (by decide) hm
  | wireguard => exact Fields.ne_of_mem_write (by decide) hm

/-- A target is read back as it was written. -/
theorem roundTrips : format.RoundTrips := by
  intro target
  refine (Format.tagged_iff target.write_ne_tag).mpr ?_
  cases target with
  | process => exact (processFields_roundTrips _).map _
  | docker => exact (dockerFields_roundTrips _).map _
  | dockerAttach => exact (dockerAttachFields_roundTrips _).map _
  | processAttach => exact (processAttachFields_roundTrips _).map _
  | remote => exact (remoteFields_roundTrips _).map _
  | remoteLan => exact (remoteLanFields_roundTrips _).map _
  | wireguard host user package =>
    have hread := (wireguardFields_roundTrips (host, user, package)).map
      fun (host, user, package) => wireguard host user package
    exact hread

end ServiceTarget

/-- A health check is read back as it was written. -/
theorem HealthCheck.roundTrips : HealthCheck.format.RoundTrips := by
  refine (Fields.RoundTrips.equiv ?_ _).object
  refine (Fields.string_roundTrips _).prod (.prod (Fields.strings_roundTrips _) ?_) (by decide)
  refine (Fields.required_roundTrips Format.u64_roundTrips _).prod ?_
  exact (Fields.required_roundTrips Format.u32_roundTrips _).prod fun _ =>
    Fields.required_roundTrips Format.u64_roundTrips _

/-- A configuration is read back as it was written. -/
theorem ServiceConfig.roundTrips : ServiceConfig.format.RoundTrips := by
  refine (Fields.RoundTrips.equiv ?_ _).object
  have htarget := Fields.required_roundTrips ServiceTarget.roundTrips "target"
  refine (Fields.string_roundTrips _).prod (htarget.prod ?_) (by decide)
  exact (Fields.defaulted_roundTrips Dependency.roundTrips.list _ _).prod fun _ =>
    Fields.optional_roundTrips HealthCheck.roundTrips _ (Fields.object_neverNull _)

/-- A status is read back as it was written. -/
theorem ServiceStatus.roundTrips : ServiceStatus.format.RoundTrips := by
  intro status
  refine Format.external_iff.mpr ?_
  cases status with
  | _ => rfl

end GraphHarness.Orchestration
