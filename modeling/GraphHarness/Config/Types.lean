import GraphHarness.Collections

/-!
# The configuration file's types

The part of `harness-config`'s `lib.rs` that the modelled functions read.
`networks` keeps the names only: nothing looks at a network's definition.

Every default of the file format is filled in by `serde` before the modelled code runs, so
the fields hold what the code reads. `DependsOn` is the relation the sorts are about, and
`DependenciesExist` what `validate_config` establishes for it.

Durations are whole seconds, as the file gives them. The errors have the text that `Display`
gives them (`ConfigError.toString`), as some of them are printed as part of others.
-/

namespace GraphHarness

/-- `ConfigError`. The two foreign errors carry their rendered text. -/
inductive ConfigError where
  | readError (message : String)
  | yamlError (message : String)
  | validationError (message : String)
  | envVarNotFound (names : String)
  | serviceNotFound (name : String)
  deriving DecidableEq, Repr

/-- The `Display` texts. -/
def ConfigError.toString : ConfigError → String
  | .readError e => "Failed to read config file: " ++ e
  | .yamlError e => "Failed to parse YAML: " ++ e
  | .validationError m => "Invalid configuration: " ++ m
  | .envVarNotFound n => "Environment variable not found: " ++ n
  | .serviceNotFound n => "Service '" ++ n ++ "' not found"

/-- `PortMapping`: a bare container port, or `"host:container"`. -/
inductive PortMapping where
  | simple (port : UInt16)
  | full (mapping : String)
  deriving DecidableEq, Repr

/-- `ServiceType` of the YAML file. -/
inductive ServiceType where
  | docker (image : String) (ports : List PortMapping) (volumes : List String)
      (command entrypoint : Option (List String))
  | process (binary : String) (args : List String) (workingDir user : Option String)
  | remote (host binary : String) (args : List String) (workingDir : Option String)
  | package (host package : String) (version installPath : Option String)
  deriving DecidableEq, Repr

/-- `TcpCheck`. -/
structure TcpCheck where
  port : UInt16
  timeout : UInt64
  deriving DecidableEq, Repr

/-- `HealthCheckType` of the YAML file. -/
inductive HealthCheckType where
  | command (command : String) (args : List String)
  | http (http : String)
  | tcp (tcp : TcpCheck)
  deriving DecidableEq, Repr

/-- `HealthCheck` of the YAML file, its defaults filled in. -/
structure HealthCheck where
  checkType : HealthCheckType
  interval : UInt64
  retries : UInt32
  timeout : UInt64
  deriving DecidableEq, Repr

/-- `Service` of the YAML file. -/
structure Service where
  serviceType : ServiceType
  network : String
  env : HashMap String String
  dependencies : List String
  healthCheck : Option HealthCheck
  startupTimeout : Option UInt64
  deriving DecidableEq

/-- `Config`, the whole file. -/
structure Config where
  version : String
  networks : List String
  services : HashMap String Service
  deriving DecidableEq

namespace Config

/-- `a` lists `b` among its `dependencies`. -/
def DependsOn (cfg : Config) (a b : String) : Prop :=
  ∃ service, cfg.services.lookup a = some service ∧ b ∈ service.dependencies

/-- Every dependency names a service of the configuration. -/
def DependenciesExist (cfg : Config) : Prop :=
  ∀ a b, cfg.DependsOn a b → b ∈ cfg.services

/-- The dependencies of each entry are declared. -/
theorem dependenciesExist_iff {cfg : Config} : cfg.DependenciesExist ↔
    ∀ entry ∈ cfg.services.entries, ∀ d ∈ entry.2.dependencies, d ∈ cfg.services := by
  constructor
  · intro h entry he d hd
    exact h entry.1 d ⟨entry.2, AList.mem_lookup_iff.mpr he, hd⟩
  · rintro h a b ⟨service, hl, hb⟩
    exact h ⟨a, service⟩ (AList.mem_lookup_iff.mp hl) b hb

instance (cfg : Config) : Decidable cfg.DependenciesExist :=
  decidable_of_iff _ dependenciesExist_iff.symm

end Config

end GraphHarness
