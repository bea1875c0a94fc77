import GraphHarness.Config.Resolver
import GraphHarness.Orchestration.Config

/-!
# Validation and conversion (`parser.rs`)

`validate_config`, which every configuration the CLI works with has passed, and
the conversion of one service into what the daemon is asked to run. YAML parsing
is `serde`'s; the model starts at the parsed `Config`.

* `validateConfig_dependenciesExist`: what the sorts rely on;
* `validateConfig_wellFormed`: what the resolver relies on;
* `convert_ok_iff`: a conversion can only fail on the service's variables.

The checks of `validate_config` are loops that return at the first error, and each has its
own lemma; `validateConfig_parts` puts them together in their order. Nothing among them
looks for a cycle: that is left to the sort, which fails on one.

The version is compared as a text, networks by their name, and a service is checked against
the declared services and networks only. Of the networks' definitions nothing is read here,
and they are not part of the model's `Config`. A path is passed on as it is written.
-/

namespace GraphHarness.Parser

open Resolver (ResolutionContext resolveServiceEnv serviceVariables Resolves)
open Orchestration (ServiceConfig ServiceTarget)

/-! ## Validation -/

/-- The error about the version. -/
def unsupportedVersion (version : String) : ConfigError :=
  .validationError ("Unsupported version: " ++ version ++ ", expected 1.0")

/-- The error about a network that is not declared. -/
def unknownNetwork (name network : String) : ConfigError :=
  .validationError ("Service '" ++ name ++ "' references unknown network '" ++ network ++ "'")

/-- The error about a dependency that is not there. -/
def unknownService (name dep : String) : ConfigError :=
  .validationError ("Service '" ++ name ++ "' depends on unknown service '" ++ dep ++ "'")

/-- The dependencies of one service exist. -/
def checkDependencies (cfg : Config) (name : String) : List String → Except ConfigError Unit
  | [] => .ok ()
  | dep :: deps =>
    if dep ∈ cfg.services then checkDependencies cfg name deps
    else .error (unknownService name dep)

/-- The loop over the services: the network, then the dependencies. -/
def checkServices (cfg : Config) : List (Σ _ : String, Service) → Except ConfigError Unit
  | [] => .ok ()
  | ⟨name, service⟩ :: services =>
    if service.network ∉ cfg.networks then .error (unknownNetwork name service.network)
    else
      match checkDependencies cfg name service.dependencies with
      | .ok () => checkServices cfg services
      | .error e => .error e

/-- `validate_config`: the version, the networks and the dependencies of each service, and last
the references. -/
def validateConfig (ord : HashOrder) (cfg : Config) : Except ConfigError Unit :=
  if cfg.version ≠ "1.0" then .error (unsupportedVersion cfg.version)
  else
    match checkServices cfg cfg.services.entries with
    | .ok () => Resolver.validateReferences ord cfg
    | .error e => .error e

/-! ## Conversion -/

/-- The ports given as a number; `"host:container"` mappings are skipped. -/
def simplePorts (ports : List PortMapping) : List UInt16 :=
  ports.filterMap fun
    | .simple port => some port
    | .full _ => none

def convertTarget (env : HashMap String String) : ServiceType → ServiceTarget
  | .docker image ports volumes _ _ => .docker image env (simplePorts ports) volumes
  | .process binary args workingDir _ => .process binary args env workingDir
  | .remote host binary args _ => .remoteLan host "root" binary args
  | .package host package _ _ => .wireguard host "root" package

/-- HTTP and TCP checks become `curl` and `nc` commands. -/
def convertHealthCheck (hc : HealthCheck) : Orchestration.HealthCheck :=
  let (command, args) :=
    match hc.checkType with
    | .command command args => (command, args)
    | .http http => ("curl", ["-f", http])
    | .tcp tcp => ("nc", ["-z", "localhost", Nat.repr tcp.port.toNat])
  { command := command, args := args, interval := hc.interval, retries := hc.retries,
    timeout := hc.timeout }

/-- `convert_to_orchestrator_with_context`. Without a context it is a new one over the
environment of the process. -/
def convertToOrchestratorWithContext (processEnv : HashMap String String) (cfg : Config)
    (serviceName : String) (context : Option ResolutionContext) :
    Except ConfigError ServiceConfig :=
  match cfg.services.lookup serviceName with
  | none => .error (.serviceNotFound serviceName)
  | some service =>
    match resolveServiceEnv processEnv service
        (context.getD (ResolutionContext.new processEnv)) with
    | .error e => .error e
    | .ok env =>
      .ok {
        name := serviceName
        target := convertTarget env service.serviceType
        dependencies := service.dependencies.map .service
        healthCheck := service.healthCheck.map convertHealthCheck }

/-! ## What a validated configuration satisfies -/

/-- Dependencies that pass exist. -/
theorem checkDependencies_ok {cfg : Config} {name : String} : ∀ {deps : List String},
    checkDependencies cfg name deps = .ok () → ∀ dep ∈ deps, dep ∈ cfg.services := by
  intro deps
  induction deps with
  | nil => intro _ dep h; simp at h
  | cons dep deps ih =>
    intro h
    rw [checkDependencies] at h
    split at h
    next hdep => exact List.forall_mem_cons.mpr ⟨hdep, ih h⟩
    next => simp at h

/-- So do those of every service, where all services pass. -/
theorem checkServices_ok {cfg : Config} : ∀ {services : List (Σ _ : String, Service)},
    checkServices cfg services = .ok () →
      ∀ entry ∈ services, ∀ dep ∈ entry.2.dependencies, dep ∈ cfg.services := by
  intro services
  induction services with
  | nil => intro _ entry h; simp at h
  | cons entry services ih =>
    intro h
    obtain ⟨name, service⟩ := entry
    rw [checkServices] at h
    split at h
    next => simp at h
    next =>
      split at h
      next hdeps => exact List.forall_mem_cons.mpr ⟨checkDependencies_ok hdeps, ih h⟩
      next => simp at h

/-- A valid configuration passes both checks. -/
theorem validateConfig_parts {ord : HashOrder} {cfg : Config}
    (h : validateConfig ord cfg = .ok ()) :
    checkServices cfg cfg.services.entries = .ok () ∧
      Resolver.validateReferences ord cfg = .ok () := by
  unfold validateConfig at h
  split at h
  next => simp at h
  next =>
    split at h
    next hs => exact ⟨hs, h⟩
    next => simp at h

/-- In a valid configuration every dependency exists. -/
theorem validateConfig_dependenciesExist {ord : HashOrder} {cfg : Config}
    (h : validateConfig ord cfg = .ok ()) : cfg.DependenciesExist :=
  Config.dependenciesExist_iff.mpr (checkServices_ok (validateConfig_parts h).1)

/-- In a valid configuration every expression of a service can be parsed. -/
theorem validateConfig_wellFormed {ord : HashOrder} {cfg : Config}
    (h : validateConfig ord cfg = .ok ()) {name : String} {service : Service}
    (hs : cfg.services.lookup name = some service) :
    ∀ item ∈ serviceVariables service, ∃ start stop var, item = .ok (start, stop, var) :=
  Resolver.validateReferences_wellFormed (validateConfig_parts h).2 hs

/-- **A conversion fails on the service's variables only.** -/
theorem convert_ok_iff {processEnv : HashMap String String} {cfg : Config} {name : String}
    {service : Service} (hs : cfg.services.lookup name = some service)
    (context : ResolutionContext) :
    (∃ out, convertToOrchestratorWithContext processEnv cfg name (some context) = .ok out) ↔
      ∀ item ∈ serviceVariables service, Resolves processEnv context item := by
  rw [← Resolver.resolveServiceEnv_ok_iff, convertToOrchestratorWithContext, hs]
  dsimp only [Option.getD_some]
  cases resolveServiceEnv processEnv service context with
  | ok env => simp
  | error e => simp

end GraphHarness.Parser
