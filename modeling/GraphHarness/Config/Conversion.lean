import GraphHarness.Config.Parser
import GraphHarness.Config.Validation

/-!
# What a conversion carries over

A declaration says more than a target has a field for. The conversion skips `host:container`
mappings and the overrides of a container, and it turns remote services into the deprecated
`RemoteLan` and `Wireguard` targets, which have neither an environment nor a working
directory, although `Remote` targets do have an environment and the declaration's own
working directory is bound in the match. Nothing tells the user: the service starts without.

> `convert_carries` — of a service that resolves: its name, dependencies and health check,
> and what its target has a field for.
> `carriesWhole_iff` — the whole of it is carried over **exactly if** nothing is declared
> that the target has no field for: no mapping and no override of a container, no
> environment and no working directory of a service on another host.

A part of the declaration is represented in a target if it can be told from the target, that
is, if every declaration with this target says the same about it.

`Represented` says this of one part of a declaration, so that it does not matter how a
target happens to be built. `convertTarget_withoutOverrides` is the reason for the other
direction: two declarations that differ only in their overrides have the same target.

The conversion is that of `convert_to_orchestrator_with_context`, with the variables of the
service resolved first. A health check keeps its times, and its kind becomes a command
(`curl` for a URL, `nc` for a port). The resolved environment is all of what a local process
or a container gets, and none of it goes to another host.
-/

namespace GraphHarness.Parser

open Resolver (ResolutionContext Resolves resolveServiceEnv resolveServiceEnv_keys
  serviceVariables)
open Orchestration (ServiceConfig ServiceTarget)

/-- A conversion that succeeds. -/
theorem convert_eq {processEnv : HashMap String String} {cfg : Config} {name : String}
    {service : Service} {context : Option ResolutionContext} {env : HashMap String String}
    (hs : cfg.services.lookup name = some service)
    (he : resolveServiceEnv processEnv service (context.getD (.new processEnv)) = .ok env) :
    convertToOrchestratorWithContext processEnv cfg name context =
      .ok ⟨name, convertTarget env service.serviceType, service.dependencies.map .service,
        service.healthCheck.map convertHealthCheck⟩ := by
  rw [convertToOrchestratorWithContext, hs]
  dsimp only
  rw [he]

/-! ## What is carried over -/

/-- A mapping of the short form, which is one port number. -/
def isSimple : PortMapping → Bool
  | .simple _ => true
  | .full _ => false

/-- The service runs on the host of the daemon. -/
def isLocal : ServiceType → Bool
  | .docker _ _ _ _ _ | .process _ _ _ _ => true
  | .remote _ _ _ _ | .package _ _ _ _ => false

/-- A target that runs what is declared, as far as targets can say it. -/
inductive Runs (env : HashMap String String) : ServiceType → ServiceTarget → Prop
  | docker {image : String} {ports : List PortMapping} {published : List UInt16}
    {volumes : List String} {command entrypoint : Option (List String)}
    (hports : published.map .simple = ports.filter isSimple) :
    Runs env (.docker image ports volumes command entrypoint)
      (.docker image env published volumes)
  | process {binary : String} {args : List String} {workingDir user : Option String} :
    Runs env (.process binary args workingDir user) (.process binary args env workingDir)
  | remote {host binary : String} {args : List String} {workingDir : Option String} :
    Runs env (.remote host binary args workingDir) (.remoteLan host "root" binary args)
  | package {host package : String} {version installPath : Option String} :
    Runs env (.package host package version installPath) (.wireguard host "root" package)

/-- What is said of a health check's timing. -/
def timing (hc : HealthCheck) : UInt64 × UInt32 × UInt64 := (hc.interval, hc.retries, hc.timeout)

/-- What a converted service has of the declaration and of its resolved environment. -/
structure Carries (cfg : Config) (name : String) (service : Service)
    (env : HashMap String String) (out : ServiceConfig) : Prop where
  name : out.name = name
  target : Runs env service.serviceType out.target
  env : isLocal service.serviceType = true → out.target.env = env
  remoteEnv : isLocal service.serviceType = false → out.target.env = ∅
  dependencies : out.dependencies = service.dependencies.map .service
  known : ∀ dep ∈ out.dependencies, ∃ other ∈ cfg.services, dep = .service other
  healthCheck : (out.healthCheck.map fun hc => (hc.interval, hc.retries, hc.timeout)) =
    service.healthCheck.map timing

/-- The ports of the short form are kept, in their order, and no others. -/
theorem simplePorts_simple (ports : List PortMapping) :
    (simplePorts ports).map .simple = ports.filter isSimple := by
  induction ports with
  | nil => rfl
  | cons entry ports ih =>
    cases entry with
    | simple port =>
      rw [List.filter_cons_of_pos (by rfl), ← ih]
      rfl
    | full mapping =>
      rw [List.filter_cons_of_neg Bool.false_ne_true, ← ih]
      rfl

/-- What is to be run is what is declared. -/
theorem convertTarget_runs (env : HashMap String String) (serviceType : ServiceType) :
    Runs env serviceType (convertTarget env serviceType) := by
  cases serviceType with
  | docker image ports volumes command entrypoint => exact .docker (simplePorts_simple ports)
  | process => exact .process
  | remote => exact .remote
  | package => exact .package

/-- A local service gets its environment, and a remote one an empty one. -/
theorem convertTarget_env (env : HashMap String String) (serviceType : ServiceType) :
    (convertTarget env serviceType).env = if isLocal serviceType then env else ∅ := by
  cases serviceType with
  | _ => rfl

/-- In a validated configuration, the conversion of a service that resolves carries over its
name, its dependencies, the timing of its health check, and its target's data. -/
theorem convert_carries {ord : HashOrder} {cfg : Config} (hvalid : validateConfig ord cfg = .ok ())
    {name : String} {service : Service} (hs : cfg.services.lookup name = some service)
    {processEnv env : HashMap String String} {context : Option ResolutionContext}
    (he : resolveServiceEnv processEnv service (context.getD (.new processEnv)) = .ok env) :
    ∃ out, convertToOrchestratorWithContext processEnv cfg name context = .ok out ∧
      Carries cfg name service env out := by
  refine ⟨_, convert_eq hs he, rfl, convertTarget_runs env _, ?_, ?_, rfl, ?_, ?_⟩
  · intro hlocal
    rw [convertTarget_env, if_pos hlocal]
  · intro hremote
    rw [convertTarget_env, hremote]
    rfl
  · intro dep hdep
    obtain ⟨other, hother, rfl⟩ := List.mem_map.mp hdep
    exact ⟨other, validateConfig_dependenciesExist hvalid name other ⟨service, hs, hother⟩, rfl⟩
  · dsimp only
    rw [Option.map_map]
    congr 1

/-! ## The whole declaration -/

/-- The port of the host that an entry of `ports` publishes. -/
inductive Publishes : PortMapping → UInt16 → Prop
  | simple (port : UInt16) : Publishes (.simple port) port
  | full (port : UInt16) (container : String) :
    Publishes (.full (Nat.repr port.toNat ++ ":" ++ container)) port

/-- The port mappings of a declaration; only a container has any. -/
def declaredPorts : ServiceType → List PortMapping
  | .docker _ ports _ _ _ => ports
  | _ => []

/-- The ports that a target publishes. -/
def targetPorts : ServiceTarget → List UInt16
  | .docker _ _ ports _ => ports
  | _ => []

/-- The command that a container is to run. -/
def containerCommand : ServiceType → Option (List String)
  | .docker _ _ _ command _ => command
  | _ => none

/-- The entry point that a container is to have. -/
def containerEntrypoint : ServiceType → Option (List String)
  | .docker _ _ _ _ entrypoint => entrypoint
  | _ => none

/-- The working directory on a remote host. -/
def remoteDir : ServiceType → Option String
  | .remote _ _ _ workingDir => workingDir
  | _ => none

/-- What is declared of a part, if anything, can be told from the target. -/
def Represented {α : Type} (part : ServiceType → Option α) (serviceType : ServiceType)
    (env : HashMap String String) (target : ServiceTarget) : Prop :=
  ∀ value, part serviceType = some value →
    ∀ other, convertTarget env other = target → part other = some value

/-- A converted service has all of the declaration. -/
structure CarriesWhole (service : Service) (env : HashMap String String) (out : ServiceConfig) :
    Prop where
  resolved : out.target.env = env
  ports : List.Forall₂ Publishes (declaredPorts service.serviceType) (targetPorts out.target)
  command : Represented containerCommand service.serviceType env out.target
  entrypoint : Represented containerEntrypoint service.serviceType env out.target
  workingDir : Represented remoteDir service.serviceType env out.target
  dependencies : out.dependencies = service.dependencies.map .service
  healthCheck : (out.healthCheck.map fun hc => (hc.interval, hc.retries, hc.timeout)) =
    service.healthCheck.map timing

/-- Nothing is declared that a target has no field for. -/
def Plain (service : Service) : Prop :=
  match service.serviceType with
  | .docker _ ports _ command entrypoint =>
    (∀ entry ∈ ports, isSimple entry = true) ∧ command = none ∧ entrypoint = none
  | .process _ _ _ _ => True
  | .remote _ _ _ workingDir => service.env = ∅ ∧ workingDir = none
  | .package _ _ _ _ => service.env = ∅

/-- Without what no target has a field for. -/
def withoutOverrides : ServiceType → ServiceType
  | .docker image ports volumes _ _ => .docker image ports volumes none none
  | .remote host binary args _ => .remote host binary args none
  | other => other

/-- The overrides of a container play no part in its conversion. -/
theorem convertTarget_withoutOverrides (env : HashMap String String) (serviceType : ServiceType) :
    convertTarget env (withoutOverrides serviceType) = convertTarget env serviceType := by
  cases serviceType with
  | _ => rfl

/-- A part that can be left out without a change of the target is represented only where
there is none. -/
theorem represented_iff {α : Type} {part : ServiceType → Option α} {serviceType : ServiceType}
    (hwithout : part (withoutOverrides serviceType) = none) (env : HashMap String String) :
    Represented part serviceType env (convertTarget env serviceType) ↔ part serviceType = none := by
  constructor
  · intro h
    cases hpart : part serviceType with
    | none => rfl
    | some value =>
      have hsame := h value hpart _ (convertTarget_withoutOverrides env serviceType)
      rw [hwithout] at hsame
      cases hsame
  · intro hnone value hpart
    rw [hnone] at hpart
    cases hpart

/-- Each entry has its port in the target exactly if none is a mapping. -/
theorem publishes_simplePorts_iff (ports : List PortMapping) :
    List.Forall₂ Publishes ports (simplePorts ports) ↔ ∀ entry ∈ ports, isSimple entry = true := by
  constructor
  · intro h
    have hlength := h.length_eq
    rw [← List.length_map PortMapping.simple, simplePorts_simple] at hlength
    exact List.length_filter_eq_length_iff.mp hlength.symm
  · intro h
    induction ports with
    | nil => exact .nil
    | cons entry ports ih =>
      obtain ⟨hentry, hports⟩ := List.forall_mem_cons.mp h
      cases entry with
      | simple port => exact .cons (.simple port) (ih hports)
      | full mapping => cases hentry

/-- What a resolved environment is empty of. -/
theorem resolved_eq_empty_iff {processEnv env : HashMap String String} {service : Service}
    {context : ResolutionContext} (he : resolveServiceEnv processEnv service context = .ok env) :
    env = ∅ ↔ service.env = ∅ := by
  have hempty : ∀ map : HashMap String String, map = ∅ ↔ ∀ key, key ∉ map := by
    intro map
    constructor
    · rintro rfl
      exact AList.notMem_empty
    · intro h
      refine AList.ext (List.eq_nil_iff_forall_not_mem.mpr ?_)
      intro entry hentry
      exact h entry.1 (AList.mem_keys.mpr (List.mem_map_of_mem hentry))
  rw [hempty, hempty]
  exact forall_congr' fun key => not_congr (resolveServiceEnv_keys he key)

/-- The parts of the target are there exactly if the declaration is a plain one. -/
theorem plain_iff {processEnv env : HashMap String String} {service : Service}
    {context : ResolutionContext} (he : resolveServiceEnv processEnv service context = .ok env) :
    Plain service ↔
      (convertTarget env service.serviceType).env = env ∧
      List.Forall₂ Publishes (declaredPorts service.serviceType)
        (targetPorts (convertTarget env service.serviceType)) ∧
      containerCommand service.serviceType = none ∧
      containerEntrypoint service.serviceType = none ∧ remoteDir service.serviceType = none := by
  rw [convertTarget_env]
  unfold Plain
  cases service.serviceType with
  | docker image ports volumes command entrypoint =>
    dsimp only
    rw [← publishes_simplePorts_iff]
    exact ⟨fun h => ⟨rfl, h.1, h.2.1, h.2.2, rfl⟩, fun h => ⟨h.2.1, h.2.2.1, h.2.2.2.1⟩⟩
  | process => exact ⟨fun _ => ⟨rfl, .nil, rfl, rfl, rfl⟩, fun _ => trivial⟩
  | remote host binary args workingDir =>
    dsimp only
    rw [← resolved_eq_empty_iff he]
    exact ⟨fun h => ⟨h.1.symm, .nil, rfl, rfl, h.2⟩, fun h => ⟨h.1.symm, h.2.2.2.2⟩⟩
  | package host package version installPath =>
    dsimp only
    rw [← resolved_eq_empty_iff he]
    exact ⟨fun h => ⟨h.symm, .nil, rfl, rfl, rfl⟩, fun h => h.1.symm⟩

/-- **The whole declaration is carried over exactly if it is a plain one**: of every service
of a validated configuration, in every context in which it resolves. -/
theorem carriesWhole_iff {ord : HashOrder} {cfg : Config}
    (hvalid : validateConfig ord cfg = .ok ()) {name : String} {service : Service}
    (hs : cfg.services.lookup name = some service) {processEnv env : HashMap String String}
    {context : Option ResolutionContext}
    (he : resolveServiceEnv processEnv service (context.getD (.new processEnv)) = .ok env) :
    ∃ out, convertToOrchestratorWithContext processEnv cfg name context = .ok out ∧
      (CarriesWhole service env out ↔ Plain service) := by
  obtain ⟨out, hout, hcarries⟩ := convert_carries hvalid hs he
  refine ⟨out, hout, ?_⟩
  have htarget : out.target = convertTarget env service.serviceType := by
    rw [convert_eq hs he] at hout
    obtain rfl := Except.ok.inj hout
    rfl
  have hcommand : containerCommand (withoutOverrides service.serviceType) = none := by
    cases service.serviceType with
    | _ => rfl
  have hentrypoint : containerEntrypoint (withoutOverrides service.serviceType) = none := by
    cases service.serviceType with
    | _ => rfl
  have hworkingDir : remoteDir (withoutOverrides service.serviceType) = none := by
    cases service.serviceType with
    | _ => rfl
  rw [plain_iff he, ← represented_iff hcommand env, ← represented_iff hentrypoint env,
    ← represented_iff hworkingDir env, ← htarget]
  constructor
  · intro h
    exact ⟨h.resolved, h.ports, h.command, h.entrypoint, h.workingDir⟩
  · intro ⟨henv, hports, hcommand, hentrypoint, hworkingDir⟩
    exact ⟨henv, hports, hcommand, hentrypoint, hworkingDir, hcarries.dependencies,
      hcarries.healthCheck⟩

/-- A container with a mapping, a command and an entrypoint. -/
def webService : Service where
  serviceType := .docker "nginx" [.simple 80, .full "8080:80"] [] (some ["serve"])
    (some ["nginx"])
  network := "local"
  env := ∅
  dependencies := ["worker"]
  healthCheck := none
  startupTimeout := none

/-- A service on another host, with an environment and a working directory. -/
def workerService : Service where
  serviceType := .remote "10.0.0.7" "worker" [] (some "/srv")
  network := "local"
  env := AList.insert "MODE" "fast" ∅
  dependencies := []
  healthCheck := some ⟨.http "http://10.0.0.7/health", 5, 3, 1⟩
  startupTimeout := none

/-- A container with a port and nothing else. -/
def cacheService : Service where
  serviceType := .docker "redis" [.simple 6379] ["/data"] none none
  network := "local"
  env := ∅
  dependencies := []
  healthCheck := none
  startupTimeout := none

/-- A configuration with a service that loses something, one that does not, and a remote one. -/
def webConfig : Config where
  version := "1.0"
  networks := ["local"]
  services := AList.insert "web" webService
    (AList.insert "worker" workerService (AList.insert "cache" cacheService ∅))

theorem webConfig_valid : validateConfig .stored webConfig = .ok () := by decide

theorem lookup_web : webConfig.services.lookup "web" = some webService := AList.lookup_insert _

theorem lookup_worker : webConfig.services.lookup "worker" = some workerService := by
  rw [webConfig, AList.lookup_insert_ne (by decide), AList.lookup_insert]

theorem resolve_web : resolveServiceEnv ∅ webService ((none : Option ResolutionContext).getD
    (.new ∅)) = .ok ∅ := rfl

theorem resolve_worker : ∃ env, resolveServiceEnv ∅ workerService
    ((none : Option ResolutionContext).getD (.new ∅)) = .ok env ∧ "MODE" ∈ env := by
  have hresolves : ∀ item ∈ serviceVariables workerService,
      Resolves ∅ ((none : Option ResolutionContext).getD (.new ∅)) item := by
    rw [show serviceVariables workerService = [] from rfl]
    intro item hitem
    cases hitem
  obtain ⟨env, henv⟩ := (Resolver.resolveServiceEnv_ok_iff _ _ _).mpr hresolves
  exact ⟨env, henv, (resolveServiceEnv_keys henv "MODE").mpr (by decide)⟩

theorem lookup_cache : webConfig.services.lookup "cache" = some cacheService := by
  rw [webConfig, AList.lookup_insert_ne (by decide), AList.lookup_insert_ne (by decide),
    AList.lookup_insert]

/-- A container with short ports and no overrides is carried whole. -/
theorem carriesWhole_cache : ∃ out,
    convertToOrchestratorWithContext ∅ webConfig "cache" none = .ok out ∧
      CarriesWhole cacheService ∅ out := by
  have he : resolveServiceEnv ∅ cacheService ((none : Option ResolutionContext).getD (.new ∅)) =
    .ok ∅ := rfl
  obtain ⟨out, hout, hiff⟩ := carriesWhole_iff webConfig_valid lookup_cache he
  exact ⟨out, hout, hiff.mpr ⟨by decide, rfl, rfl⟩⟩

/-! ## What is left behind -/

/-- Of every service of a validated configuration that resolves, the conversion carries over
this part of the declaration. -/
def AlwaysCarried (part : Service → HashMap String String → ServiceTarget → Prop) : Prop :=
  ∀ (ord : HashOrder) (cfg : Config), validateConfig ord cfg = .ok () →
    ∀ (name : String) (service : Service), cfg.services.lookup name = some service →
      ∀ (processEnv env : HashMap String String) (context : Option ResolutionContext),
        resolveServiceEnv processEnv service (context.getD (.new processEnv)) = .ok env →
        ∃ out, convertToOrchestratorWithContext processEnv cfg name context = .ok out ∧
          part service env out.target

/-- A part that is carried by every conversion is one of the target that is converted. -/
theorem AlwaysCarried.convertTarget {part : Service → HashMap String String → ServiceTarget → Prop}
    (h : AlwaysCarried part) {ord : HashOrder} {cfg : Config}
    (hvalid : validateConfig ord cfg = .ok ()) {name : String} {service : Service}
    (hs : cfg.services.lookup name = some service) {processEnv env : HashMap String String}
    {context : Option ResolutionContext}
    (he : resolveServiceEnv processEnv service (context.getD (.new processEnv)) = .ok env) :
    part service env (convertTarget env service.serviceType) := by
  obtain ⟨out, hout, hpart⟩ := h ord cfg hvalid name service hs processEnv env context he
  rw [convert_eq hs he] at hout
  obtain rfl := Except.ok.inj hout
  exact hpart

/-- Not the environment of a service on another host, not a mapping, not a command or an
entrypoint, not a working directory on another host. -/
theorem conversion_loses :
    ¬ AlwaysCarried (fun _ env target => target.env = env) ∧
    ¬ AlwaysCarried (fun service _ target =>
      List.Forall₂ Publishes (declaredPorts service.serviceType) (targetPorts target)) ∧
    ¬ AlwaysCarried (fun service env target =>
      Represented containerCommand service.serviceType env target) ∧
    ¬ AlwaysCarried (fun service env target =>
      Represented containerEntrypoint service.serviceType env target) ∧
    ¬ AlwaysCarried (fun service env target =>
      Represented remoteDir service.serviceType env target) := by
  refine ⟨?_, ?_, ?_, ?_, ?_⟩
  · intro h
    obtain ⟨env, hresolved, hmode⟩ := resolve_worker
    have hempty : ∅ = env := h.convertTarget webConfig_valid lookup_worker hresolved
    rw [← hempty] at hmode
    exact AList.notMem_empty "MODE" hmode
  · intro h
    have hports := h.convertTarget webConfig_valid lookup_web resolve_web
    have hsimple := (publishes_simplePorts_iff _).mp hports
    exact absurd hsimple (by decide)
  · intro h
    have hnone := (represented_iff rfl _).mp (h.convertTarget webConfig_valid lookup_web resolve_web)
    cases hnone
  · intro h
    have hnone := (represented_iff rfl _).mp (h.convertTarget webConfig_valid lookup_web resolve_web)
    cases hnone
  · intro h
    obtain ⟨env, hresolved, _⟩ := resolve_worker
    have hnone := (represented_iff rfl _).mp
      (h.convertTarget webConfig_valid lookup_worker hresolved)
    cases hnone

end GraphHarness.Parser
