import GraphHarness.Config.Conversion
import GraphHarness.Harness.Order
import GraphHarness.Text

/-!
# `harness validate` (`commands/validate.rs`)

The checks of a configuration file behind its parsing, with the errors and warnings of the
summary. What is printed before the summary is not modelled.

> `run_accepts_iff` — a configuration is accepted **exactly if** the parser accepts it and it
> is `Sound`: no cycle, no port of the host that is published twice, no health check that
> cannot run, and in strict mode no variable that is not set.

The findings are lists of texts, as they are printed: one for each fault, or one for all of a
kind where the source joins them. `findings` puts them together in the source's order, and a
run is accepted exactly if the list of the errors is empty; the warnings never matter for
that.

The order in which maps are iterated is an input (`Iteration`), and a port conflict lists its
services in the order of the configuration. `--strict` is read, and the file itself is not:
the run begins with what the parser has made of it.
-/

namespace GraphHarness.Validate

open Relation (TransGen)
open Resolver (Variable findAllReferences serviceVariables)

/-- The iteration order of the collections of a validation: also of the variables, the ports
and the networks. -/
structure Iteration extends HashOrder where
  names : List String → List String
  names_perm : ∀ l, (names l).Perm l
  ports : List UInt16 → List UInt16
  ports_perm : ∀ l, (ports l).Perm l

/-- The order in which the collections happen to be stored. -/
def Iteration.stored : Iteration where
  toHashOrder := HashOrder.stored
  names l := l
  names_perm l := List.Perm.refl l
  ports l := l
  ports_perm l := List.Perm.refl l

/-! ## Ports -/

/-- The port of the host, or zero. -/
def hostPort : PortMapping → UInt16
  | .simple p => p
  | .full mapping =>
    match splitOnce ":".toList mapping.toList with
    | some (host, _) => (parseU16 host).getD 0
    | none => 0

/-- Every port of the host with the service that publishes it. -/
def published (cfg : Config) : List (UInt16 × String) :=
  cfg.services.entries.flatMap fun entry =>
    (Parser.declaredPorts entry.2.serviceType).filterMap fun mapping =>
      if 0 < hostPort mapping then some (hostPort mapping, entry.1) else none

/-- The services by the host port they publish. -/
def portUsage (cfg : Config) : HashMap UInt16 (List String) := HashMap.group (published cfg)

/-- The error about a port. -/
def portConflict (port : UInt16) (services : List String) : String :=
  let port := port.toNat
  let services := ", ".intercalate services
  s!"Port {port} is used by multiple services: {services}"

/-- The ports that more than one service publishes. -/
def portErrors (it : Iteration) (cfg : Config) : List String :=
  (it.ports (portUsage cfg).keys).filterMap fun port =>
    let services := ((portUsage cfg).lookup port).getD []
    if 1 < services.length then some (portConflict port services) else none

/-! ## Health checks -/

/-- The errors of a health check. -/
def checkErrors (name : String) (check : HealthCheck) : List String :=
  match check.checkType with
  | .http _ => []
  | .tcp tcp =>
    if tcp.port = 0 then [s!"Service '{name}' has invalid TCP health check port: 0"] else []
  | .command command _ =>
    if command = "" then [s!"Service '{name}' has empty health check command"] else []

/-- The warnings of a health check. -/
def checkWarnings (name : String) (check : HealthCheck) : List String :=
  let url :=
    match check.checkType with
    | .http http =>
      if ¬ "http://".toList <+: http.toList ∧ ¬ "https://".toList <+: http.toList then
        [s!"Service '{name}' health check URL should start with http:// or https://"]
      else []
    | _ => []
  let interval := check.interval.toNat
  let timeout := check.timeout.toNat
  let interval0 :=
    if check.interval = 0 then [s!"Service '{name}' has health check interval of 0"] else []
  let late :=
    if check.interval ≤ check.timeout then
      [s!"Service '{name}' health check timeout ({timeout}) should be less than interval " ++
        s!"({interval})"]
    else []
  url ++ interval0 ++ late

/-- What the health checks of all services give. -/
def overChecks (cfg : Config) (find : String → HealthCheck → List String) : List String :=
  cfg.services.entries.flatMap fun entry =>
    match entry.2.healthCheck with
    | some check => find entry.1 check
    | none => []

/-! ## References -/

/-- A reference at its first dot. -/
def splitReference (serviceRef : String) : Option (String × String) :=
  (Nom.find ".".toList serviceRef.toList).map fun (name, found) =>
    (String.ofList name, String.ofList (found.drop 1))

/-- A reference to a service that is not declared. -/
def isInvalid (cfg : Config) (serviceRef : String) : Bool :=
  match splitReference serviceRef with
  | some (name, _) => name ∉ cfg.services
  | none => false

/-- A reference to the port of a service that declares none. -/
def portWarning (cfg : Config) (serviceRef : String) : Option String :=
  match splitReference serviceRef with
  | some (name, "port") =>
    match cfg.services.lookup name with
    | some service =>
      match service.serviceType with
      | .docker _ ports _ _ _ =>
        if ports = [] then
          some s!"Reference '{serviceRef}' used but service has no ports configured"
        else none
      | _ => some s!"Reference '{serviceRef}' used but service type doesn't expose ports"
    | none => none
  | _ => none

/-- One error for all invalid references together. -/
def referenceErrors (cfg : Config) (serviceRefs : List String) : List String :=
  let invalid := serviceRefs.filter (isInvalid cfg)
  if invalid = [] then []
  else
    let invalid := ", ".intercalate invalid
    [s!"Invalid service references: {invalid}"]

/-! ## Variables and networks -/

/-- A default makes no difference here. -/
def missingVars (processEnv : HashMap String String) (envVars : List String) : List String :=
  envVars.filter fun var => var ∉ processEnv

/-- One error for all missing variables, if `strict` is set. -/
def missingErrors (strict : Bool) (missing : List String) : List String :=
  if missing ≠ [] ∧ strict = true then
    let missing := ", ".intercalate missing
    [s!"Missing environment variables: {missing}"]
  else []

/-- One warning for all missing variables otherwise. -/
def missingWarnings (strict : Bool) (missing : List String) : List String :=
  if missing ≠ [] ∧ strict = false then
    let missing := ", ".intercalate missing
    [s!"Environment variables not currently set: {missing}"]
  else []

/-- The services by their network. -/
def servicesPerNetwork (cfg : Config) : HashMap String (List String) :=
  HashMap.group (cfg.services.entries.map fun entry => (entry.2.network, entry.1))

/-- The networks with one service, and those with none. -/
def networkWarnings (it : Iteration) (cfg : Config) : List String :=
  let perNetwork := servicesPerNetwork cfg
  let lonely := (it.names perNetwork.keys).filterMap fun network =>
    match perNetwork.lookup network with
    | some [service] =>
      if 1 < cfg.networks.length then
        some (s!"Network '{network}' has only one service ({service}), consider " ++
          "consolidating networks")
      else none
    | _ => none
  let unused := cfg.networks.filterMap fun network =>
    if network ∈ perNetwork then none
    else some s!"Network '{network}' is defined but not used by any service"
  lonely ++ unused

/-! ## The run -/

/-- The errors and warnings found. -/
structure Summary where
  errors : List String
  warnings : List String
  deriving DecidableEq

/-- `summary` is none where the run ends before it. -/
structure Outcome where
  summary : Option Summary
  result : Except String Unit

/-- The error about a cycle. -/
def cycleErrors : Except String (List String) → List String
  | .ok _ => []
  | .error e => [s!"Circular dependency detected: {e}"]

/-- Everything that is found in a configuration with an order and these references. -/
def findings (it : Iteration) (strict : Bool) (processEnv : HashMap String String) (cfg : Config)
    (sorted : Except String (List String)) (envVars serviceRefs : List String) : Summary :=
  let missing := missingVars processEnv (it.names envVars)
  let serviceRefs := it.iter .serviceRefs serviceRefs
  { errors :=
      cycleErrors sorted ++ portErrors it cfg ++ overChecks cfg checkErrors ++
        referenceErrors cfg serviceRefs ++ missingErrors strict missing
    warnings :=
      overChecks cfg checkWarnings ++ serviceRefs.filterMap (portWarning cfg) ++
        missingWarnings strict missing ++ networkWarnings it cfg }

/-- What the command returns: an error if any was found. -/
def conclude (summary : Summary) : Outcome where
  summary := some summary
  result :=
    if summary.errors = [] then .ok ()
    else
      let errors := summary.errors.length
      .error s!"Configuration validation failed with {errors} errors"

/-- `validate::run` on what the file holds. The call depth of the sort is one at which it
returns. -/
def run (valid : HashOrder) (it : Iteration) (strict : Bool) (processEnv : HashMap String String)
    (cfg : Config) : Option Outcome :=
  match Parser.validateConfig valid cfg with
  | .error _ => some ⟨none, .error "Failed to parse configuration"⟩
  | .ok () =>
    match Dependencies.topologicalSort it.toHashOrder (cfg.services.keys.length + 1) cfg [] with
    | none => none
    | some sorted =>
      match findAllReferences cfg with
      | .error e => some ⟨none, .error e.toString⟩
      | .ok (envVars, serviceRefs) =>
        some (conclude (findings it strict processEnv cfg sorted envVars serviceRefs))

/-! ## What it accepts -/

/-- The check has something to ask for. -/
def CanRun (check : HealthCheck) : Prop :=
  match check.checkType with
  | .http _ => True
  | .tcp tcp => tcp.port ≠ 0
  | .command command _ => command ≠ ""

/-- A variable is used in the environment of a service, with a default or without. -/
def Uses (cfg : Config) (var : String) : Prop :=
  ∃ name service start stop default, cfg.services.lookup name = some service ∧
    .ok (start, stop, .envVar var default) ∈ serviceVariables service

/-- What an accepted configuration is promised to be. -/
structure Sound (strict : Bool) (processEnv : HashMap String String) (cfg : Config) : Prop where
  acyclic : ∀ s, ¬ TransGen cfg.DependsOn s s
  ports : ((published cfg).map Prod.fst).Nodup
  checks : ∀ name service check, cfg.services.lookup name = some service →
    service.healthCheck = some check → CanRun check
  vars : strict = true → ∀ var, Uses cfg var → var ∈ processEnv

/-- There are no port errors if and only if no port is published twice. -/
theorem portErrors_eq_nil (it : Iteration) (cfg : Config) :
    portErrors it cfg = [] ↔ ((published cfg).map Prod.fst).Nodup := by
  rw [portErrors, List.filterMap_eq_nil_iff, ← HashMap.group_nodup_iff]
  simp only [(it.ports_perm _).mem_iff]
  refine forall₂_congr fun port _ => ?_
  dsimp only [portUsage]
  by_cases hmany : 1 < (((HashMap.group (published cfg)).lookup port).getD []).length
  · simp [hmany]
  · simpa [hmany] using Nat.not_lt.mp hmany

/-- A health check has no errors if and only if it can run. -/
theorem checkErrors_eq_nil (name : String) (check : HealthCheck) :
    checkErrors name check = [] ↔ CanRun check := by
  unfold checkErrors CanRun
  cases check.checkType with
  | http http => simp
  | tcp tcp => by_cases hport : tcp.port = 0 <;> simp [hport]
  | command command args => by_cases hcommand : command = "" <;> simp [hcommand]

/-- Nothing is found over the health checks if and only if nothing is for each. -/
theorem overChecks_eq_nil {cfg : Config} {find : String → HealthCheck → List String} :
    overChecks cfg find = [] ↔ ∀ name service check, cfg.services.lookup name = some service →
      service.healthCheck = some check → find name check = [] := by
  rw [overChecks, List.flatMap_eq_nil_iff]
  constructor
  · intro h name service check hservice hcheck
    have hentry := h ⟨name, service⟩ (AList.mem_lookup_iff.mp hservice)
    simpa [hcheck] using hentry
  · intro h entry hentry
    cases hcheck : entry.2.healthCheck with
    | none => rfl
    | some check => exact h entry.1 entry.2 check (AList.mem_lookup_iff.mpr hentry) hcheck

/-- The references of a configuration that has been parsed are to its services. -/
theorem referenceErrors_eq_nil {valid ord : HashOrder} {cfg : Config}
    (h : Resolver.validateReferences valid cfg = .ok ()) {envVars serviceRefs : List String}
    (hrefs : findAllReferences cfg = .ok (envVars, serviceRefs)) :
    referenceErrors cfg (ord.iter .serviceRefs serviceRefs) = [] := by
  unfold Resolver.validateReferences at h
  rw [hrefs] at h
  dsimp only at h
  have hknown := Resolver.checkReferences_ok h
  refine if_pos (List.filter_eq_nil_iff.mpr ?_)
  intro serviceRef hmem
  unfold isInvalid splitReference
  cases hfind : Nom.find ".".toList serviceRef.toList with
  | none => simp
  | some found =>
    have hservice := hknown serviceRef (by simpa using hmem) found.1 found.2 hfind
    simpa using hservice

/-! ### The variables that are found -/

/-- The variables of the items are added to those there. -/
theorem mem_addReferences : ∀ {items : List Resolver.Found} {refs out : List String × List String},
    Resolver.addReferences items refs = .ok out → ∀ var, var ∈ out.1 ↔
      var ∈ refs.1 ∨ ∃ start stop default, .ok (start, stop, .envVar var default) ∈ items := by
  intro items
  induction items with
  | nil =>
    intro refs out h var
    obtain rfl : refs = out := by simpa [Resolver.addReferences] using h
    simp
  | cons item items ih =>
    rintro ⟨envVars, serviceRefs⟩ out h var
    rcases item with e | ⟨start, stop, found⟩
    · simp [Resolver.addReferences] at h
    · cases found with
      | envVar name default =>
        rw [Resolver.addReferences] at h
        rw [ih h, List.mem_insert_iff]
        constructor
        · rintro ((rfl | hmem) | ⟨start', stop', default', hmem⟩)
          · exact .inr ⟨start, stop, default, List.mem_cons_self⟩
          · exact .inl hmem
          · exact .inr ⟨start', stop', default', List.mem_cons_of_mem _ hmem⟩
        · rintro (hmem | ⟨start', stop', default', hmem⟩)
          · exact .inl (.inr hmem)
          · rcases List.mem_cons.mp hmem with heq | hmem
            · cases heq
              exact .inl (.inl rfl)
            · exact .inr ⟨start', stop', default', hmem⟩
      | serviceRef service property =>
        rw [Resolver.addReferences] at h
        rw [ih h]
        simp

/-- The variables found are those used. -/
theorem mem_findAllReferences {cfg : Config} {envVars serviceRefs : List String}
    (h : findAllReferences cfg = .ok (envVars, serviceRefs)) (var : String) :
    var ∈ envVars ↔ Uses cfg var := by
  rw [show var ∈ envVars ↔ _ from mem_addReferences h var]
  constructor
  · rintro (hmem | ⟨start, stop, default, hmem⟩)
    · cases hmem
    · obtain ⟨entry, hentry, hitem⟩ := List.mem_flatMap.mp hmem
      exact ⟨entry.1, entry.2, start, stop, default, AList.mem_lookup_iff.mpr hentry, hitem⟩
  · rintro ⟨name, service, start, stop, default, hservice, hitem⟩
    exact .inr ⟨start, stop, default, List.mem_flatMap.mpr
      ⟨⟨name, service⟩, AList.mem_lookup_iff.mp hservice, hitem⟩⟩

/-- There are no missing variables if and only if `strict` is off or all are set. -/
theorem missingErrors_eq_nil (it : Iteration) (strict : Bool) (processEnv : HashMap String String)
    (envVars : List String) :
    missingErrors strict (missingVars processEnv (it.names envVars)) = [] ↔
      (strict = true → ∀ var ∈ envVars, var ∈ processEnv) := by
  have hmissing : missingVars processEnv (it.names envVars) = [] ↔
      ∀ var ∈ envVars, var ∈ processEnv := by
    simp [missingVars, (it.names_perm envVars).mem_iff]
  unfold missingErrors
  rw [← hmissing]
  split
  next hboth => simp [hboth.1, hboth.2]
  next hnot =>
    refine iff_of_true rfl ?_
    intro hstrict
    by_contra hne
    exact hnot ⟨hne, hstrict⟩

/-! ### The run -/

/-- There is no error about a cycle if and only if there is no cycle. -/
theorem cycleErrors_eq_nil {cfg : Config} (hdeps : cfg.DependenciesExist) {ord : HashOrder}
    {depth : Nat} {sorted : Except String (List String)}
    (h : Dependencies.topologicalSort ord depth cfg [] = some sorted) :
    cycleErrors sorted = [] ↔ ∀ s, ¬ TransGen cfg.DependsOn s s := by
  have hcycle := Dependencies.topologicalSort_error_iff hdeps h
  rw [Traverse.hasCycleIn_iff fun a b ha hab =>
    Dependencies.dependencyClosure_step hdeps ha hab] at hcycle
  -- a service on a cycle has a dependency, so it is one of the configuration
  have hall : (∃ s, Dependencies.dependencyClosure cfg [] s ∧ TransGen cfg.DependsOn s s) ↔
      ∃ s, TransGen cfg.DependsOn s s := by
    constructor
    · rintro ⟨s, _, hs⟩
      exact ⟨s, hs⟩
    · rintro ⟨s, hs⟩
      obtain ⟨_, hfirst, _⟩ := TransGen.head'_iff.mp hs
      exact ⟨s, Dependencies.mem_services_of_dependsOn hfirst, hs⟩
  rw [hall] at hcycle
  cases sorted with
  | ok order => simpa [cycleErrors] using hcycle
  | error e => simpa [cycleErrors] using hcycle

/-- Nothing else is looked at in a configuration that the parser does not accept. -/
theorem run_invalid {valid : HashOrder} {cfg : Config}
    (hvalid : Parser.validateConfig valid cfg ≠ .ok ()) (it : Iteration) (strict : Bool)
    (processEnv : HashMap String String) :
    ∃ outcome, run valid it strict processEnv cfg = some outcome ∧ outcome.result ≠ .ok () := by
  unfold run
  cases hresult : Parser.validateConfig valid cfg with
  | error e => exact ⟨_, rfl, by simp⟩
  | ok parsed => exact absurd hresult hvalid

/-- One that it accepts is accepted if it is sound. -/
theorem run_valid {valid : HashOrder} {cfg : Config}
    (hvalid : Parser.validateConfig valid cfg = .ok ()) (it : Iteration) (strict : Bool)
    (processEnv : HashMap String String) :
    ∃ outcome, run valid it strict processEnv cfg = some outcome ∧
      (outcome.result = .ok () ↔ Sound strict processEnv cfg) := by
  unfold run
  rw [hvalid]
  have hdeps := Parser.validateConfig_dependenciesExist hvalid
  have hreferences := (Parser.validateConfig_parts hvalid).2
  obtain ⟨sorted, hsorted⟩ := Dependencies.topologicalSort_total hdeps it.toHashOrder
    (Nat.lt_succ_self _) []
  cases hrefs : findAllReferences cfg with
  | error e =>
    rw [Resolver.validateReferences, hrefs] at hreferences
    cases hreferences
  | ok refs =>
    obtain ⟨envVars, serviceRefs⟩ := refs
    simp only [hsorted]
    refine ⟨_, rfl, ?_⟩
    have hresult : ∀ summary, (conclude summary).result = .ok () ↔ summary.errors = [] := by
      intro summary
      unfold conclude
      split <;> simp_all
    rw [hresult]
    simp only [findings, List.append_eq_nil_iff, cycleErrors_eq_nil hdeps hsorted,
      portErrors_eq_nil, overChecks_eq_nil, checkErrors_eq_nil, missingErrors_eq_nil,
      referenceErrors_eq_nil hreferences hrefs, mem_findAllReferences hrefs]
    constructor
    · rintro ⟨⟨⟨⟨hacyclic, hports⟩, hchecks⟩, _⟩, hvars⟩
      exact ⟨hacyclic, hports, hchecks, hvars⟩
    · intro hsound
      exact ⟨⟨⟨⟨hsound.acyclic, hsound.ports⟩, hsound.checks⟩, trivial⟩, hsound.vars⟩

/-- A validation always ends, and accepts a configuration exactly if the parser accepts it
and it is sound. So in strict mode also a variable with a default has to be set, while a port
that is no number is not looked at. -/
theorem run_accepts_iff (valid : HashOrder) (it : Iteration) (strict : Bool)
    (processEnv : HashMap String String) (cfg : Config) :
    ∃ outcome, run valid it strict processEnv cfg = some outcome ∧ (outcome.result = .ok () ↔
      Parser.validateConfig valid cfg = .ok () ∧ Sound strict processEnv cfg) := by
  by_cases hvalid : Parser.validateConfig valid cfg = .ok ()
  · obtain ⟨outcome, hrun, hiff⟩ := run_valid hvalid it strict processEnv
    exact ⟨outcome, hrun, by rw [hiff, and_iff_right hvalid]⟩
  · obtain ⟨outcome, hrun, hfails⟩ := run_invalid hvalid it strict processEnv
    exact ⟨outcome, hrun, iff_of_false hfails fun h => hvalid h.1⟩

end GraphHarness.Validate
