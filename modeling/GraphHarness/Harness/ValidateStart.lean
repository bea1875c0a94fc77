import GraphHarness.Harness.Clients
import GraphHarness.Harness.StartReferences
import GraphHarness.Harness.Validate

/-!
# What an accepted configuration is good for

`validate` does not start anything, and `start` does not validate more than the parser does.
For a configuration that `validate` accepts,

> `accepted_start_complete`: a start starts everything, as long as the daemon does and every
> reference is to a dependency;
>
> `accepted_ports_distinct`: no port of the host is published by two active services.

`Obliging` is a daemon that answers every start with an address, and with a port where one is
needed. What is covered by the context is then kept through the loop (`Covers`), and each
conversion finds its references there, because they are to dependencies and these come first.

The second statement is about any clients of the configuration (`Harness.Clients`), as ports
of the host are published by what is active, whoever has started it.
-/

namespace GraphHarness.Validate

open Clients (Conforms Reached)
open Orchestration (RunningService ServiceConfig ServiceManager)
open Relation (TransGen)
open Resolver (ResolutionContext resolveVariable serviceVariables)
open ServiceRegistry (RegistryBackend)
open Start (Daemon EnvironmentSet References State)

/-- `validate` accepts the configuration. -/
def Accepts (strict : Bool) (processEnv : HashMap String String) (cfg : Config) : Prop :=
  ∃ valid it outcome, run valid it strict processEnv cfg = some outcome ∧ outcome.result = .ok ()

/-- An accepted configuration is valid and sound. -/
theorem Accepts.sound {strict : Bool} {processEnv : HashMap String String} {cfg : Config}
    (h : Accepts strict processEnv cfg) :
    (∃ valid, Parser.validateConfig valid cfg = .ok ()) ∧ Sound strict processEnv cfg := by
  obtain ⟨valid, it, outcome, hrun, hok⟩ := h
  by_cases hvalid : Parser.validateConfig valid cfg = .ok ()
  · obtain ⟨outcome', hrun', hiff⟩ := run_valid hvalid it strict processEnv
    obtain rfl := Option.some.inj (hrun.symm.trans hrun')
    exact ⟨⟨valid, hvalid⟩, hiff.mp hok⟩
  · obtain ⟨outcome', hrun', hfails⟩ := run_invalid hvalid it strict processEnv
    obtain rfl := Option.some.inj (hrun.symm.trans hrun')
    exact absurd hok hfails

/-! ## Everything is started -/

/-- The port of the service is referred to. -/
def NeedsPort (cfg : Config) (r : String) : Prop :=
  ∃ s service start stop, cfg.services.lookup s = some service ∧
    .ok (start, stop, .serviceRef r "port") ∈ serviceVariables service

/-- Every start is answered with `ServiceStarted`, and with a port where it is needed. -/
def Obliging (daemon : Daemon) (cfg : Config) : Prop :=
  ∀ name, ∃ name' info, daemon.start name = .ok (.serviceStarted name' info) ∧
    (NeedsPort cfg name → info.port ≠ none)

/-- Every reference to the service has a value. -/
def Covers (processEnv : HashMap String String) (cfg : Config) (context : ResolutionContext)
    (r : String) : Prop :=
  ∀ s service start stop property, cfg.services.lookup s = some service →
    .ok (start, stop, .serviceRef r property) ∈ serviceVariables service →
    ∃ value, resolveVariable processEnv context (.serviceRef r property) = .ok value

section Start

variable {processEnv : HashMap String String} {cfg : Config}

/-- A service that is added is covered. -/
theorem covers_self (context : ResolutionContext) (name ip host : String) {port : Option UInt16}
    (hport : NeedsPort cfg name → port ≠ none) :
    Covers processEnv cfg (context.addService name ip port host) name := by
  intro s service start stop property hservice hitem
  rcases Start.serviceVariables_property hitem with rfl | rfl | rfl
  · exact ⟨ip, by simp [resolveVariable, ResolutionContext.addService]⟩
  · cases port with
    | none => exact absurd rfl (hport ⟨s, service, start, stop, hservice, hitem⟩)
    | some port =>
      exact ⟨Nat.repr port.toNat, by simp [resolveVariable, ResolutionContext.addService]⟩
  · exact ⟨host, by simp [resolveVariable, ResolutionContext.addService]⟩

/-- The others stay covered. -/
theorem covers_other {context : ResolutionContext} {name ip host r : String}
    {port : Option UInt16} (hr : r ≠ name) (h : Covers processEnv cfg context r) :
    Covers processEnv cfg (context.addService name ip port host) r := by
  intro s service start stop property hservice hitem
  obtain ⟨value, hvalue⟩ := h s service start stop property hservice hitem
  refine ⟨value, ?_⟩
  rw [← hvalue]
  cases port with
  | none => simp [resolveVariable, ResolutionContext.addService, AList.lookup_insert_ne hr]
  | some port => simp [resolveVariable, ResolutionContext.addService, AList.lookup_insert_ne hr]

/-- A conversion succeeds where all references of the service have values. -/
theorem convertIn_covered {valid : HashOrder} (hvalid : Parser.validateConfig valid cfg = .ok ())
    (henv : EnvironmentSet processEnv cfg) {name : String} (hname : name ∈ cfg.services)
    {st : State} (hcovers : ∀ r, References cfg name r →
      Covers processEnv cfg st.resolutionContext r) :
    ∃ config, Start.convertIn processEnv cfg name st = .ok config := by
  obtain ⟨service, hservice⟩ := Option.isSome_iff_exists.mp (AList.lookup_isSome.mpr hname)
  refine (Parser.convert_ok_iff hservice st.resolutionContext).mpr ?_
  intro item hitem
  obtain ⟨start, stop, var, rfl⟩ := Parser.validateConfig_wellFormed hvalid hservice item hitem
  have hvalue : ∃ value, resolveVariable processEnv st.resolutionContext var = .ok value := by
    cases var with
    | envVar var default =>
      refine Resolver.resolveVariable_envVar ?_
      rintro rfl
      exact .inr (henv name service hservice start stop var hitem)
    | serviceRef r property =>
      exact hcovers r ⟨service, start, stop, property, hservice, hitem⟩ name service start stop
        property hservice hitem
  obtain ⟨value, hvalue⟩ := hvalue
  exact ⟨start, stop, var, value, rfl, hvalue⟩

/-- The loop over services whose references are behind them starts them all. -/
theorem startAll_complete {valid : HashOrder} (hvalid : Parser.validateConfig valid cfg = .ok ())
    (henv : EnvironmentSet processEnv cfg) {daemon : Daemon} (hdaemon : Obliging daemon cfg) :
    ∀ (names done : List String) (st : State),
      (∀ pre s post, done ++ names = pre ++ s :: post → ∀ r, References cfg s r → r ∈ pre) →
      (∀ s ∈ names, s ∈ cfg.services) →
      (∀ d ∈ done, Covers processEnv cfg st.resolutionContext d) →
      ∃ st', (Start.startAll daemon processEnv cfg names st).2 = .ok st' ∧
        st'.failures = st.failures ∧ st'.startedServices = st.startedServices ++ names := by
  intro names
  induction names with
  | nil =>
    intro done st _ _ _
    exact ⟨st, rfl, rfl, (List.append_nil _).symm⟩
  | cons name names ih =>
    intro done st hord hknown hcovered
    have hname : name ∈ cfg.services := hknown name List.mem_cons_self
    obtain ⟨config, hconverted⟩ := convertIn_covered hvalid henv hname
      fun r hr => hcovered r (hord done name names rfl r hr)
    obtain ⟨name', info, hanswer, hport⟩ := hdaemon name
    rcases Start.startOne_cases daemon processEnv cfg name st with
      ⟨hunknown, _⟩ | ⟨_, e, hfailed, _⟩ | ⟨_, config', wait, _, hround, _⟩
    · exact absurd hname hunknown
    · cases hconverted.symm.trans hfailed
    · rw [hanswer] at hround
      rw [Start.startAll, hround]
      let st₁ := st.addStarted name info.ip info.port info.hostname
      have hcovered' : ∀ d ∈ done ++ [name],
          Covers processEnv cfg st₁.resolutionContext d := by
        intro d hd
        by_cases hself : d = name
        · subst hself
          exact covers_self _ _ _ _ hport
        · rcases List.mem_append.mp hd with hd | hd
          · exact covers_other hself (hcovered d hd)
          · exact absurd (List.mem_singleton.mp hd) hself
      have hsplit : done ++ name :: names = (done ++ [name]) ++ names := by simp
      obtain ⟨st', hst', hfailures, hstarted⟩ := ih (done ++ [name]) st₁ (hsplit ▸ hord)
        (fun s hs => hknown s (List.mem_cons_of_mem _ hs)) hcovered'
      refine ⟨st', hst', hfailures, ?_⟩
      rw [hstarted]
      exact List.append_assoc _ [name] names

end Start

/-- A summary without failures. -/
theorem summarize_complete {ordered : List String}
    {ended : List Start.Event × Except String State} {st : State} (h : ended.2 = .ok st)
    (hfailures : st.failures = []) :
    (Start.summarize ordered ended).result = .ok () ∧
      (Start.summarize ordered ended).report = some ⟨st.startedServices, [], []⟩ := by
  obtain ⟨events, result⟩ := ended
  dsimp only at h
  subst h
  simp [Start.summarize, Start.notStarted, hfailures]

/-- For a configuration that a strict validation accepts, and a daemon that starts what it is
asked to: if what is started depends, directly or not, on all that it refers to, every service
is started, whatever the order, and none is reported as failed or not started. -/
theorem accepted_start_complete {processEnv : HashMap String String} {cfg : Config}
    (haccepts : Accepts true processEnv cfg) {daemon : Daemon} (hdaemon : Obliging daemon cfg)
    {services : List String} (hservices : ∀ s ∈ services, s ∈ cfg.services)
    (hrefs : ∀ s, Dependencies.dependencyClosure cfg services s →
      ∀ r, References cfg s r → TransGen cfg.DependsOn s r) (ord : HashOrder) :
    ∃ ordered run, Start.run ord daemon processEnv cfg services = some run ∧
      run.result = .ok () ∧ run.report = some ⟨ordered, [], []⟩ ∧ ordered.Nodup ∧
      ∀ s, s ∈ ordered ↔ Dependencies.dependencyClosure cfg services s := by
  obtain ⟨⟨valid, hvalid⟩, hsound⟩ := haccepts.sound
  have hdeps := Parser.validateConfig_dependenciesExist hvalid
  obtain ⟨sorted, hsorted⟩ := Dependencies.topologicalSort_total hdeps ord (Nat.lt_succ_self _)
    services
  cases sorted with
  | error e =>
    obtain ⟨c, hcycle⟩ := (Dependencies.topologicalSort_error_iff hdeps hsorted).mp ⟨e, rfl⟩
    exact absurd (TransGen.mono (fun _ _ h => h.2.2) _ _ hcycle) (hsound.acyclic c)
  | ok ordered =>
    have hmem := Dependencies.mem_topologicalSort hdeps hsorted
    have henv : EnvironmentSet processEnv cfg := by
      intro s service hservice start stop name hitem
      exact hsound.vars rfl name ⟨s, service, start, stop, none, hservice, hitem⟩
    have hord : ∀ pre s post, [] ++ ordered = pre ++ s :: post →
        ∀ r, References cfg s r → r ∈ pre := by
      intro pre s post hsplit r hr
      rw [List.nil_append] at hsplit
      have hs : s ∈ ordered := by simp [hsplit]
      exact Dependencies.mem_before_of_transGen hdeps hsorted (hrefs s ((hmem s).mp hs) r hr) hsplit
    have hknown : ∀ s ∈ ordered, s ∈ cfg.services := by
      intro s hs
      have hclosure := (hmem s).mp hs
      unfold Dependencies.dependencyClosure at hclosure
      split at hclosure
      next => exact hclosure
      next =>
        obtain ⟨requested, hrequested, hreach⟩ := hclosure
        rcases Relation.ReflTransGen.cases_tail hreach with rfl | ⟨t, _, hlast⟩
        · exact hservices s hrequested
        · exact hdeps t s hlast
    obtain ⟨st, hst, hfailures, hstarted⟩ := startAll_complete hvalid henv hdaemon ordered []
      (Start.initialState processEnv) hord hknown (by simp)
    refine ⟨ordered, _, by rw [Start.run, hsorted], ?_, ?_,
      Dependencies.topologicalSort_nodup hdeps hsorted, hmem⟩
    · exact (summarize_complete hst hfailures).1
    · rw [(summarize_complete hst hfailures).2, hstarted]
      rfl

/-- The item refers to `db` only. -/
def refersToDb : Resolver.Found → Bool
  | .ok (_, _, .serviceRef r _) => r = "db"
  | _ => true

/-- The example is accepted. -/
theorem accepts_references : Accepts true ∅ (Start.referenceConfig ["db"]) := by
  have hresult : (run .stored .stored true ∅ (Start.referenceConfig ["db"])).map Outcome.result =
      some (.ok ()) := by
    decide +kernel
  obtain ⟨outcome, hrun, hok⟩ := Option.map_eq_some_iff.mp hresult
  exact ⟨.stored, .stored, outcome, hrun, hok⟩

/-- A start of the example. -/
theorem accepted_start_complete_api : ∃ ordered run,
    Start.run .stored Start.obligingDaemon ∅ (Start.referenceConfig ["db"]) ["api"] = some run ∧
      run.result = .ok () ∧ run.report = some ⟨ordered, [], []⟩ ∧ ordered.Nodup ∧
      ∀ s, s ∈ ordered ↔
        Dependencies.dependencyClosure (Start.referenceConfig ["db"]) ["api"] s := by
  have hdaemon : Obliging Start.obligingDaemon (Start.referenceConfig ["db"]) :=
    fun name => ⟨name, _, rfl, fun _ => by simp⟩
  have hentries : ∀ entry ∈ (Start.referenceConfig ["db"]).services.entries,
      ∀ item ∈ serviceVariables entry.2, refersToDb item = true ∧ entry.1 = "api" := by
    decide
  refine accepted_start_complete accepts_references hdaemon (by decide) ?_ .stored
  rintro s _ r ⟨service, start, stop, property, hservice, hitem⟩
  obtain ⟨hdb, rfl⟩ := hentries ⟨s, service⟩ (AList.mem_lookup_iff.mp hservice) _ hitem
  obtain rfl : r = "db" := of_decide_eq_true hdb
  exact TransGen.single ⟨_, rfl, by decide⟩

/-! ## No port is published twice -/

/-- The ports of the host that a declaration publishes. -/
def hostPorts (mappings : List PortMapping) : List UInt16 :=
  (mappings.map hostPort).filter (0 < ·)

/-- The ports that `docker run` is told to publish. Docker chooses one for port zero. -/
def containerPorts (config : ServiceConfig) : List UInt16 :=
  (Parser.targetPorts config.target).filter (0 < ·)

/-- The published ports are the host ports of the declarations. -/
theorem map_published (cfg : Config) : (published cfg).map Prod.fst =
    cfg.services.entries.flatMap fun entry =>
      hostPorts (Parser.declaredPorts entry.2.serviceType) := by
  rw [published, List.map_flatMap]
  refine List.flatMap_congr fun entry _ => ?_
  induction Parser.declaredPorts entry.2.serviceType with
  | nil => rfl
  | cons mapping mappings ih =>
    by_cases hport : 0 < hostPort mapping
    · simpa [hostPorts, hport] using ih
    · simpa [hostPorts, hport] using ih

/-- A mapping is left out of the container, so it publishes at most what is declared. -/
theorem simplePorts_sublist (mappings : List PortMapping) :
    ((Parser.simplePorts mappings).filter (0 < ·)).Sublist (hostPorts mappings) := by
  unfold hostPorts
  refine List.Sublist.filter _ ?_
  induction mappings with
  | nil => exact List.Sublist.slnil
  | cons mapping mappings ih =>
    cases mapping with
    | simple port => exact ih.cons_cons port
    | full mapping => exact ih.cons _

/-- What a container publishes has been declared for its service. -/
theorem containerPorts_sublist {processEnv : HashMap String String} {cfg : Config}
    {context : Option ResolutionContext} {name : String} {config : ServiceConfig}
    (h : Parser.convertToOrchestratorWithContext processEnv cfg name context = .ok config) :
    ∃ service, cfg.services.lookup name = some service ∧
      (containerPorts config).Sublist (hostPorts (Parser.declaredPorts service.serviceType)) := by
  unfold Parser.convertToOrchestratorWithContext at h
  split at h
  next => cases h
  next service hservice =>
    refine ⟨service, hservice, ?_⟩
    split at h
    next => cases h
    next env _ =>
      obtain rfl := Except.ok.inj h
      cases htype : service.serviceType with
      | docker image ports volumes command entrypoint =>
        exact simplePorts_sublist ports
      | process binary args workingDir user => exact List.Sublist.slnil
      | remote host binary args workingDir => exact List.Sublist.slnil
      | package host package version installPath => exact List.Sublist.slnil

/-- Services with the configurations that were made for them share no port. -/
theorem containerPorts_nodup {strict : Bool} {processEnv : HashMap String String} {cfg : Config}
    (haccepts : Accepts strict processEnv cfg) {services : HashMap String RunningService}
    (hmade : Clients.AllMade cfg services) :
    (services.entries.flatMap fun entry => containerPorts entry.2.config).Nodup := by
  have hports := haccepts.sound.2.ports
  rw [map_published, List.nodup_flatMap] at hports
  obtain ⟨hown, hothers⟩ := hports
  have hdeclared : ∀ entry ∈ services.entries, ∃ service,
      ⟨entry.1, service⟩ ∈ cfg.services.entries ∧ (containerPorts entry.2.config).Sublist
        (hostPorts (Parser.declaredPorts service.serviceType)) := by
    intro entry hentry
    obtain ⟨_, _, hconverted⟩ := hmade entry.1 entry.2 (AList.mem_lookup_iff.mpr hentry)
    obtain ⟨service, hservice, hsublist⟩ := containerPorts_sublist hconverted
    exact ⟨service, AList.mem_lookup_iff.mp hservice, hsublist⟩
  refine List.nodup_flatMap.mpr ⟨?_, ?_⟩
  · intro entry hentry
    obtain ⟨service, hservice, hsublist⟩ := hdeclared entry hentry
    exact hsublist.nodup (hown _ hservice)
  · refine (List.nodupKeys_iff_pairwise.mp services.nodupKeys).imp_of_mem ?_
    intro entry entry' hentry hentry' hkeys
    obtain ⟨service, hservice, hsublist⟩ := hdeclared entry hentry
    obtain ⟨service', hservice', hsublist'⟩ := hdeclared entry' hentry'
    have hne : (⟨entry.1, service⟩ : Σ _ : String, Service) ≠ ⟨entry'.1, service'⟩ := by
      intro heq
      exact hkeys (congrArg (fun entry : Σ _ : String, Service => entry.1) heq)
    have hsymm : Std.Symm (Function.onFun List.Disjoint fun entry : Σ _ : String, Service =>
        hostPorts (Parser.declaredPorts entry.2.serviceType)) := ⟨fun _ _ h => h.symm⟩
    have hdisjoint := hothers.forall hservice hservice' hne
    intro port hport hport'
    exact hdisjoint (hsublist.subset hport) (hsublist'.subset hport')

/-- Of a configuration that a validation accepts, whatever its clients have asked for, no two
active services, and no service alone, publish one port of the host twice. -/
theorem accepted_ports_distinct {σ : Type} [RegistryBackend σ] {strict : Bool}
    {processEnv : HashMap String String} {cfg : Config} (haccepts : Accepts strict processEnv cfg)
    {world : ServiceManager σ × Nat} (hworld : Reached cfg world) :
    (world.1.activeServices.entries.flatMap fun entry => containerPorts entry.2.config).Nodup :=
  containerPorts_nodup haccepts hworld.conforms

/-- Two containers with ports. -/
def portConfig : Config where
  version := "1.0"
  networks := ["local"]
  services :=
    (AList.insert "cache" { Dependencies.processService "" [] with
      serviceType := .docker "redis" [.simple 6379] [] none none } ∅).insert
      "web" { Dependencies.processService "" ["cache"] with
        serviceType := .docker "nginx" [.simple 80, .full "8080:80"] [] none none }

/-- A web server and a store, started. -/
theorem accepted_ports_distinct_web :
    ((Clients.startedDaemon portConfig).1.activeServices.entries.flatMap fun entry =>
      containerPorts entry.2.config) = [80, 6379] ∧
    ((Clients.startedDaemon portConfig).1.activeServices.entries.flatMap fun entry =>
      containerPorts entry.2.config).Nodup := by
  have hresult : (run .stored .stored true ∅ portConfig).map Outcome.result =
      some (.ok ()) := by
    decide +kernel
  obtain ⟨outcome, hrun, hok⟩ := Option.map_eq_some_iff.mp hresult
  exact ⟨by decide +kernel, accepted_ports_distinct ⟨.stored, .stored, outcome, hrun, hok⟩
    (Clients.reached_startedDaemon portConfig)⟩

end GraphHarness.Validate
