import GraphHarness.Config.Grammar
import GraphHarness.Harness.StartDependencies

/-!
# Service references during a start

`validate_references` accepts a `${service.property}` to any service of the
configuration; a run resolves it from the services started so far; and the start
order knows `dependencies` only. With a daemon that reports every address,

> `run_referencesAvailable_iff` — no conversion of any run of a request lacks a
> reference **if and only if** every referenced service is a transitive
> dependency of the service that refers to it (or the request cannot be ordered).

One direction is the loop invariant that everything behind the current position
is known; for the other the hash order that puts the referring service in front
leaves nothing before it but its own dependencies.

`Informative` is a daemon that answers every start with an address and a port, so that the
answers are never the reason; `EnvironmentSet` says the same of the variables. The condition
of the theorem is about the configuration and the request alone.
-/

namespace GraphHarness.Start

open Relation (TransGen)
open Protocol (Request Response Answer)
open Resolver (ResolutionContext Variable Resolves serviceVariables)

/-- A value in the environment of `s` refers to `r`. -/
def References (cfg : Config) (s r : String) : Prop :=
  ∃ service start stop property, cfg.services.lookup s = some service ∧
    .ok (start, stop, .serviceRef r property) ∈ serviceVariables service

/-- Every variable without a default is in the environment of the process. -/
def EnvironmentSet (processEnv : HashMap String String) (cfg : Config) : Prop :=
  ∀ s service, cfg.services.lookup s = some service →
    ∀ start stop name, .ok (start, stop, .envVar name none) ∈ serviceVariables service →
      name ∈ processEnv

/-- Every start is answered with `ServiceStarted` and a full address. -/
def Informative (daemon : Daemon) : Prop :=
  ∀ name, ∃ name' info port, daemon.start name = .ok (.serviceStarted name' info) ∧
    info.port = some port

/-- Every conversion of the run succeeds, with every referenced service known. -/
def ReferencesAvailable (cfg : Config) (events : List Event) : Prop :=
  ∀ name context result, .convert name context result ∈ events →
    (∃ config, result = .ok config) ∧ ∀ r, References cfg name r → context.Knows r

/-! ## One round -/

/-- A reference is to one of the three properties. -/
theorem serviceVariables_property {service : Service} {start stop : Nat} {r property : String}
    (h : .ok (start, stop, .serviceRef r property) ∈ serviceVariables service) :
    property = "ip" ∨ property = "port" ∨ property = "host" := by
  obtain ⟨entry, _, hitem⟩ := List.mem_flatMap.mp h
  exact Resolver.findVariables_property hitem

/-- A conversion succeeds when every referenced service is known. -/
theorem convertIn_ok {valid : HashOrder} {cfg : Config}
    (hvalid : Parser.validateConfig valid cfg = .ok ()) {processEnv : HashMap String String}
    (henv : EnvironmentSet processEnv cfg) {name : String} (hname : name ∈ cfg.services)
    {st : State} (hknows : ∀ r, References cfg name r → st.resolutionContext.Knows r) :
    ∃ config, convertIn processEnv cfg name st = .ok config := by
  obtain ⟨service, hs⟩ := Option.isSome_iff_exists.mp (AList.lookup_isSome.mpr hname)
  refine (Parser.convert_ok_iff hs st.resolutionContext).mpr ?_
  intro item hitem
  obtain ⟨start, stop, var, rfl⟩ := Parser.validateConfig_wellFormed hvalid hs item hitem
  suffices hvalue :
      ∃ value, Resolver.resolveVariable processEnv st.resolutionContext var = .ok value by
    obtain ⟨value, hvalue⟩ := hvalue
    exact ⟨start, stop, var, value, rfl, hvalue⟩
  match var with
  | .envVar envName default =>
    refine Resolver.resolveVariable_envVar ?_
    intro hdefault
    subst hdefault
    exact .inr (henv name service hs start stop envName hitem)
  | .serviceRef r property =>
    exact Resolver.resolveVariable_serviceRef processEnv
      (hknows r ⟨service, start, stop, property, hs, hitem⟩) (serviceVariables_property hitem)

/-- With an informative daemon the round of a known service goes on. Its one
conversion is made in the context before the round, and the service becomes known
exactly when the conversion succeeds. -/
theorem startOne_informative {daemon : Daemon} (hdaemon : Informative daemon)
    (processEnv : HashMap String String) {cfg : Config} {name : String}
    (hname : name ∈ cfg.services) (st : State) :
    ∃ events st', startOne daemon processEnv cfg name st = (events, st', .next) ∧
      (∀ name' context result, .convert name' context result ∈ events ↔
        name' = name ∧ context = st.resolutionContext ∧ result = convertIn processEnv cfg name st) ∧
      ∀ d, st'.resolutionContext.Knows d ↔ st.resolutionContext.Knows d ∨
        d = name ∧ ∃ config, convertIn processEnv cfg name st = .ok config := by
  rcases startOne_cases daemon processEnv cfg name st with
    ⟨hunknown, _⟩ | ⟨_, e, hc, hs⟩ | ⟨_, config, wait, hc, hs, hwait⟩
  · exact absurd hname hunknown
  · refine ⟨_, _, hs, fun name' context result => ?_, fun d => ?_⟩
    · rw [hc]
      simp
    · rw [hc]
      simp [State.addFailure]
  · obtain ⟨name', info, port, hans, hport⟩ := hdaemon name
    rw [hans] at hs
    refine ⟨_, _, hs, fun name' context result => ?_, fun d => ?_⟩
    · rw [hc]
      have hno : Event.convert name' context result ∉ wait := by
        intro hmem
        obtain ⟨_, h⟩ := hwait _ hmem
        simp at h
      simp [hno]
    · rw [hc, hport]
      simp [State.addStarted, or_comm]

/-! ## The loop -/

/-- **Everything behind is known.** When each service's references lie before it in
the order, every round converts, and every service becomes known. -/
theorem startAll_referencesAvailable {valid : HashOrder} {cfg : Config}
    (hvalid : Parser.validateConfig valid cfg = .ok ()) {processEnv : HashMap String String}
    (henv : EnvironmentSet processEnv cfg) {daemon : Daemon} (hdaemon : Informative daemon) :
    ∀ (names done : List String) (st : State),
      (∀ pre s post, done ++ names = pre ++ s :: post → ∀ r, References cfg s r → r ∈ pre) →
      (∀ d ∈ done, st.resolutionContext.Knows d) →
      ReferencesAvailable cfg (startAll daemon processEnv cfg names st).1 := by
  intro names
  induction names with
  | nil =>
    intro done st _ _ name context result h
    simp [startAll] at h
  | cons name names ih =>
    intro done st hord hknown
    rw [startAll]
    by_cases hname : name ∈ cfg.services
    · have hrefs : ∀ r, References cfg name r → st.resolutionContext.Knows r :=
        fun r hr => hknown r (hord done name names rfl r hr)
      -- the references lie behind, so the conversion succeeds and `name` becomes known
      obtain ⟨config, hc⟩ := convertIn_ok hvalid henv hname hrefs
      obtain ⟨events, st', hs, hconvert, hafter⟩ := startOne_informative hdaemon processEnv hname st
      have hsplit : done ++ name :: names = (done ++ [name]) ++ names := by simp
      have hrest := ih (done ++ [name]) st' (hsplit ▸ hord) (by
        intro d hd
        rw [hafter]
        rcases List.mem_append.mp hd with hd | hd
        · exact Or.inl (hknown d hd)
        · exact Or.inr ⟨List.mem_singleton.mp hd, config, hc⟩)
      rw [hs]
      intro name' context result hmem
      rcases List.mem_append.mp hmem with hmem | hmem
      · obtain ⟨rfl, rfl, rfl⟩ := (hconvert name' context result).mp hmem
        exact ⟨⟨config, hc⟩, hrefs⟩
      · exact hrest name' context result hmem
    -- an unknown name ends the loop without a conversion
    · rcases startOne_cases daemon processEnv cfg name st with
        ⟨_, hs⟩ | ⟨hmem, _⟩ | ⟨hmem, _⟩
      · rw [hs]
        intro name' context result hmem
        simp at hmem
      · exact absurd hmem hname
      · exact absurd hmem hname

/-- The loop goes through known services, and afterwards it knows none but those. -/
theorem startAll_through {daemon : Daemon} (hdaemon : Informative daemon)
    (processEnv : HashMap String String) (cfg : Config) (rest : List String) :
    ∀ (pre : List String) (st : State), (∀ x ∈ pre, x ∈ cfg.services) →
      ∃ st', (startAll daemon processEnv cfg rest st').1 ⊆
          (startAll daemon processEnv cfg (pre ++ rest) st).1 ∧
        ∀ d, st'.resolutionContext.Knows d → st.resolutionContext.Knows d ∨ d ∈ pre := by
  intro pre
  induction pre with
  | nil =>
    intro st _
    exact ⟨st, List.Subset.refl _, fun d hd => Or.inl hd⟩
  | cons name pre ih =>
    intro st hpre
    obtain ⟨events, st₁, hs, _, hafter⟩ :=
      startOne_informative hdaemon processEnv (hpre name (List.mem_cons_self ..)) st
    obtain ⟨st', hsub, hknown⟩ := ih st₁ (fun x hx => hpre x (List.mem_cons_of_mem _ hx))
    refine ⟨st', ?_, fun d hd => ?_⟩
    · rw [List.cons_append, startAll, hs]
      exact fun e he => List.mem_append_right _ (hsub he)
    · rcases hknown d hd with hd | hd
      · rcases (hafter d).mp hd with hd | ⟨rfl, _⟩
        · exact Or.inl hd
        · exact Or.inr (List.mem_cons_self ..)
      · exact Or.inr (List.mem_cons_of_mem _ hd)

/-! ## Whole runs -/

/-- Under the hash order that puts `s` in front, what `s` refers to is known to
its conversion only if `s` depends on it. -/
theorem transGen_of_referencesAvailable {cfg : Config} (hdeps : cfg.DependenciesExist)
    {processEnv : HashMap String String} {daemon : Daemon} (hdaemon : Informative daemon)
    {services ordered : List String} {s r : String}
    (hclosure : Dependencies.dependencyClosure cfg services s)
    (hsort : Dependencies.topologicalSort (HashOrder.startingAt s)
      (cfg.services.keys.length + 1) cfg services = some (.ok ordered))
    (h : ReferencesAvailable cfg
      (startAll daemon processEnv cfg ordered (initialState processEnv)).1)
    (hr : References cfg s r) : TransGen cfg.DependsOn s r := by
  obtain ⟨pre, post, rfl, hpre⟩ := Dependencies.topologicalSort_startingAt hdeps hclosure hsort
  have hs : s ∈ cfg.services := by
    obtain ⟨service, _, _, _, hl, _⟩ := hr
    exact AList.lookup_isSome.mp (by simp [hl])
  have hknown : ∀ x ∈ pre, x ∈ cfg.services := by
    intro x hx
    obtain ⟨y, _, hyx⟩ := TransGen.tail'_iff.mp (hpre x hx)
    exact hdeps y x hyx
  -- when the turn comes to `s`, nothing but `pre` is known
  obtain ⟨st', hsub, honly⟩ := startAll_through hdaemon processEnv cfg (s :: post) pre
    (initialState processEnv) hknown
  obtain ⟨events, st₁, hstep, hconvert, _⟩ :=
    startOne_informative hdaemon processEnv hs st'
  have hmem : .convert s st'.resolutionContext (convertIn processEnv cfg s st') ∈
      (startAll daemon processEnv cfg (pre ++ s :: post) (initialState processEnv)).1 := by
    apply hsub
    rw [startAll, hstep]
    exact List.mem_append_left _ ((hconvert _ _ _).mpr ⟨rfl, rfl, rfl⟩)
  rcases honly r ((h _ _ _ hmem).2 r hr) with hinit | hin
  · exact absurd hinit (ResolutionContext.not_knows_new processEnv r)
  · exact hpre r hin

/-- **References are available exactly when they are dependencies.** For a
validated configuration with its environment set and a daemon that reports every
address: no conversion fails on a reference, whatever order the sort returns, if
and only if the request has a cycle (and nothing is converted) or every service
that the request starts depends, directly or not, on each service it refers to. -/
theorem run_referencesAvailable_iff {valid : HashOrder} {cfg : Config}
    (hvalid : Parser.validateConfig valid cfg = .ok ()) {processEnv : HashMap String String}
    (henv : EnvironmentSet processEnv cfg) {daemon : Daemon} (hdaemon : Informative daemon)
    (services : List String) :
    (∀ ord r, run ord daemon processEnv cfg services = some r → ReferencesAvailable cfg r.events) ↔
      Traverse.HasCycleIn cfg.DependsOn (Dependencies.dependencyClosure cfg services) ∨
      ∀ s, Dependencies.dependencyClosure cfg services s →
        ∀ r, References cfg s r → TransGen cfg.DependsOn s r := by
  have hdeps := Parser.validateConfig_dependenciesExist hvalid
  constructor
  · intro h
    refine or_iff_not_imp_left.mpr fun hacyclic s hs r hr => ?_
    -- the order of the hash map is free: take the one that puts `s` first
    obtain ⟨run, hrun⟩ := run_total hdeps (HashOrder.startingAt s) daemon processEnv services
    have havailable := h (HashOrder.startingAt s) run hrun
    rcases run_cases hrun with ⟨ordered, hsort, hev⟩ | ⟨message, hsort, _⟩
    · rw [hev] at havailable
      exact transGen_of_referencesAvailable hdeps hdaemon hs hsort havailable hr
    · exact absurd ((Dependencies.topologicalSort_error_iff hdeps hsort).mp ⟨message, rfl⟩) hacyclic
  · intro h ord r hrun
    rcases run_cases hrun with ⟨ordered, hsort, hev⟩ | ⟨message, hsort, hev⟩
    · have hcovered : ∀ s, Dependencies.dependencyClosure cfg services s →
          ∀ r, References cfg s r → TransGen cfg.DependsOn s r := by
        refine h.resolve_left fun hcycle => ?_
        obtain ⟨e, he⟩ := (Dependencies.topologicalSort_error_iff hdeps hsort).mpr hcycle
        simp at he
      rw [hev]
      refine startAll_referencesAvailable hvalid henv hdaemon ordered [] _ ?_ (by simp)
      intro pre s post hsplit r hr
      have hs : s ∈ ordered := by
        rw [show ordered = pre ++ s :: post from hsplit]
        simp
      exact Dependencies.mem_before_of_transGen hdeps hsort
        (hcovered s ((Dependencies.mem_topologicalSort hdeps hsort s).mp hs) r hr) hsplit
    · rw [hev]
      intro name context result hmem
      simp at hmem

/-- `api` refers to `db` and does not list it. -/
def referenceConfig (dependencies : List String) : Config where
  version := "1.0"
  networks := ["local"]
  services :=
    (AList.insert "db" (Dependencies.processService "postgres" []) ∅).insert
      "api" { Dependencies.processService "api-server" dependencies with
        env := AList.insert "DATABASE_HOST" "$\x7bdb.host\x7d" ∅ }

/-- A daemon that starts whatever it is asked to. -/
theorem obligingDaemon_informative : Informative obligingDaemon :=
  fun name => ⟨name, _, 80, rfl, rfl⟩

/-- The item needs nothing from the environment that is not there. -/
def isSet (processEnv : HashMap String String) : Resolver.Found → Bool
  | .ok (_, _, .envVar name none) => name ∈ processEnv
  | _ => true

/-- The variables of the entries are set. -/
theorem environmentSet_of_entries {processEnv : HashMap String String} {cfg : Config}
    (h : ∀ entry ∈ cfg.services.entries, ∀ item ∈ serviceVariables entry.2,
      isSet processEnv item = true) : EnvironmentSet processEnv cfg := by
  intro s service hs start stop name hitem
  simpa [isSet] using h ⟨s, service⟩ (AList.mem_lookup_iff.mp hs) _ hitem

/-- A validated reference that no run of the request can resolve. -/
theorem run_unresolved_reference :
    Parser.validateConfig HashOrder.stored (referenceConfig []) = .ok () ∧
      EnvironmentSet ∅ (referenceConfig []) ∧ Informative obligingDaemon ∧
      ∃ r, run HashOrder.stored obligingDaemon ∅ (referenceConfig []) ["api"] = some r ∧
        ¬ ReferencesAvailable (referenceConfig []) r.events := by
  refine ⟨by decide, environmentSet_of_entries (by decide), obligingDaemon_informative, ?_⟩
  have hevents : (run HashOrder.stored obligingDaemon ∅ (referenceConfig []) ["api"]).map
      (fun r => r.events) =
        some [.convert "api" (.new ∅) (.error (.envVarNotFound "db.host"))] := by
    rfl
  obtain ⟨r, hr, hev⟩ := Option.map_eq_some_iff.mp hevents
  refine ⟨r, hr, fun h => ?_⟩
  obtain ⟨⟨config, hok⟩, _⟩ := h _ _ _ (by rw [hev]; exact List.mem_singleton_self _)
  simp at hok

/-- A service that lists what it refers to. -/
theorem run_referencesAvailable_iff_listed :
    (∀ ord r, run ord obligingDaemon ∅ (referenceConfig ["db"]) ["api"] = some r →
        ReferencesAvailable (referenceConfig ["db"]) r.events) ↔
      Traverse.HasCycleIn (referenceConfig ["db"]).DependsOn
          (Dependencies.dependencyClosure (referenceConfig ["db"]) ["api"]) ∨
        ∀ s, Dependencies.dependencyClosure (referenceConfig ["db"]) ["api"] s →
          ∀ r, References (referenceConfig ["db"]) s r →
            TransGen (referenceConfig ["db"]).DependsOn s r := by
  have hvalid : Parser.validateConfig HashOrder.stored (referenceConfig ["db"]) = .ok () := by
    decide
  have henv : EnvironmentSet ∅ (referenceConfig ["db"]) := environmentSet_of_entries (by decide)
  exact run_referencesAvailable_iff hvalid henv obligingDaemon_informative ["api"]

end GraphHarness.Start
