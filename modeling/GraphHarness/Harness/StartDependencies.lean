import GraphHarness.Harness.Start

/-!
# What a started service stands on

A run of `harness start` goes through the services in dependency order, and a
service that an answer of the daemon rules out ends the loop: "dependent services
cannot start". Two kinds of failure do not end it — a failed conversion and an
answer of an unexpected kind — and after those the loop starts services whose
dependency is not there.

> `startAll_dependenciesStarted_iff` — every `StartService` request of a run is
> sent on started dependencies **if and only if** no round of the run converts a
> service while one of its dependencies is on the list of failures.

The step lemmas are `startOne_cases` and `handleAnswer_cases`; the invariant is
`Accounted`: behind the current position a service was started exactly when it is
not on the list of failures.

The statement is about events: `EachAfter` says of each request what has happened before it in
the run. `startAll_dependenciesStarted_iff` is proved from any position of the loop, for a
state that is accounted for, and the whole run is the position at the front.

`passwordConfig` is a database whose password is not set, with a service that depends on it:
the service is started, and the database never was.
-/

namespace GraphHarness.Start

open Protocol (Request Response Answer)
open Resolver (ResolutionContext)
open Trace (EachAfter)

/-! ## One round -/

/-- The wait sends requests for the status, and nothing else. -/
theorem waitForHealth_requests {status : Nat → Nat × Answer} {name : String} {timeout : Nat} :
    ∀ (rounds k : Nat), ∀ e ∈ waitForHealth status name timeout rounds k,
      ∃ answer, e = .request (.getServiceStatus name) answer := by
  intro rounds
  induction rounds with
  | zero => intro k e h; simp [waitForHealth] at h
  | succ rounds ih =>
    intro k e h
    rw [waitForHealth] at h
    dsimp only at h
    split at h
    next => simp at h
    next =>
      rcases List.mem_cons.mp h with rfl | h
      · exact ⟨_, rfl⟩
      · split at h
        next => simp at h
        next => simp at h
        next => exact ih (k + 1) e h
        next => simp at h

/-- So does a wait that there may be none of. -/
theorem healthWait_requests {daemon : Daemon} {name : String} {service : Service} :
    ∀ e ∈ healthWait daemon name service,
      ∃ answer, e = .request (.getServiceStatus name) answer := by
  intro e h
  unfold healthWait at h
  split at h
  next => exact waitForHealth_requests _ _ e h
  next => simp at h

/-- The service's conversion in the context the loop has reached. -/
def convertIn (processEnv : HashMap String String) (cfg : Config) (name : String) (st : State) :
    Except ConfigError Orchestration.ServiceConfig :=
  Parser.convertToOrchestratorWithContext processEnv cfg name (some st.resolutionContext)

/-- **Everything a round can do**: give up on an unknown name, record a failed
conversion and go on, or send the request and act on the answer. The events
behind the request only ask for the status. -/
theorem startOne_cases (daemon : Daemon) (processEnv : HashMap String String) (cfg : Config)
    (name : String) (st : State) :
    (name ∉ cfg.services ∧
      startOne daemon processEnv cfg name st = ([], st, .fail (notFound name))) ∨
    (name ∈ cfg.services ∧ ∃ e, convertIn processEnv cfg name st = .error e ∧
      startOne daemon processEnv cfg name st =
        ([.convert name st.resolutionContext (.error e)], st.addFailure name e.toString, .next)) ∨
    (name ∈ cfg.services ∧ ∃ config wait, convertIn processEnv cfg name st = .ok config ∧
      startOne daemon processEnv cfg name st =
        (.convert name st.resolutionContext (.ok config) ::
          .request (.startService name config) (daemon.start name) :: wait,
          handleAnswer st name (daemon.start name)) ∧
      ∀ e ∈ wait, ∃ answer, e = .request (.getServiceStatus name) answer) := by
  unfold startOne
  cases hl : cfg.services.lookup name with
  | none =>
    exact Or.inl ⟨AList.lookup_eq_none.mp hl, rfl⟩
  | some service =>
    have hmem : name ∈ cfg.services := AList.lookup_isSome.mp (by simp [hl])
    refine Or.inr ?_
    cases hc : convertIn processEnv cfg name st with
    | error e =>
      unfold convertIn at hc
      dsimp only
      rw [hc]
      exact Or.inl ⟨hmem, e, rfl, rfl⟩
    | ok config =>
      unfold convertIn at hc
      dsimp only
      rw [hc]
      refine Or.inr ⟨hmem, config, _, rfl, rfl, ?_⟩
      intro e he
      split at he
      next => exact healthWait_requests e he
      next => simp at he

/-- The names on the list of failures. -/
def State.failed (st : State) (name : String) : Prop := ∃ error, (name, error) ∈ st.failures

@[simp] theorem State.failed_addFailure (st : State) (name error d : String) :
    (st.addFailure name error).failed d ↔ st.failed d ∨ d = name := by
  simp only [State.failed, State.addFailure, List.mem_append, List.mem_singleton, Prod.mk.injEq,
    exists_or]
  simp

@[simp] theorem State.failed_addStarted (st : State) (name ip : String) (port : Option UInt16)
    (host d : String) : (st.addStarted name ip port host).failed d ↔ st.failed d := Iff.rfl

/-- A round that sent its request goes on only from a started service or from a
recorded failure. -/
theorem handleAnswer_cases {st st' : State} {name : String} {answer : Answer}
    (h : handleAnswer st name answer = (st', .next)) :
    (isStarted answer = true ∧ ∀ d, st'.failed d ↔ st.failed d) ∨
    (isStarted answer = false ∧ ∀ d, st'.failed d ↔ st.failed d ∨ d = name) := by
  unfold handleAnswer at h
  split at h
  next =>
    obtain rfl := (Prod.mk.inj h).1
    exact Or.inl ⟨rfl, fun d => State.failed_addStarted ..⟩
  next =>
    obtain rfl := (Prod.mk.inj h).1
    exact Or.inl ⟨rfl, fun d => State.failed_addStarted ..⟩
  next => simp at h
  next response hstarted hsuccess herror =>
    obtain rfl := (Prod.mk.inj h).1
    refine Or.inr ⟨?_, fun d => State.failed_addFailure ..⟩
    unfold isStarted
    split
    next _ info hresp => exact absurd (Except.ok.inj hresp) (hstarted _ info)
    next hresp => exact absurd (Except.ok.inj hresp) hsuccess
    next => rfl
  next => simp at h

/-! ## The property -/

/-- `d` was asked for and answered `ServiceStarted` or `Success`. -/
def WasStarted (past : List Event) (d : String) : Prop :=
  ∃ config answer, .request (.startService d config) answer ∈ past ∧ isStarted answer = true

/-- A request to start a service comes after all of its dependencies started. -/
def OnStartedDependencies (cfg : Config) (past : List Event) (e : Event) : Prop :=
  ∀ name config answer, e = .request (.startService name config) answer →
    ∀ d, cfg.DependsOn name d → WasStarted past d

/-- No service of the run is started on top of a dependency that did not start. -/
def DependenciesStarted (cfg : Config) (events : List Event) : Prop :=
  EachAfter (OnStartedDependencies cfg) [] events

/-- A start in one of two stretches. -/
theorem wasStarted_append {first second : List Event} {d : String} :
    WasStarted (first ++ second) d ↔ WasStarted first d ∨ WasStarted second d := by
  simp only [WasStarted, List.mem_append]
  constructor
  · intro ⟨config, answer, hmem, hans⟩
    rcases hmem with h | h
    · exact Or.inl ⟨config, answer, h, hans⟩
    · exact Or.inr ⟨config, answer, h, hans⟩
  · intro h
    rcases h with ⟨config, answer, hmem, hans⟩ | ⟨config, answer, hmem, hans⟩
    · exact ⟨config, answer, Or.inl hmem, hans⟩
    · exact ⟨config, answer, Or.inr hmem, hans⟩

@[simp] theorem wasStarted_convert (name : String) (context : ResolutionContext)
    (result : Except ConfigError Orchestration.ServiceConfig) (d : String) :
    ¬ WasStarted [.convert name context result] d := by
  simp [WasStarted]

/-- What the events of a sending round start. -/
theorem wasStarted_sent {name d : String} {context : ResolutionContext}
    {result : Except ConfigError Orchestration.ServiceConfig}
    {config : Orchestration.ServiceConfig} {answer : Answer} {wait : List Event}
    (hwait : ∀ e ∈ wait, ∃ answer, e = .request (.getServiceStatus name) answer) :
    WasStarted (.convert name context result :: .request (.startService name config) answer :: wait)
      d ↔ d = name ∧ isStarted answer = true := by
  constructor
  · intro ⟨config', answer', hmem, hans⟩
    rcases List.mem_cons.mp hmem with h | hmem
    · simp at h
    · rcases List.mem_cons.mp hmem with h | hmem
      · simp only [Event.request.injEq, Request.startService.injEq] at h
        obtain ⟨⟨rfl, _⟩, rfl⟩ := h
        exact ⟨rfl, hans⟩
      · obtain ⟨_, h⟩ := hwait _ hmem
        simp at h
  · intro ⟨hd, hans⟩
    subst hd
    exact ⟨config, answer, by simp, hans⟩

/-- The events of a sending round keep the property when the dependencies have
started before the round. -/
theorem eachAfter_sent {cfg : Config} {name : String} {context : ResolutionContext}
    {result : Except ConfigError Orchestration.ServiceConfig}
    {config : Orchestration.ServiceConfig} {answer : Answer} {wait past : List Event}
    (hwait : ∀ e ∈ wait, ∃ answer, e = .request (.getServiceStatus name) answer) :
    EachAfter (OnStartedDependencies cfg) past
        (.convert name context result :: .request (.startService name config) answer :: wait) ↔
      ∀ d, cfg.DependsOn name d → WasStarted past d := by
  have htail : ∀ past, EachAfter (OnStartedDependencies cfg) past wait := by
    intro past
    apply Trace.eachAfter_of_forall
    intro e he past name' config' answer' heq
    obtain ⟨_, rfl⟩ := hwait e he
    simp at heq
  rw [Trace.eachAfter_cons, Trace.eachAfter_cons]
  constructor
  · intro ⟨_, hsent, _⟩ d hd
    have hd' := hsent name config answer rfl d hd
    rw [wasStarted_append] at hd'
    exact hd'.resolve_right (wasStarted_convert name context result d)
  · intro h
    refine ⟨?_, ?_, htail _⟩
    · intro name' config' answer' heq
      simp at heq
    · intro name' config' answer' heq d hd
      simp only [Event.request.injEq, Request.startService.injEq] at heq
      obtain ⟨⟨rfl, _⟩, _⟩ := heq
      exact wasStarted_append.mpr (Or.inl (h d hd))

/-- A conversion is no start. -/
theorem eachAfter_convert {cfg : Config} {name : String} {context : ResolutionContext}
    {result : Except ConfigError Orchestration.ServiceConfig} {past : List Event} :
    EachAfter (OnStartedDependencies cfg) past [.convert name context result] := by
  apply Trace.eachAfter_of_forall
  intro e he past name' config' answer' heq
  simp [heq] at he

/-! ## The rounds of a run -/

/-- `P` holds of every round: of the service whose turn it is and the loop
variables at that moment. -/
def EveryRound (daemon : Daemon) (processEnv : HashMap String String) (cfg : Config)
    (P : String → State → Prop) : List String → State → Prop
  | [], _ => True
  | name :: names, st =>
    P name st ∧
      match startOne daemon processEnv cfg name st with
      | (_, st', .next) => EveryRound daemon processEnv cfg P names st'
      | _ => True

/-- A service whose conversion succeeds has no dependency on the list of failures. -/
def NoFailedDependency (processEnv : HashMap String String) (cfg : Config) (name : String)
    (st : State) : Prop :=
  (∃ config, convertIn processEnv cfg name st = .ok config) →
    ∀ d, cfg.DependsOn name d → ¬ st.failed d

/-- Behind the current position, a service was started exactly when it is not on
the list of failures; ahead of it nothing has happened. -/
structure Accounted (done names : List String) (past : List Event) (st : State) : Prop where
  behind : ∀ d ∈ done, WasStarted past d ↔ ¬ st.failed d
  ahead : ∀ d ∈ names, ¬ st.failed d ∧ ¬ WasStarted past d

/-- What one round keeps. -/
theorem Accounted.step {done names : List String} {past : List Event} {st : State} {name : String}
    (h : Accounted done (name :: names) past st) (hnodup : (done ++ name :: names).Nodup)
    {daemon : Daemon} {processEnv : HashMap String String} {cfg : Config}
    {events : List Event} {st' : State}
    (hstep : startOne daemon processEnv cfg name st = (events, st', .next)) :
    Accounted (done ++ [name]) names (past ++ events) st' := by
  have hname := h.ahead name (List.mem_cons_self ..)
  have hdone : ∀ d ∈ done, d ≠ name := by
    intro d hd he
    exact (List.nodup_append.mp hnodup).2.2 d hd name (List.mem_cons_self ..) he
  have hnames : ∀ d ∈ names, d ≠ name := by
    intro d hd he
    have hcons := (List.nodup_append.mp hnodup).2.1
    exact (List.nodup_cons.mp hcons).1 (he ▸ hd)
  -- what the round adds to the two sides is about `name` alone, and one of them only
  obtain ⟨hother, hself⟩ : (∀ d, d ≠ name → (WasStarted (past ++ events) d ↔ WasStarted past d) ∧
      (st'.failed d ↔ st.failed d)) ∧ (WasStarted (past ++ events) name ↔ ¬ st'.failed name) := by
    rcases startOne_cases daemon processEnv cfg name st with
      ⟨_, hs⟩ | ⟨_, e, _, hs⟩ | ⟨_, config, wait, _, hs, hwait⟩
    -- the service is not declared, and the loop ends
    · rw [hs] at hstep
      simp at hstep
    -- the conversion fails: the service joins the failures and is not started
    · rw [hs] at hstep
      simp only [Prod.mk.injEq, and_true] at hstep
      obtain ⟨rfl, rfl⟩ := hstep
      refine ⟨fun d hd => ?_, ?_⟩
      · rw [wasStarted_append, State.failed_addFailure]
        simp [hd]
      · rw [wasStarted_append, State.failed_addFailure]
        simp [hname.2]
    · rw [hs] at hstep
      obtain ⟨rfl, hans⟩ := Prod.mk.inj hstep
      -- it is started, or what the daemon answers is put down as a failure
      rcases handleAnswer_cases hans with ⟨hstart, hfail⟩ | ⟨hstart, hfail⟩
      · refine ⟨fun d hd => ?_, ?_⟩
        · rw [wasStarted_append, wasStarted_sent hwait, hfail]
          simp [hd]
        · rw [wasStarted_append, wasStarted_sent hwait, hfail]
          simp [hstart, hname.1]
      · refine ⟨fun d hd => ?_, ?_⟩
        · rw [wasStarted_append, wasStarted_sent hwait, hfail]
          simp [hd]
        · rw [wasStarted_append, wasStarted_sent hwait, hfail]
          simp [hstart, hname.2]
  -- what is behind and what is ahead is about other names
  refine ⟨fun d hd => ?_, fun d hd => ?_⟩
  · rcases List.mem_append.mp hd with hd | hd
    · obtain ⟨hw, hf⟩ := hother d (hdone d hd)
      rw [hw, hf]
      exact h.behind d hd
    · rw [List.mem_singleton.mp hd]
      exact hself
  · obtain ⟨hw, hf⟩ := hother d (hnames d hd)
    rw [hw, hf]
    exact h.ahead d (List.mem_cons_of_mem _ hd)

/-- The events of one round keep the property exactly when the round is not one
that converts a service with a failed dependency. -/
theorem startOne_dependenciesStarted_iff (daemon : Daemon) (processEnv : HashMap String String)
    {cfg : Config} {done names : List String} {past : List Event} {st : State} {name : String}
    (h : Accounted done (name :: names) past st) (hdeps : ∀ d, cfg.DependsOn name d → d ∈ done) :
    EachAfter (OnStartedDependencies cfg) past (startOne daemon processEnv cfg name st).1 ↔
      NoFailedDependency processEnv cfg name st := by
  have hbehind : ∀ d, cfg.DependsOn name d → (WasStarted past d ↔ ¬ st.failed d) :=
    fun d hd => h.behind d (hdeps d hd)
  rcases startOne_cases daemon processEnv cfg name st with
    ⟨hunknown, hs⟩ | ⟨_, e, hc, hs⟩ | ⟨_, config, wait, hc, hs, hwait⟩
  · rw [hs]
    refine iff_of_true (Trace.eachAfter_nil _ past) ?_
    intro _ d hd
    exact absurd (Dependencies.mem_services_of_dependsOn hd) hunknown
  · rw [hs]
    refine iff_of_true eachAfter_convert ?_
    intro ⟨config, hok⟩
    simp [hc] at hok
  · rw [hs, eachAfter_sent hwait, NoFailedDependency]
    constructor
    · intro hall _ d hd
      exact (hbehind d hd).mp (hall d hd)
    · intro hall d hd
      exact (hbehind d hd).mpr (hall ⟨config, hc⟩ d hd)

/-- **The loop.** From any point of a run, what follows is sent on started
dependencies exactly when no round converts a service with a failed one. -/
theorem startAll_dependenciesStarted_iff {daemon : Daemon} {processEnv : HashMap String String}
    {cfg : Config} : ∀ (names done : List String) (past : List Event) (st : State),
      (done ++ names).Nodup →
      (∀ pre s post, done ++ names = pre ++ s :: post → ∀ d, cfg.DependsOn s d → d ∈ pre) →
      Accounted done names past st →
      (EachAfter (OnStartedDependencies cfg) past (startAll daemon processEnv cfg names st).1 ↔
        EveryRound daemon processEnv cfg (NoFailedDependency processEnv cfg) names st) := by
  intro names
  induction names with
  | nil =>
    intro done past st _ _ _
    exact iff_of_true (Trace.eachAfter_nil _ past) trivial
  | cons name names ih =>
    intro done past st hnodup hord hacc
    have hround := startOne_dependenciesStarted_iff daemon processEnv hacc
      (hord done name names rfl)
    rw [startAll, EveryRound]
    match hstep : startOne daemon processEnv cfg name st with
    | (events, st', .next) =>
      rw [hstep] at hround
      have hsplit : done ++ name :: names = (done ++ [name]) ++ names := by simp
      dsimp only
      rw [Trace.eachAfter_append, hround, ih (done ++ [name]) (past ++ events) st'
        (hsplit ▸ hnodup) (hsplit ▸ hord) (hacc.step hnodup hstep)]
    | (events, st', .stop) =>
      rw [hstep] at hround
      simpa using hround
    | (events, st', .fail message) =>
      rw [hstep] at hround
      simpa using hround

/-! ## Whole runs -/

/-- `P` holds of every round of the run; there is none when the sort fails. -/
def EveryRoundOfRun (ord : HashOrder) (daemon : Daemon) (processEnv : HashMap String String)
    (cfg : Config) (services : List String) (P : String → State → Prop) : Prop :=
  ∀ ordered, Dependencies.topologicalSort ord (cfg.services.keys.length + 1) cfg services =
      some (.ok ordered) →
    EveryRound daemon processEnv cfg P ordered (initialState processEnv)

/-- The summary adds no events. -/
theorem summarize_events (ordered : List String) (out : List Event × Except String State) :
    (summarize ordered out).events = out.1 := by
  obtain ⟨events, result⟩ := out
  cases result with
  | ok st => rfl
  | error message => rfl

/-- A run is the loop over a topological order, or nothing. -/
theorem run_cases {ord : HashOrder} {daemon : Daemon} {processEnv : HashMap String String}
    {cfg : Config} {services : List String} {r : Run}
    (h : run ord daemon processEnv cfg services = some r) :
    (∃ ordered, Dependencies.topologicalSort ord (cfg.services.keys.length + 1) cfg services =
        some (.ok ordered) ∧
      r.events = (startAll daemon processEnv cfg ordered (initialState processEnv)).1) ∨
    (∃ message, Dependencies.topologicalSort ord (cfg.services.keys.length + 1) cfg services =
        some (.error message) ∧ r.events = []) := by
  unfold run at h
  split at h
  next ordered hs =>
    obtain rfl := Option.some.inj h
    exact Or.inl ⟨ordered, hs, summarize_events ..⟩
  next message hs =>
    obtain rfl := Option.some.inj h
    exact Or.inr ⟨message, hs, rfl⟩
  next => simp at h

/-- The command returns. -/
theorem run_total {cfg : Config} (hdeps : cfg.DependenciesExist) (ord : HashOrder)
    (daemon : Daemon) (processEnv : HashMap String String) (services : List String) :
    ∃ r, run ord daemon processEnv cfg services = some r := by
  obtain ⟨sorted, hs⟩ := Dependencies.topologicalSort_total hdeps ord (Nat.lt_succ_self _) services
  rw [run, hs]
  cases sorted with
  | ok ordered => exact ⟨_, rfl⟩
  | error message => exact ⟨_, rfl⟩

/-- Nothing is done yet. -/
theorem accounted_initial (processEnv : HashMap String String) (ordered : List String) :
    Accounted [] ordered [] (initialState processEnv) :=
  ⟨by simp, by simp [State.failed, initialState, WasStarted]⟩

/-- **Services are started on started dependencies exactly as long as no failure
is passed over.** In a run on a validated configuration every `StartService`
request follows a `ServiceStarted` or `Success` for each dependency if and only
if no round converts a service while a dependency of it is on the list of
failures — where only a failed conversion or an answer of an unexpected kind can
have put it, the two failures after which the loop goes on. -/
theorem run_dependenciesStarted_iff {valid : HashOrder} {cfg : Config}
    (hvalid : Parser.validateConfig valid cfg = .ok ()) (ord : HashOrder) (daemon : Daemon)
    (processEnv : HashMap String String) (services : List String) {r : Run}
    (hrun : run ord daemon processEnv cfg services = some r) :
    DependenciesStarted cfg r.events ↔
      EveryRoundOfRun ord daemon processEnv cfg services (NoFailedDependency processEnv cfg) := by
  have hdeps := Parser.validateConfig_dependenciesExist hvalid
  rcases run_cases hrun with ⟨ordered, hs, hev⟩ | ⟨message, hs, hev⟩
  · rw [DependenciesStarted, hev, startAll_dependenciesStarted_iff ordered [] [] _
      (Dependencies.topologicalSort_nodup hdeps hs) (Dependencies.topologicalSort_before hdeps hs)
      (accounted_initial processEnv ordered)]
    constructor
    · intro h ordered' hs'
      obtain rfl : ordered = ordered' := by simpa [hs] using hs'
      exact h
    · intro h
      exact h ordered hs
  · rw [hev]
    refine iff_of_true (Trace.eachAfter_nil _ []) ?_
    intro ordered hs'
    simp [hs] at hs'

/-- The services a run asked the daemon to start, in order. -/
def requested (events : List Event) : List String :=
  events.filterMap fun
    | .request (.startService name _) _ => some name
    | _ => none

/-- The services of which a start was requested. -/
theorem mem_requested {events : List Event} {name : String} :
    name ∈ requested events ↔
      ∃ config answer, .request (.startService name config) answer ∈ events := by
  simp only [requested, List.mem_filterMap]
  constructor
  · intro ⟨e, he, hname⟩
    split at hname
    next name' config answer =>
      obtain rfl : name' = name := by simpa using hname
      exact ⟨config, answer, he⟩
    next => simp at hname
  · intro ⟨config, answer, he⟩
    exact ⟨_, he, rfl⟩

/-- What a service depends on was requested before it. -/
theorem DependenciesStarted.requested {cfg : Config} {events : List Event}
    (h : DependenciesStarted cfg events) {name d : String} (hname : name ∈ requested events)
    (hd : cfg.DependsOn name d) : d ∈ Start.requested events := by
  obtain ⟨config, answer, hmem⟩ := mem_requested.mp hname
  obtain ⟨pre, post, hsplit⟩ := List.append_of_mem hmem
  obtain ⟨config', answer', hmem', _⟩ := h pre _ post hsplit name config answer rfl d hd
  refine mem_requested.mpr ⟨config', answer', ?_⟩
  rw [hsplit]
  exact List.mem_append_left _ (by simpa using hmem')

/-- `api` depends on `db`, which needs a password from the environment. -/
def passwordConfig : Config where
  version := "1.0"
  networks := ["local"]
  services :=
    (AList.insert "db"
      { Dependencies.processService "postgres" [] with
        env := AList.insert "POSTGRES_PASSWORD" "$\x7bPOSTGRES_PASSWORD\x7d" ∅ } ∅).insert
      "api" (Dependencies.processService "api-server" ["db"])

/-- Everything starts, on one address. -/
def obligingDaemon : Daemon where
  start name := .ok (.serviceStarted name ⟨"10.0.0.1", some 80, name ++ ".local", [80]⟩)
  status _ _ := (0, .ok (.serviceStatus .running))

/-- Without the password `db` is not started, and `api` is started all the same. -/
theorem run_starts_on_failed_dependency :
    Parser.validateConfig HashOrder.stored passwordConfig = .ok () ∧
      ∃ r, run HashOrder.stored obligingDaemon ∅ passwordConfig ["api"] = some r ∧
        ¬ DependenciesStarted passwordConfig r.events := by
  refine ⟨by decide, ?_⟩
  obtain ⟨r, hr⟩ := @run_total passwordConfig (by decide) HashOrder.stored obligingDaemon ∅
    ["api"]
  have hreq : (run HashOrder.stored obligingDaemon ∅ passwordConfig ["api"]).map
      (fun r => requested r.events) = some ["api"] := by decide
  rw [hr] at hreq
  obtain hreq : requested r.events = ["api"] := by simpa using hreq
  refine ⟨r, hr, fun h => ?_⟩
  have hd : passwordConfig.DependsOn "api" "db" := ⟨_, rfl, by decide⟩
  have hmem := h.requested (by rw [hreq]; decide) hd
  rw [hreq] at hmem
  exact absurd hmem (by decide)

/-- A database whose password is not set. -/
theorem run_dependenciesStarted_iff_password :
    ∃ r, run HashOrder.stored obligingDaemon ∅ passwordConfig ["db", "api"] = some r ∧
      (DependenciesStarted passwordConfig r.events ↔
        EveryRoundOfRun HashOrder.stored obligingDaemon ∅ passwordConfig ["db", "api"]
          (NoFailedDependency ∅ passwordConfig)) := by
  have hvalid : Parser.validateConfig HashOrder.stored passwordConfig = .ok () := by decide
  have hdeps : passwordConfig.DependenciesExist := by decide
  obtain ⟨r, hr⟩ := run_total hdeps HashOrder.stored obligingDaemon ∅ ["db", "api"]
  exact ⟨r, hr, run_dependenciesStarted_iff hvalid HashOrder.stored obligingDaemon ∅ _ hr⟩

end GraphHarness.Start
