import GraphHarness.Harness.StartSession
import GraphHarness.ServiceRegistry.Serializer

/-!
# What the daemon has after a start

The client keeps what it was answered, and the daemon what it has started. `Matches` is what
the two have to do with each other at every point of the loop.

> `session_reports`: at the end of a start the daemon has the services that it had before and
> those that are reported as started, each with the configuration that was made for it, and
> every conversion has seen the networks that the daemon has on record.
>
> `session_dependencies`: when the daemon is asked to start a service, the dependencies of
> that service are active, unless their own conversion has failed before.

What the client cannot know is part of the statements: a start whose answer is lost
(`AnswerLost`), or that fails after its service has been stored, as it does under a blank
name, leaves a service active that is reported as a failure.

The proof is a step lemma for one round (`round_spec`), which has a case for each way a round
can end, and a loop lemma from any point that `Matches` (`loop_matches`). `Point` is what the
loop lemma speaks of: the daemon, the events so far and the state of the command.

The daemon has whatever it had before the command; a service that was active before is refused
as already existing, and reported as a failure.
-/

namespace GraphHarness.StartSession

open Handlers (Rendering startedNetworkInfo)
open Orchestration (RunningService ServiceConfig ServiceManager)
open Protocol (Answer Request ServiceNetworkInfo)
open Resolver (ResolutionContext)
open ServiceRegistry (RegistryBackend)
open Session (Turn send)
open Start (Control Event Report Run State handleAnswer isStarted notFound)
open Trace (Dialogue)

/-! ## One round -/

/-- What is asked while the client waits. -/
def AsksStatus (request : Request) : Prop := ∃ name, request = .getServiceStatus name

/-- The wait asks for statuses only. -/
theorem waitForHealth_asks (late : Nat → Nat) (name : String) (timeout : Nat) :
    ∀ (rounds k : Nat), (waitForHealth late name timeout rounds k).Asks AsksStatus := by
  intro rounds
  induction rounds with
  | zero => intro k; trivial
  | succ rounds ih =>
    intro k
    rw [waitForHealth]
    refine Dialogue.asks_ite trivial ⟨⟨name, rfl⟩, ?_⟩
    intro answer
    dsimp only
    split
    next => trivial
    next => trivial
    next => exact Dialogue.asks_map _ (ih (k + 1))
    next => trivial

/-- So does a wait that there may be none of. -/
theorem healthWait_asks (late : Nat → Nat) (name : String) (service : Service) :
    (healthWait late name service).Asks AsksStatus := by
  unfold healthWait
  cases service.healthCheck with
  | none => trivial
  | some _ => exact waitForHealth_asks late name _ _ 0

/-- The wait records only what it asks. -/
theorem waitForHealth_events {σ : Type} (world : σ → Request → σ × Answer) (late : Nat → Nat)
    (name : String) (timeout : Nat) : ∀ (rounds k : Nat) (s : σ),
      ∀ e ∈ ((waitForHealth late name timeout rounds k).exec world s).2,
        ∃ answer, e = .request (.getServiceStatus name) answer := by
  intro rounds
  induction rounds with
  | zero => intro k s e he; simp [waitForHealth, Dialogue.exec] at he
  | succ rounds ih =>
    intro k s e he
    rw [waitForHealth] at he
    split at he
    next => simp [Dialogue.exec] at he
    next =>
      rw [Dialogue.exec] at he
      cases hasked : world s (.getServiceStatus name) with
      | mk s' answer =>
        rw [hasked] at he
        dsimp only at he
        split at he
        next => exact ⟨_, List.mem_singleton.mp he⟩
        next => exact ⟨_, List.mem_singleton.mp he⟩
        next =>
          rw [Dialogue.exec_map] at he
          rcases List.mem_cons.mp he with rfl | hrest
          · exact ⟨_, rfl⟩
          · exact ih (k + 1) s' e hrest
        next => exact ⟨_, List.mem_singleton.mp he⟩

/-- Its events are those requests. -/
theorem healthWait_events {σ : Type} (world : σ → Request → σ × Answer) (late : Nat → Nat)
    (name : String) (service : Service) (s : σ) :
    ∀ e ∈ ((healthWait late name service).exec world s).2,
      ∃ answer, e = .request (.getServiceStatus name) answer := by
  unfold healthWait
  cases service.healthCheck with
  | none => intro e he; simp [Dialogue.exec] at he
  | some _ => exact waitForHealth_events world late name _ _ 0 s

/-- An error ends the loop with a failure. -/
theorem handleAnswer_failure {answer : Answer} (h : Stop.isFailure answer = true) (st : State)
    (name : String) :
    isStarted answer = false ∧ ∃ e, handleAnswer st name answer = (st.addFailure name e, .stop) := by
  cases answer with
  | error e => exact ⟨rfl, e, rfl⟩
  | ok response =>
    cases response with
    | error message => exact ⟨rfl, message, rfl⟩
    | _ => cases h

section Daemon

variable {σ : Type} [RegistryBackend σ] (rendering : Rendering) (turns : Nat → Turn)
  (late : String → Nat → Nat) (processEnv : HashMap String String) (cfg : Config)

/-- The state of the loop with the daemon. -/
structure Point (σ : Type) where
  manager : ServiceManager σ
  events : List Event
  st : State

/-- The daemon has answered the request to start the service, and the client has read the
error of a broken connection instead. -/
def AnswerLost (name : String) (events : List Event) : Prop :=
  ∃ n config e, (turns n).fate = .unread e ∧
    .request (.startService name config) (.error e) ∈ events

/-- How a round changes the point, and whether the loop goes on. -/
inductive Round (name : String) (point : Point σ) : Point σ → Control → Prop where
  | unknown : name ∉ cfg.services →
    Round name point point (.fail (notFound name))
  | unconverted (e : ConfigError) :
    Start.convertIn processEnv cfg name point.st = .error e →
    Round name point ⟨point.manager,
      point.events ++ [.convert name point.st.resolutionContext (.error e)],
      point.st.addFailure name e.toString⟩ .next
  | refused (config : ServiceConfig) (manager : ServiceManager σ) (e : String)
      (events : List Event) :
    manager.activeServices = point.manager.activeServices →
    (∀ n context result, .convert n context result ∈ events →
      n = name ∧ context = point.st.resolutionContext ∧ result = .ok config) →
    Round name point ⟨manager, point.events ++ events, point.st.addFailure name e⟩ .stop
  | lost (config : ServiceConfig) (manager : ServiceManager σ) (service : RunningService)
      (e : String) (events : List Event) :
    name ∉ point.manager.activeServices →
    manager.activeServices = point.manager.activeServices.insert name service →
    isBlank name = true ∨ AnswerLost turns name events →
    (∀ n context result, .convert n context result ∈ events →
      n = name ∧ context = point.st.resolutionContext ∧ result = .ok config) →
    Round name point ⟨manager, point.events ++ events, point.st.addFailure name e⟩ .stop
  | started (manager : ServiceManager σ) (service : RunningService) (events : List Event) :
    name ∉ point.manager.activeServices →
    manager.activeServices = point.manager.activeServices.insert name service →
    .convert name point.st.resolutionContext (.ok service.config) ∈ events →
    (∀ n context result, .convert n context result ∈ events →
      n = name ∧ context = point.st.resolutionContext ∧ result = .ok service.config) →
    Round name point ⟨manager, point.events ++ events,
      point.st.addStarted name (startedNetworkInfo name service).ip
        (startedNetworkInfo name service).port (startedNetworkInfo name service).hostname⟩ .next

variable {turns processEnv cfg}

/-- An answer that was lost stays lost. -/
theorem AnswerLost.mono {name : String} {events more : List Event}
    (h : AnswerLost turns name events) (hsubset : events ⊆ more) : AnswerLost turns name more := by
  obtain ⟨n, config, e, hfate, hmem⟩ := h
  exact ⟨n, config, e, hfate, hsubset hmem⟩

/-- The request of a round and the wait behind it. -/
theorem exec_sent (name : String) (config : ServiceConfig) (service : Service) (st : State)
    (world : ServiceManager σ × Nat) :
    let sent := send rendering turns world (.startService name config)
    let dialogue : Dialogue Request Answer (List Event × State × Control) :=
      .ask (.startService name config) fun answer =>
        (if isStarted answer then healthWait (late name) name service else .ended []).map
          fun wait => (.convert name st.resolutionContext (.ok config) ::
            .request (.startService name config) answer :: wait, handleAnswer st name answer)
    ∃ wait : List Event, (∀ e ∈ wait, ∃ answer, e = .request (.getServiceStatus name) answer) ∧
      ((dialogue.exec (send rendering turns) world).1.1 = sent.1.1) ∧
      (dialogue.exec (send rendering turns) world).2 =
        (.convert name st.resolutionContext (.ok config) ::
          .request (.startService name config) sent.2 :: wait, handleAnswer st name sent.2) := by
  intro sent dialogue
  dsimp only [dialogue, Dialogue.exec]
  rw [Dialogue.exec_map]
  refine ⟨_, ?_, ?_, rfl⟩
  · split
    next => exact healthWait_events (send rendering turns) (late name) name service sent.1
    next => exact fun e he => by simp [Dialogue.exec] at he
  · have hasks : (if isStarted sent.2 then healthWait (late name) name service
        else .ended []).Asks AsksStatus :=
      Dialogue.asks_ite (healthWait_asks (late name) name service) trivial
    refine Dialogue.exec_invariant (fun world : ServiceManager σ × Nat => world.1 = sent.1.1) ?_
      hasks rfl
    rintro world request ⟨other, rfl⟩ hworld
    rw [Session.send_reads rendering turns world fun _ => rfl]
    exact hworld

/-- One round of the loop, by what came of it. -/
theorem round_spec (name : String) (point : Point σ) (k : Nat) :
    let ended := (startOneOver late processEnv cfg name point.st).exec (send rendering turns)
      (point.manager, k)
    Round turns processEnv cfg name point
      ⟨ended.1.1, point.events ++ ended.2.1, ended.2.2.1⟩ ended.2.2.2 := by
  dsimp only
  unfold startOneOver
  cases hlookup : cfg.services.lookup name with
  | none =>
    dsimp only [Dialogue.exec]
    rw [List.append_nil]
    exact .unknown (AList.lookup_eq_none.mp hlookup)
  | some service =>
    dsimp only
    cases hconvert : Parser.convertToOrchestratorWithContext processEnv cfg name
        (some point.st.resolutionContext) with
    | error e => exact .unconverted e hconvert
    | ok config =>
      dsimp only
      obtain ⟨wait, hwait, hmanager, hresult⟩ := exec_sent rendering late name config service
        point.st (point.manager, k)
      rw [hmanager, hresult]
      -- the only conversion of the round is that of its service
      have hconversions : ∀ answer n context result,
          Event.convert n context result ∈ .convert name point.st.resolutionContext (.ok config) ::
            .request (.startService name config) answer :: wait →
          n = name ∧ context = point.st.resolutionContext ∧ result = .ok config := by
        intro answer n context result hmem
        rcases List.mem_cons.mp hmem with heq | hmem
        · obtain ⟨rfl, rfl, rfl⟩ := Event.convert.inj heq
          exact ⟨rfl, rfl, rfl⟩
        · rcases List.mem_cons.mp hmem with heq | hmem
          · cases heq
          · obtain ⟨_, heq⟩ := hwait _ hmem
            cases heq
      rcases Session.send_start rendering turns (point.manager, k) name config with
        ⟨hactive, hfailure⟩ | ⟨running, hfree, rfl, hactive, hstarted | ⟨hfailure, hwhy⟩⟩
      -- the daemon has refused the start
      · obtain ⟨_, e, hanswer⟩ := handleAnswer_failure hfailure point.st name
        rw [hanswer]
        exact .refused config _ e _ hactive (hconversions _)
      -- the daemon has started the service and the client knows
      · rw [hstarted]
        exact .started _ running _ hfree hactive (List.mem_cons_self) (hconversions _)
      -- the daemon has it, and the client was told otherwise, or nothing
      · obtain ⟨_, e, hanswer⟩ := handleAnswer_failure hfailure point.st name
        rw [hanswer]
        refine .lost _ _ running e _ hfree hactive (hwhy.imp_right ?_) (hconversions _)
        -- what is lost is the answer to the request of this round
        intro ⟨e', hfate, hlost⟩
        refine ⟨k, running.config, e', hfate, ?_⟩
        rw [hlost]
        exact List.mem_cons_of_mem _ List.mem_cons_self

end Daemon

/-! ## The invariant -/

/-- The context knows a service under this network. -/
structure KnownAs (context : ResolutionContext) (name : String) (info : ServiceNetworkInfo) :
    Prop where
  ip : context.serviceIps.lookup name = some info.ip
  host : context.serviceHosts.lookup name = some info.hostname
  port : context.servicePorts.lookup name = info.port

section Invariant

variable {σ : Type}

/-- What the context knows of a service is what the daemon has on record for it. -/
def SeesDaemon (manager : ServiceManager σ) (context : ResolutionContext) : Prop :=
  ∀ name ∈ context.serviceIps, ∃ service, manager.activeServices.lookup name = some service ∧
    KnownAs context name (startedNetworkInfo name service)

/-- The daemon has what it had before and what was started. Where it has more, the name is
blank or its answer was lost. -/
structure Matches (turns : Nat → Turn) (before : ServiceManager σ) (point : Point σ) : Prop where
  kept : ∀ name ∈ before.activeServices,
    point.manager.activeServices.lookup name = before.activeServices.lookup name
  started : ∀ name ∈ point.st.startedServices, name ∉ before.activeServices ∧ ∃ service context,
    point.manager.activeServices.lookup name = some service ∧
      .convert name context (.ok service.config) ∈ point.events
  only : ∀ name ∈ point.manager.activeServices, name ∈ before.activeServices ∨
    name ∈ point.st.startedServices ∨
      point.st.failed name ∧ (isBlank name = true ∨ AnswerLost turns name point.events)
  unknown : ∀ name, name ∉ point.st.startedServices →
    name ∉ point.st.resolutionContext.serviceIps ∧
      name ∉ point.st.resolutionContext.servicePorts
  sees : SeesDaemon point.manager point.st.resolutionContext
  seen : ∀ name context result, .convert name context result ∈ point.events →
    SeesDaemon point.manager context

/-- A context that agrees with the daemon agrees with it after more services are active. -/
theorem seesDaemon_grows {manager manager' : ServiceManager σ} {context : ResolutionContext}
    (h : SeesDaemon manager context)
    (hgrows : ∀ name service, manager.activeServices.lookup name = some service →
      manager'.activeServices.lookup name = some service) : SeesDaemon manager' context := by
  intro name hname
  obtain ⟨service, hservice, hknown⟩ := h name hname
  exact ⟨service, hgrows name service hservice, hknown⟩

/-- A service under a free name does not hide the others. -/
theorem lookup_insert_grows {manager manager' : ServiceManager σ} {name : String}
    {service : RunningService} (hfree : name ∉ manager.activeServices)
    (hactive : manager'.activeServices = manager.activeServices.insert name service)
    (other : String) (found : RunningService)
    (h : manager.activeServices.lookup other = some found) :
    manager'.activeServices.lookup other = some found := by
  have hne : other ≠ name := by
    rintro rfl
    exact hfree (AList.lookup_isSome.mp (by simp [h]))
  rw [hactive, AList.lookup_insert_ne hne]
  exact h

/-- A service that is added is known as it was added. -/
theorem lookup_addService {context : ResolutionContext} {name : String} {info : ServiceNetworkInfo}
    (hport : name ∉ context.servicePorts) :
    KnownAs (context.addService name info.ip info.port info.hostname) name info := by
  refine ⟨AList.lookup_insert _, AList.lookup_insert _, ?_⟩
  unfold ResolutionContext.addService
  cases hinfo : info.port with
  | none => exact AList.lookup_eq_none.mpr hport
  | some port => exact AList.lookup_insert _

/-- Other services are known as before. -/
theorem knownAs_addService {context : ResolutionContext} {name other : String}
    {info info' : ServiceNetworkInfo} (hne : other ≠ name) (h : KnownAs context other info') :
    KnownAs (context.addService name info.ip info.port info.hostname) other info' := by
  refine ⟨(AList.lookup_insert_ne hne).trans h.ip, (AList.lookup_insert_ne hne).trans h.host, ?_⟩
  unfold ResolutionContext.addService
  cases info.port with
  | none => exact h.port
  | some port => exact (AList.lookup_insert_ne hne).trans h.port

variable {turns : Nat → Turn} {processEnv : HashMap String String} {cfg : Config}
  {before : ServiceManager σ} {point : Point σ} {name : String}

/-- A failure is recorded, and the daemon has grown at most by a service that the client
does not know of. -/
theorem matches_failure (h : Matches turns before point) {manager : ServiceManager σ}
    {e : String} {events : List Event}
    (hgrows : ∀ other service, point.manager.activeServices.lookup other = some service →
      manager.activeServices.lookup other = some service)
    (hmore : ∀ other ∈ manager.activeServices, other ∈ point.manager.activeServices ∨
      other = name ∧ (isBlank name = true ∨ AnswerLost turns name events))
    (hevents : ∀ n context result, .convert n context result ∈ events →
      context = point.st.resolutionContext) :
    Matches turns before ⟨manager, point.events ++ events, point.st.addFailure name e⟩ := by
  refine ⟨?_, ?_, ?_, h.unknown, seesDaemon_grows h.sees hgrows, ?_⟩
  · intro other hother
    obtain ⟨service, hservice⟩ := Option.isSome_iff_exists.mp (AList.lookup_isSome.mpr hother)
    rw [hservice]
    exact hgrows other service ((h.kept other hother).trans hservice)
  · intro other hother
    obtain ⟨hnew, service, context, hservice, hevent⟩ := h.started other hother
    exact ⟨hnew, service, context, hgrows other service hservice, List.mem_append_left _ hevent⟩
  · intro other hother
    rcases hmore other hother with hother | ⟨rfl, hwhy⟩
    · rcases h.only other hother with hbefore | hstarted | ⟨hfailed, hwhy⟩
      · exact .inl hbefore
      · exact .inr (.inl hstarted)
      · exact .inr (.inr ⟨(State.failed_addFailure ..).mpr (.inl hfailed),
          hwhy.imp_right (·.mono (List.subset_append_left ..))⟩)
    · exact .inr (.inr ⟨(State.failed_addFailure ..).mpr (.inr rfl),
        hwhy.imp_right (·.mono (List.subset_append_right ..))⟩)
  · intro n context result hmem
    rcases List.mem_append.mp hmem with hmem | hmem
    · exact seesDaemon_grows (h.seen n context result hmem) hgrows
    · rw [hevents n context result hmem]
      exact seesDaemon_grows h.sees hgrows

/-- A round that started its service. -/
theorem matches_started (h : Matches turns before point) {manager : ServiceManager σ}
    {service : RunningService} {events : List Event}
    (hfree : name ∉ point.manager.activeServices)
    (hactive : manager.activeServices = point.manager.activeServices.insert name service)
    (hevent : .convert name point.st.resolutionContext (.ok service.config) ∈ events)
    (hevents : ∀ n context result, .convert n context result ∈ events →
      context = point.st.resolutionContext) :
    Matches turns before ⟨manager, point.events ++ events,
      point.st.addStarted name (startedNetworkInfo name service).ip
        (startedNetworkInfo name service).port (startedNetworkInfo name service).hostname⟩ := by
  have hgrows := lookup_insert_grows hfree hactive
  have hself : manager.activeServices.lookup name = some service := by
    rw [hactive]
    exact AList.lookup_insert _
  -- the name is new to the daemon, so it is new to the client
  have hnew : name ∉ point.st.startedServices := by
    intro hstarted
    obtain ⟨_, found, _, hfound, _⟩ := h.started name hstarted
    exact hfree (AList.lookup_isSome.mp (by simp [hfound]))
  have hbefore : name ∉ before.activeServices := by
    intro hmem
    have hlookup := h.kept name hmem
    rw [AList.lookup_eq_none.mpr hfree] at hlookup
    exact AList.lookup_eq_none.mp hlookup.symm hmem
  refine ⟨?_, ?_, ?_, ?_, ?_, ?_⟩
  -- what was there before is still there
  · intro other hother
    obtain ⟨found, hfound⟩ := Option.isSome_iff_exists.mp (AList.lookup_isSome.mpr hother)
    rw [hfound]
    exact hgrows other found ((h.kept other hother).trans hfound)
  -- what is reported as started is there
  · intro other hother
    rcases List.mem_append.mp hother with hother | hother
    · obtain ⟨hother', found, context, hfound, hmem⟩ := h.started other hother
      exact ⟨hother', found, context, hgrows other found hfound, List.mem_append_left _ hmem⟩
    · obtain rfl := List.mem_singleton.mp hother
      exact ⟨hbefore, service, _, hself, List.mem_append_right _ hevent⟩
  -- what is there was there before, or is reported, or its failure is explained
  · intro other hother
    rw [hactive, AList.mem_insert] at hother
    rcases hother with rfl | hother
    · exact .inr (.inl (List.mem_append_right _ (List.mem_singleton.mpr rfl)))
    · rcases h.only other hother with hold | hstarted | ⟨hfailed, hwhy⟩
      · exact .inl hold
      · exact .inr (.inl (List.mem_append_left _ hstarted))
      · exact .inr (.inr ⟨hfailed, hwhy.imp_right (·.mono (List.subset_append_left ..))⟩)
  -- the context knows nothing of what was not started
  · intro other hother
    have hne : other ≠ name := by
      rintro rfl
      exact hother (List.mem_append_right _ (List.mem_singleton.mpr rfl))
    obtain ⟨hips, hports⟩ := h.unknown other fun hmem => hother (List.mem_append_left _ hmem)
    refine ⟨fun hmem => ?_, fun hmem => ?_⟩
    · exact ((AList.mem_insert _).mp hmem).elim hne hips
    · unfold State.addStarted ResolutionContext.addService at hmem
      cases hport : (startedNetworkInfo name service).port with
      | none =>
        rw [hport] at hmem
        exact hports hmem
      | some port =>
        rw [hport] at hmem
        exact ((AList.mem_insert _).mp hmem).elim hne hports
  -- and of what was started it knows what the daemon has
  · intro other hother
    by_cases hne : other = name
    · subst hne
      exact ⟨service, hself, lookup_addService (h.unknown other hnew).2⟩
    · obtain ⟨found, hfound, hknown⟩ :=
        h.sees other (((AList.mem_insert _).mp hother).resolve_left hne)
      exact ⟨found, hgrows other found hfound, knownAs_addService hne hknown⟩
  -- the conversions have seen contexts that still agree
  · intro n context result hmem
    rcases List.mem_append.mp hmem with hmem | hmem
    · exact seesDaemon_grows (h.seen n context result hmem) hgrows
    · rw [hevents n context result hmem]
      exact seesDaemon_grows h.sees hgrows

/-- What one round keeps. -/
theorem matches_round (h : Matches turns before point) {next : Point σ} {control : Control}
    (hround : Round turns processEnv cfg name point next control) : Matches turns before next := by
  cases hround with
  | unknown _ => exact h
  | unconverted e _ =>
    refine matches_failure h (fun _ _ hsome => hsome) (fun _ hmem => .inl hmem) ?_
    intro n context result hmem
    exact (Event.convert.inj (List.mem_singleton.mp hmem)).2.1
  | refused config manager e events hactive hevents =>
    refine matches_failure h ?_ ?_ fun n context result hmem => (hevents n context result hmem).2.1
    · rw [hactive]
      exact fun _ _ hsome => hsome
    · rw [hactive]
      exact fun _ hmem => .inl hmem
  | lost config manager service e events hfree hactive hwhy hevents =>
    refine matches_failure h (lookup_insert_grows hfree hactive) ?_
      fun n context result hmem => (hevents n context result hmem).2.1
    intro other hother
    rw [hactive, AList.mem_insert] at hother
    rcases hother with rfl | hother
    · exact .inr ⟨rfl, hwhy⟩
    · exact .inl hother
  | started manager service events hfree hactive hevent hevents =>
    exact matches_started h hfree hactive hevent
      fun n context result hmem => (hevents n context result hmem).2.1

end Invariant

/-! ## The loop -/

section Loop

variable {σ : Type} [RegistryBackend σ] (rendering : Rendering) {turns : Nat → Turn}
  (late : String → Nat → Nat) {processEnv : HashMap String String} {cfg : Config}

/-- The loop from a point on, one round at a time. -/
theorem exec_cons (name : String) (names : List String) (point : Point σ) (k : Nat) :
    ∃ next : Point σ, ∃ k' control, Round turns processEnv cfg name point next control ∧
      next.events = point.events ++ ((startOneOver late processEnv cfg name point.st).exec
        (send rendering turns) (point.manager, k)).2.1 ∧
      (∃ rest, point.events ++ ((startAllOver late processEnv cfg (name :: names) point.st).exec
        (send rendering turns) (point.manager, k)).2.1 = next.events ++ rest) ∧
      (startAllOver late processEnv cfg (name :: names) point.st).steps (send rendering turns)
          (point.manager, k) =
        (startOneOver late processEnv cfg name point.st).steps (send rendering turns)
          (point.manager, k) ++
        (if control = .next then
          (startAllOver late processEnv cfg names next.st).steps (send rendering turns)
            (next.manager, k')
        else []) ∧
      (let ended := (startAllOver late processEnv cfg (name :: names) point.st).exec
          (send rendering turns) (point.manager, k)
       match control with
        | .next =>
          let later := (startAllOver late processEnv cfg names next.st).exec (send rendering turns)
            (next.manager, k')
          ended.1.1 = later.1.1 ∧ point.events ++ ended.2.1 = next.events ++ later.2.1 ∧
            ended.2.2 = later.2.2
        | .stop =>
          ended.1.1 = next.manager ∧ point.events ++ ended.2.1 = next.events ∧
            ended.2.2 = .ok next.st
        | .fail message => ended.2.2 = .error message) := by
  have hround := @round_spec σ _ rendering turns late processEnv cfg name point k
  rw [startAllOver, Dialogue.exec_bind, Dialogue.steps_bind]
  generalize (startOneOver late processEnv cfg name point.st).exec (send rendering turns)
    (point.manager, k) = ended at hround ⊢
  obtain ⟨⟨manager, k'⟩, events, st, control⟩ := ended
  -- what remains is bookkeeping: the events of a round come before those of the rest
  refine ⟨⟨manager, point.events ++ events, st⟩, k', control, hround, rfl, ?_, ?_, ?_⟩
  · cases control with
    | next =>
      dsimp only
      rw [Dialogue.exec_map]
      exact ⟨_, (List.append_assoc ..).symm⟩
    | stop => exact ⟨[], (List.append_nil _).symm⟩
    | fail message => exact ⟨[], (List.append_nil _).symm⟩
  · cases control with
    | next => exact congrArg _ (Dialogue.steps_map ..)
    | stop => rfl
    | fail message => rfl
  · cases control with
    | next =>
      dsimp only
      rw [Dialogue.exec_map]
      exact ⟨rfl, (List.append_assoc ..).symm, rfl⟩
    | stop => exact ⟨rfl, rfl, rfl⟩
    | fail message => rfl

/-- What the loop keeps. -/
theorem loop_matches {before : ServiceManager σ} : ∀ (names : List String) (point : Point σ)
    (k : Nat), Matches turns before point →
      let ended := (startAllOver late processEnv cfg names point.st).exec (send rendering turns)
        (point.manager, k)
      ∀ st, ended.2.2 = .ok st → Matches turns before ⟨ended.1.1, point.events ++ ended.2.1, st⟩ := by
  intro names
  induction names with
  | nil =>
    intro point k h ended st hst
    obtain rfl : point.st = st := Except.ok.inj hst
    show Matches turns before ⟨point.manager, point.events ++ [], point.st⟩
    rw [List.append_nil]
    exact h
  | cons name names ih =>
    intro point k h ended st hst
    obtain ⟨next, k', control, hround, _, _, _, hended⟩ :=
      @exec_cons σ _ rendering turns late processEnv cfg name names point k
    have hnext := matches_round h hround
    cases control with
    | next =>
      obtain ⟨hmanager, hevents, hresult⟩ := hended
      have hlater := ih next k' hnext st (hresult.symm.trans hst)
      rw [← hmanager, ← hevents] at hlater
      exact hlater
    | stop =>
      obtain ⟨hmanager, hevents, hresult⟩ := hended
      obtain rfl : next.st = st := Except.ok.inj (hresult.symm.trans hst)
      show Matches turns before ⟨ended.1.1, point.events ++ ended.2.1, next.st⟩
      rw [hmanager, hevents]
      exact hnext
    | fail message => cases hended.symm.trans hst

/-- A round asks for its own service first, in the state it begins in, after the conversion. -/
theorem round_steps (name : String) (st : State) (world : ServiceManager σ × Nat) :
    ∀ step ∈ (startOneOver late processEnv cfg name st).steps (send rendering turns) world,
      (step.1 = world ∧ ∃ config converted answer wait, step.2 = .startService name config ∧
        ((startOneOver late processEnv cfg name st).exec (send rendering turns) world).2.1 =
          converted :: .request (.startService name config) answer :: wait) ∨
      AsksStatus step.2 := by
  intro step hstep
  unfold startOneOver at hstep ⊢
  cases hlookup : cfg.services.lookup name with
  | none =>
    rw [hlookup] at hstep
    cases hstep
  | some service =>
    rw [hlookup] at hstep
    dsimp only at hstep ⊢
    cases hconvert : Parser.convertToOrchestratorWithContext processEnv cfg name
        (some st.resolutionContext) with
    | error e =>
      rw [hconvert] at hstep
      cases hstep
    | ok config =>
      rw [hconvert] at hstep
      rcases List.mem_cons.mp hstep with rfl | hstep
      · refine .inl ⟨rfl, config, .convert name st.resolutionContext (.ok config), ?_⟩
        dsimp only [Dialogue.exec]
        rw [Dialogue.exec_map]
        exact ⟨_, _, rfl, rfl⟩
      · refine .inr (Dialogue.steps_imp (Dialogue.asks_map _ ?_) step hstep)
        exact Dialogue.asks_ite (healthWait_asks (late name) name service) trivial

/-- The service could not be converted. -/
def Unconverted (events : List Event) (name : String) : Prop :=
  ∃ context e, .convert name context (.error e) ∈ events

/-- A failed conversion stays one. -/
theorem Unconverted.mono {events more : List Event} {name : String} (h : Unconverted events name)
    (hsubset : events ⊆ more) : Unconverted more name := by
  obtain ⟨context, e, hmem⟩ := h
  exact ⟨context, e, hsubset hmem⟩

omit [RegistryBackend σ] in
/-- What is behind the loop, after a round that has gone on: the service of the round is
active, or could not be converted. -/
theorem behind_round {name : String} {done : List String} {point next : Point σ}
    (hround : Round turns processEnv cfg name point next .next)
    (hdone : ∀ d ∈ done, d ∈ point.manager.activeServices ∨ Unconverted point.events d) :
    ∀ d ∈ done ++ [name], d ∈ next.manager.activeServices ∨ Unconverted next.events d := by
  intro d hd
  cases hround with
  | unconverted e _ =>
    rcases List.mem_append.mp hd with hd | hd
    · exact (hdone d hd).imp_right (·.mono (List.subset_append_left ..))
    · obtain rfl := List.mem_singleton.mp hd
      exact .inr ⟨_, e, List.mem_append_right _ (List.mem_singleton.mpr rfl)⟩
  | started manager service events hfree hactive hevent hevents =>
    show d ∈ manager.activeServices ∨ Unconverted (point.events ++ events) d
    rw [hactive, AList.mem_insert]
    rcases List.mem_append.mp hd with hd | hd
    · exact (hdone d hd).imp .inr (·.mono (List.subset_append_left ..))
    · exact .inl (.inl (List.mem_singleton.mp hd))

/-- What is so when the daemon is asked to start a service: of the events of the whole run,
some are before the request, and each dependency is active or could not be converted then. -/
def AskedInOrder (cfg : Config) (events : List Event) (manager : ServiceManager σ) (name : String)
    (config : ServiceConfig) : Prop :=
  ∃ earlier answer later, events = earlier ++ .request (.startService name config) answer :: later ∧
    ∀ d, cfg.DependsOn name d → d ∈ manager.activeServices ∨ Unconverted earlier d

/-- Behind the current position every service is active or could not be converted. -/
theorem loop_dependencies : ∀ (names done : List String) (point : Point σ) (k : Nat),
    (∀ pre s post, done ++ names = pre ++ s :: post → ∀ d, cfg.DependsOn s d → d ∈ pre) →
    (∀ d ∈ done, d ∈ point.manager.activeServices ∨ Unconverted point.events d) →
    let dialogue := startAllOver late processEnv cfg names point.st
    ∀ step ∈ dialogue.steps (send rendering turns) (point.manager, k),
      ∀ name config, step.2 = .startService name config →
        AskedInOrder cfg (point.events ++
          (dialogue.exec (send rendering turns) (point.manager, k)).2.1) step.1.1 name config := by
  intro names
  induction names with
  | nil =>
    intro done point k _ _ dialogue step hstep
    cases hstep
  | cons name names ih =>
    intro done point k hord hdone dialogue step hstep asked config hasked
    obtain ⟨next, k', control, hround, hnow, ⟨rest, hrest⟩, hsteps, hended⟩ :=
      @exec_cons σ _ rendering turns late processEnv cfg name names point k
    rw [hsteps] at hstep
    rcases List.mem_append.mp hstep with hown | hafter
    · rcases round_steps rendering late name point.st (point.manager, k) step hown with
        ⟨hworld, config', converted, answer, wait, hname, hevents⟩ | ⟨other, hother⟩
      · obtain ⟨rfl, rfl⟩ := Request.startService.inj (hasked.symm.trans hname)
        refine ⟨point.events ++ [converted], answer, wait ++ rest, ?_, ?_⟩
        · rw [hrest, hnow, hevents]
          simp
        · intro d hd
          rw [hworld]
          exact (hdone d (hord done asked names rfl d hd)).imp_right
            (·.mono (List.subset_append_left ..))
      · cases hasked.symm.trans hother
    · by_cases hnext : control = .next
      · rw [if_pos hnext] at hafter
        subst hnext
        obtain ⟨_, hevents, _⟩ := hended
        have hsplit : done ++ name :: names = (done ++ [name]) ++ names := by simp
        have hlater := ih (done ++ [name]) next k' (hsplit ▸ hord) (behind_round hround hdone) step
          hafter asked config hasked
        rw [← hevents] at hlater
        exact hlater
      · rw [if_neg hnext] at hafter
        cases hafter

/-! ## Whole sessions -/

omit [RegistryBackend σ] in
/-- Before the first round nothing was started. -/
theorem matches_initial (before : ServiceManager σ) (processEnv : HashMap String String) :
    Matches turns before ⟨before, [], Start.initialState processEnv⟩ :=
  ⟨fun _ _ => rfl, by simp [Start.initialState], fun _ h => .inl h,
    fun _ _ => ⟨AList.notMem_empty _, AList.notMem_empty _⟩,
    fun _ h => absurd h (AList.notMem_empty _), by simp⟩

/-- What a report says of the daemon before the start and after it. -/
structure Reported (turns : Nat → Turn) (before after : ServiceManager σ) (events : List Event)
    (report : Report) : Prop where
  kept : ∀ name ∈ before.activeServices,
    after.activeServices.lookup name = before.activeServices.lookup name
  started : ∀ name ∈ report.started, name ∉ before.activeServices ∧ ∃ service context,
    after.activeServices.lookup name = some service ∧
      .convert name context (.ok service.config) ∈ events
  only : ∀ name ∈ after.activeServices, name ∈ before.activeServices ∨ name ∈ report.started ∨
    name ∈ report.failures.map Prod.fst ∧ (isBlank name = true ∨ AnswerLost turns name events)
  seen : ∀ name context result, .convert name context result ∈ events → SeesDaemon after context

/-- **The report of a start is true of the daemon.** What was active stays as it was; what
is reported as started was not active, and is now, with the configuration that was made for
it; nothing else has become active, unless it is reported as a failure and its name is blank
or the answer to its own request was lost; and what a conversion knew of a service is what the daemon has on
record. -/
theorem session_reports {ord : HashOrder} {services : List String}
    {dialogue : Dialogue Request Answer Run}
    (hrun : run late processEnv cfg ord services = some dialogue) (world : ServiceManager σ × Nat)
    {report : Report}
    (hreport : (dialogue.exec (send rendering turns) world).2.report = some report) :
    Reported turns world.1 (dialogue.exec (send rendering turns) world).1.1
      (dialogue.exec (send rendering turns) world).2.events report := by
  unfold run at hrun
  split at hrun
  next ordered _ =>
    obtain rfl := Option.some.inj hrun
    rw [Dialogue.exec_map] at hreport ⊢
    have hloop := @loop_matches σ _ rendering turns late processEnv cfg world.1 ordered
      ⟨world.1, [], Start.initialState processEnv⟩ world.2 (matches_initial world.1 processEnv)
    dsimp only at hloop hreport ⊢
    generalize (startAllOver late processEnv cfg ordered (Start.initialState processEnv)).exec
      (send rendering turns) (world.1, world.2) = ended at hloop hreport ⊢
    obtain ⟨after, events, result⟩ := ended
    cases result with
    | error message => cases hreport
    | ok st =>
      obtain rfl := Option.some.inj hreport
      have h := hloop st rfl
      refine ⟨h.kept, ?_, ?_, h.seen⟩
      · exact h.started
      · intro name hname
        rcases h.only name hname with hbefore | hstarted | ⟨⟨e, hfailed⟩, hwhy⟩
        · exact .inl hbefore
        · exact .inr (.inl hstarted)
        · exact .inr (.inr ⟨List.mem_map.mpr ⟨(name, e), hfailed, rfl⟩, hwhy⟩)
  next =>
    obtain rfl := Option.some.inj hrun
    cases hreport
  next => cases hrun

/-- **A service is started on active dependencies.** Whenever the daemon is asked to start a
service, each of its dependencies is active at that moment, or its own conversion has failed
before the request. -/
theorem session_dependencies {valid : HashOrder}
    (hvalid : Parser.validateConfig valid cfg = .ok ()) {ord : HashOrder} {services : List String}
    {dialogue : Dialogue Request Answer Run}
    (hrun : run late processEnv cfg ord services = some dialogue)
    (world : ServiceManager σ × Nat) :
    ∀ step ∈ dialogue.steps (send rendering turns) world, ∀ name config,
      step.2 = .startService name config →
        AskedInOrder cfg (dialogue.exec (send rendering turns) world).2.events step.1.1 name
          config := by
  have hdeps := Parser.validateConfig_dependenciesExist hvalid
  unfold run at hrun
  split at hrun
  next ordered hsorted =>
    obtain rfl := Option.some.inj hrun
    intro step hstep name config hasked
    rw [Dialogue.steps_map] at hstep
    rw [Dialogue.exec_map, Start.summarize_events]
    exact loop_dependencies rendering late ordered []
      ⟨world.1, [], Start.initialState processEnv⟩ world.2
      (Dependencies.topologicalSort_before hdeps hsorted) (by simp) step hstep name config hasked
  next =>
    obtain rfl := Option.some.inj hrun
    intro step hstep
    cases hstep
  next => cases hrun

end Loop

/-! ## A daemon that nothing goes wrong with -/

/-- Errors without their sources, and times as they are. -/
def plainRendering : Rendering := ⟨fun _ => "", id⟩

/-- Every request is answered, and everything that it does succeeds. -/
def obligingTurn : Turn where
  outside :=
    { Orchestration.obliging with
      ord := HashOrder.stored
      statusFaults := fun _ => ServiceRegistry.Faults.none
      check := fun _ => Orchestration.obliging.run
      vars := ∅ }
  fate := .answered
  gone := ""

/-- A daemon that was just started, before its first turn. -/
def newDaemon : ServiceManager (ServiceRegistry.SledStore ServiceRegistry.Serde.numbered) × Nat :=
  (ServiceManager.withStateDir ServiceRegistry.SledStore.empty, 0)

/-- A new daemon, and a start of everything. -/
theorem session_reports_api : ∃ dialogue report,
    run (fun _ _ => 0) ∅ Stop.apiConfig HashOrder.stored [] = some dialogue ∧
      (dialogue.exec (send plainRendering fun _ => obligingTurn) newDaemon).2.report =
        some report ∧ report.started = ["db", "api"] ∧
      Reported (fun _ => obligingTurn) newDaemon.1
        (dialogue.exec (send plainRendering fun _ => obligingTurn) newDaemon).1.1
        (dialogue.exec (send plainRendering fun _ => obligingTurn) newDaemon).2.events report := by
  have hstarted : ((run (fun _ _ => 0) ∅ Stop.apiConfig HashOrder.stored []).bind fun dialogue =>
      (dialogue.exec (send plainRendering fun _ => obligingTurn) newDaemon).2.report).map
        Report.started = some ["db", "api"] := by
    decide +kernel
  obtain ⟨report, hbind, hreport⟩ := Option.map_eq_some_iff.mp hstarted
  obtain ⟨dialogue, hrun, hsummary⟩ := Option.bind_eq_some_iff.mp hbind
  exact ⟨dialogue, report, hrun, hsummary, hreport,
    session_reports plainRendering (fun _ _ => 0) hrun newDaemon hsummary⟩

/-- The same, for the order of the starts. -/
theorem session_dependencies_api : ∃ dialogue,
    run (fun _ _ => 0) ∅ Stop.apiConfig HashOrder.stored [] = some dialogue ∧
      ∀ step ∈ dialogue.steps (send plainRendering fun _ => obligingTurn) newDaemon,
        ∀ name config, step.2 = .startService name config → AskedInOrder Stop.apiConfig
          (dialogue.exec (send plainRendering fun _ => obligingTurn) newDaemon).2.events step.1.1
          name config := by
  have hvalid : Parser.validateConfig HashOrder.stored Stop.apiConfig = .ok () := by decide
  have hsome : (run (fun _ _ => 0) ∅ Stop.apiConfig HashOrder.stored []).isSome = true := by
    decide +kernel
  obtain ⟨dialogue, hrun⟩ := Option.isSome_iff_exists.mp hsome
  exact ⟨dialogue, hrun,
    session_dependencies plainRendering (fun _ _ => 0) hvalid hrun newDaemon⟩

end GraphHarness.StartSession
