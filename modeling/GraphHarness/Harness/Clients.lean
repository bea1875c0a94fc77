import GraphHarness.Harness.StartSessionReport
import GraphHarness.Harness.StopSession
import GraphHarness.Orchestration.Tracking

/-!
# The clients of one configuration

Any number of clients that start and stop services of one configuration, their requests in
any order, with whatever becomes of each.

> `Reached`: the daemon has had only such requests.

Every command keeps to them (`start_asks`, `stop_asks`), and after them the active services
have the configurations that were made for them (`Reached.conforms`).

A world is reached by one request after the other, each of which may be lost or answered,
after whatever happens outside; `Reached.exec` adds a whole dialogue of which each request for
a start was converted from the configuration (`Asks`). So the two commands are covered, and
any other client that keeps to converted configurations.

The environment of the clients may differ from one to the other, and so may what they have
resolved; `Converts` asks for a conversion in some context. The daemon handles one request at
a time here. What is left of the statements when requests overlap is in `Harness.Connections`.
-/

namespace GraphHarness.Clients

open Handlers (Rendering)
open Orchestration (RunningService ServiceManager)
open Protocol (Answer Request)
open ServiceRegistry (RegistryBackend)
open Session (Turn send)
open Trace (Dialogue)

/-- A request to start a service is for its conversion, whatever is known of the others. -/
def Converts (cfg : Config) (request : Request) : Prop :=
  ∀ name config, request = .startService name config → ∃ processEnv context,
    Parser.convertToOrchestratorWithContext processEnv cfg name context = .ok config

/-! ## What the commands ask for -/

/-- A request for a status asks for no conversion. -/
theorem converts_of_status {cfg : Config} {request : Request}
    (h : StartSession.AsksStatus request) : Converts cfg request := by
  intro name config hasked
  obtain ⟨other, hother⟩ := h
  cases hother.symm.trans hasked

section Start

open StartSession (startOneOver startAllOver)

variable (late : String → Nat → Nat) {processEnv : HashMap String String} {cfg : Config}

/-- Starting one service asks for its own conversion. -/
theorem startOneOver_asks (name : String) (st : Start.State) :
    (startOneOver late processEnv cfg name st).Asks (Converts cfg) := by
  unfold startOneOver
  cases hlookup : cfg.services.lookup name with
  | none => trivial
  | some service =>
    dsimp only
    split
    next => trivial
    next config hconverted =>
      refine ⟨?_, ?_⟩
      · intro asked config' hasked
        obtain ⟨rfl, rfl⟩ := Request.startService.inj hasked
        exact ⟨processEnv, _, hconverted⟩
      · intro answer
        refine Dialogue.asks_map _ (Dialogue.asks_ite ?_ trivial)
        exact (StartSession.healthWait_asks (late name) name service).imp
          fun _ => converts_of_status

/-- So do the starts one after the other. -/
theorem startAllOver_asks : ∀ (names : List String) (st : Start.State),
    (startAllOver late processEnv cfg names st).Asks (Converts cfg) := by
  intro names
  induction names with
  | nil => intro st; trivial
  | cons name names ih =>
    intro st
    refine Dialogue.asks_bind (startOneOver_asks late name st) ?_
    rintro ⟨events, st', control⟩
    cases control with
    | next => exact Dialogue.asks_map _ (ih st')
    | stop => trivial
    | fail message => trivial

/-- `harness start` asks only for configurations converted from the file. -/
theorem start_asks {ord : HashOrder} {services : List String}
    {dialogue : Dialogue Request Answer Start.Run}
    (hrun : StartSession.run late processEnv cfg ord services = some dialogue) :
    dialogue.Asks (Converts cfg) := by
  unfold StartSession.run at hrun
  split at hrun
  next ordered _ =>
    obtain rfl := Option.some.inj hrun
    exact Dialogue.asks_map _ (startAllOver_asks late ordered _)
  next =>
    obtain rfl := Option.some.inj hrun
    trivial
  next => cases hrun

end Start

section Stop

open StopSession (stopOneOver stopAllOver)

variable (late : String → Nat → Nat) (cfg : Config) (force : Bool) (timeout : Option UInt64)

/-- The wait asks for statuses only. -/
theorem waitForStop_asks (late : Nat → Nat) (name : String) (timeout : Nat) :
    ∀ (rounds k : Nat),
      (StopSession.waitForStop late name timeout rounds k).Asks StartSession.AsksStatus := by
  intro rounds
  induction rounds with
  | zero => intro k; trivial
  | succ rounds ih =>
    intro k
    rw [StopSession.waitForStop]
    refine Dialogue.asks_ite trivial ⟨⟨name, rfl⟩, ?_⟩
    intro answer
    dsimp only
    split
    next => trivial
    next => exact Dialogue.asks_map _ (ih (k + 1))
    next => trivial

/-- So does the end of a stop. -/
theorem stopWait_asks (late : Nat → Nat) (name : String) (timeout : Option UInt64)
    (answer : Answer) :
    (StopSession.stopWait late name timeout answer).Asks StartSession.AsksStatus := by
  unfold StopSession.stopWait
  split
  next =>
    split
    next => exact waitForStop_asks late name _ _ 0
    next => trivial
  next => trivial

/-- The stops ask for no conversion at all. -/
theorem stopAllOver_asks : ∀ (names : List String) (failures : List (String × String)),
    (stopAllOver late cfg force timeout names failures).Asks (Converts cfg) := by
  intro names
  induction names with
  | nil => intro failures; trivial
  | cons name names ih =>
    intro failures
    refine Dialogue.asks_bind ?_ ?_
    · unfold stopOneOver
      refine Dialogue.asks_ite ⟨?_, ?_⟩ trivial
      · intro asked config hasked
        cases hasked
      · intro answer
        exact Dialogue.asks_map _ ((stopWait_asks (late name) name timeout answer).imp
          fun _ => converts_of_status)
    · rintro ⟨events, failures', control⟩
      cases control with
      | next => exact Dialogue.asks_map _ (ih failures')
      | stop => trivial

/-- Neither does `harness stop`. -/
theorem stop_asks (ordAffected ordStop : HashOrder) (services : List String)
    (input : Except String String) :
    (StopSession.run late cfg force timeout ordAffected ordStop services input).Asks
      (Converts cfg) := by
  refine ⟨?_, ?_⟩
  · intro name config hasked
    cases hasked
  · intro answer
    dsimp only
    split
    next => trivial
    next => trivial
    next => trivial
    next ordered _ => exact Dialogue.asks_map _ (stopAllOver_asks late cfg force timeout ordered [])

end Stop

/-! ## What the daemon has after it -/

section Daemon

variable {σ : Type} [RegistryBackend σ] {cfg : Config}

/-- Every service has the configuration that was made for its name. -/
def AllMade (cfg : Config) (services : HashMap String RunningService) : Prop :=
  ∀ name service, services.lookup name = some service → ∃ processEnv context,
    Parser.convertToOrchestratorWithContext processEnv cfg name context = .ok service.config

/-- A service that takes the place of its name. -/
theorem AllMade.insert {services : HashMap String RunningService} (h : AllMade cfg services)
    {name : String} {service : RunningService} (hmade : ∃ processEnv context,
      Parser.convertToOrchestratorWithContext processEnv cfg name context = .ok service.config) :
    AllMade cfg (services.insert name service) := by
  intro other found hfound
  by_cases hname : other = name
  · subst hname
    rw [AList.lookup_insert] at hfound
    obtain rfl := Option.some.inj hfound
    exact hmade
  · rw [AList.lookup_insert_ne hname] at hfound
    exact h other found hfound

/-- A service taken out leaves the others as they were made. -/
theorem AllMade.erase {services : HashMap String RunningService} (h : AllMade cfg services)
    (name : String) : AllMade cfg (services.erase name) := by
  intro other found hfound
  have hname : other ≠ name := by
    rintro rfl
    rw [AList.lookup_erase] at hfound
    cases hfound
  rw [AList.lookup_erase_ne hname] at hfound
  exact h other found hfound

/-- Every active service has the configuration that was made for it. -/
def Conforms (cfg : Config) (manager : ServiceManager σ) : Prop :=
  AllMade cfg manager.activeServices

omit [RegistryBackend σ] in
/-- What is active is declared. -/
theorem Conforms.mem {manager : ServiceManager σ} (h : Conforms cfg manager) {name : String}
    (hname : name ∈ manager.activeServices) : name ∈ cfg.services := by
  obtain ⟨service, hservice⟩ := Option.isSome_iff_exists.mp (AList.lookup_isSome.mpr hname)
  obtain ⟨processEnv, context, hconverted⟩ := h name service hservice
  by_contra hunknown
  rw [Parser.convertToOrchestratorWithContext, AList.lookup_eq_none.mpr hunknown] at hconverted
  cases hconverted

omit [RegistryBackend σ] in
/-- A new manager. -/
theorem conforms_new (cfg : Config) (backend : σ) :
    Conforms cfg (ServiceManager.withStateDir backend) := by
  intro name service hservice
  cases hservice

/-- What one request keeps. -/
theorem conforms_send (rendering : Rendering) (turns : Nat → Turn)
    {world : ServiceManager σ × Nat} {request : Request} (hrequest : Converts cfg request)
    (h : Conforms cfg world.1) : Conforms cfg (send rendering turns world request).1.1 := by
  unfold Conforms
  cases request with
  | startService asked config =>
    rcases Session.send_start rendering turns world asked config with
      ⟨hactive, _⟩ | ⟨started, _, hconfig, hactive, _⟩
    · rw [hactive]
      exact h
    · rw [hactive]
      exact AllMade.insert h (hconfig ▸ hrequest asked config rfl)
  | stopService asked =>
    rcases Session.send_stop rendering turns world asked with
      ⟨hactive, _⟩ | ⟨_, hactive, _⟩
    · rw [hactive]
      exact AllMade.erase h asked
    · rw [hactive]
      exact h
  | runHealthChecks =>
    rw [Session.send_runHealthChecks]
    exact h
  | _ =>
    rw [Session.send_reads rendering turns world fun _ => rfl]
    exact h

/-- The states of a daemon that has been asked for conversions of the configuration only. -/
inductive Reached (cfg : Config) : ServiceManager σ × Nat → Prop where
  | new (backend : σ) (n : Nat) : Reached cfg (ServiceManager.withStateDir backend, n)
  | request {world : ServiceManager σ × Nat} (rendering : Rendering) (turns : Nat → Turn)
      {request : Request} (hrequest : Converts cfg request) (hworld : Reached cfg world) :
      Reached cfg (send rendering turns world request).1

variable {world : ServiceManager σ × Nat}

/-- What a whole command keeps. -/
theorem Reached.exec {ρ : Type} {dialogue : Dialogue Request Answer ρ}
    (hasks : dialogue.Asks (Converts cfg)) (rendering : Rendering) (turns : Nat → Turn)
    (h : Reached cfg world) : Reached cfg (dialogue.exec (send rendering turns) world).1 := by
  refine Dialogue.exec_invariant (Reached cfg) ?_ hasks h
  intro world' request hrequest hworld
  exact .request rendering turns hrequest hworld

/-- The active services are as the file declares them. -/
theorem Reached.conforms (h : Reached cfg world) : Conforms cfg world.1 := by
  induction h with
  | new backend n => exact conforms_new cfg backend
  | request rendering turns hrequest _ ih => exact conforms_send rendering turns hrequest ih

/-- The accounts of the manager are in order. -/
theorem Reached.tracked (h : Reached cfg world) : world.1.Tracked := by
  induction h with
  | new backend n => exact ServiceManager.tracked_withStateDir backend
  | request rendering turns _ _ ih =>
    exact Session.send_invariant rendering turns _ ServiceManager.tracked_perform _ ih

end Daemon

/-- A daemon that has been asked to start everything, and nothing has gone wrong. -/
def startedDaemon (cfg : Config) :
    ServiceManager (ServiceRegistry.SledStore ServiceRegistry.Serde.numbered) × Nat :=
  match StartSession.run (fun _ _ => 0) ∅ cfg HashOrder.stored [] with
  | some dialogue =>
    (dialogue.exec (send StartSession.plainRendering fun _ => StartSession.obligingTurn)
      StartSession.newDaemon).1
  | none => StartSession.newDaemon

/-- A daemon that was just started. -/
theorem reached_startedDaemon (cfg : Config) : Reached cfg (startedDaemon cfg) := by
  unfold startedDaemon
  split
  next dialogue hrun => exact (Reached.new _ _).exec (start_asks _ hrun) _ _
  next => exact .new _ _

end GraphHarness.Clients
