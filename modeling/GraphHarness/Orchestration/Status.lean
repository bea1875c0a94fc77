import GraphHarness.Orchestration.Answers
import GraphHarness.ServiceRegistry.Serializer

/-!
# What the manager and the registry say about a service

A service is registered when it has been started, and its entry stays in the state
`Registered` from then on: nothing moves it to `Starting`, so that the registry
rejects the `Stopped` of a stop, and the entry of an earlier start is not replaced.

> `getServiceStatus_correct` — an inactive service is reported as stopped, whatever the
> registry has kept of it; an active one as its monitor has it.

The first statement is about any run over any backend that begins empty: `OnlyRegistered` is
the invariant of the entries, and the status of a service that is not active is asked of the
registry, which has nothing to say but `Registered`. The second one compares with what has
happened (`Started`, `LastStopped`): the registry is truthful at every point of a run exactly
if no start in it succeeds.

Faults of the storage come with the environment of a call, and are only logged by the manager.
-/

namespace GraphHarness.Orchestration

open ServiceRegistry (Registry RegistryBackend LawfulBackend ServiceEntry ServiceState Faults
  Serde SledStore entries)
open Trace

variable {σ : Type} [RegistryBackend σ] [LawfulBackend σ]

/-- All that is stored is registered and nothing more. -/
def OnlyRegistered (registry : Registry σ) : Prop :=
  ∀ name entry, registry.stored name = some entry → entry.state = .registered

/-- No stop gets through to the registry. -/
theorem updateState_stopped {registry : Registry σ} (h : OnlyRegistered registry)
    (faults : Faults) (name : String) (changedAt now : ServiceRegistry.Timestamp) :
    (registry.updateState faults name .stopped changedAt now).1 = registry := by
  refine Registry.updateState_rejected ?_ faults changedAt now
  intro entry hentry
  rw [h name entry hentry]
  rfl

namespace ServiceManager

/-- A stop changes no entry that is only registered. -/
theorem stopService_registry {manager : ServiceManager σ} (h : OnlyRegistered manager.registry)
    (env : Environment) (name : String) :
    (manager.stopService env name).1.registry = manager.registry := by
  cases hlookup : manager.activeServices.lookup name with
  | none => rw [stopService_absent hlookup]; rfl
  | some service =>
    rcases stopService_active hlookup env with ⟨_, hsame, _⟩ | ⟨_, _, _, _, hregistry⟩
    · exact hsame.1
    · rw [hregistry, updateState_stopped h]

/-- A call of the manager stores a registered entry under a free name, or nothing. -/
theorem stored_perform {manager : ServiceManager σ} (h : OnlyRegistered manager.registry)
    (request : Request) :
    (manager.perform request).1.registry.stored = manager.registry.stored ∨
      ∃ entry : ServiceEntry, entry.state = .registered ∧
        manager.registry.stored entry.name = none ∧
        (manager.perform request).1.registry.stored =
          Function.update manager.registry.stored entry.name (some entry) := by
  cases request with
  | start env name config =>
    show (manager.startService env name config).1.registry.stored = _ ∨ ∃ entry, _ ∧ _ ∧
      (manager.startService env name config).1.registry.stored = _
    rcases manager.startService_cases env name config with
      ⟨hsame, _⟩ | ⟨after, service, _, hlaunched, hcases⟩
    · left
      rw [hsame.1]
    · rcases hcases with ⟨_, hstart⟩ | ⟨_, entry, _, _, hstate, hstart⟩
      · left
        rw [hstart]
        show after.registry.stored = _
        rw [hlaunched.sameStores.1]
      · rw [hstart]
        exact (manager.registry.stored_register env.faults entry env.later).imp id
          fun hstored => ⟨entry, hstate, hstored⟩
  | stop env name =>
    left
    show (manager.stopService env name).1.registry.stored = _
    rw [stopService_registry h]
  | runHealthChecks run => exact .inl rfl
  | recreate => exact .inl rfl

/-- One request keeps all entries registered. -/
theorem onlyRegistered_perform (manager : ServiceManager σ) (request : Request)
    (h : OnlyRegistered manager.registry) :
    OnlyRegistered (manager.perform request).1.registry := by
  intro name stored hstored
  rcases stored_perform h request with hsame | ⟨entry, hstate, _, hupdate⟩
  · rw [hsame] at hstored
    exact h name stored hstored
  · rw [hupdate] at hstored
    by_cases hname : name = entry.name
    · subst hname
      rw [Function.update_self] at hstored
      obtain rfl := Option.some.inj hstored
      exact hstate
    · rw [Function.update_of_ne hname] at hstored
      exact h name stored hstored

/-- So does any run. -/
theorem onlyRegistered_after {backend : σ} (hempty : entries backend = fun _ => none)
    (requests : List Request) :
    OnlyRegistered (after perform (withStateDir backend) requests).registry := by
  refine after_invariant (fun manager : ServiceManager σ => OnlyRegistered manager.registry)
    onlyRegistered_perform ?_
  intro name entry hstored
  rw [show (withStateDir backend).registry.stored name = none from congrFun hempty name] at hstored
  exact absurd hstored (by simp)

/-- No call changes an entry that is stored. -/
theorem stored_kept {manager : ServiceManager σ} (h : OnlyRegistered manager.registry)
    {name : String} {entry : ServiceEntry} (hstored : manager.registry.stored name = some entry)
    (request : Request) : (manager.perform request).1.registry.stored name = some entry := by
  rcases stored_perform h request with hsame | ⟨entry', _, hfree, hupdate⟩
  · rw [hsame]
    exact hstored
  · have hname : name ≠ entry'.name := by
      intro heq
      rw [← heq, hstored] at hfree
      cases hfree
    rw [hupdate, Function.update_of_ne hname]
    exact hstored

/-- What the registry says of a service is what it was told at the first start. -/
theorem stored_after {backend : σ} (hempty : entries backend = fun _ => none)
    (earlier later : List Request) {name : String} {entry : ServiceEntry}
    (hstored : (after perform (withStateDir backend) earlier).registry.stored name = some entry) :
    (after perform (withStateDir backend) (earlier ++ later)).registry.stored name =
      some entry := by
  rw [after_append]
  refine (after_invariant (fun manager : ServiceManager σ =>
    OnlyRegistered manager.registry ∧ manager.registry.stored name = some entry) ?_
    ⟨onlyRegistered_after hempty earlier, hstored⟩).2
  intro manager request hmanager
  exact ⟨onlyRegistered_perform manager request hmanager.1,
    stored_kept hmanager.1 hmanager.2 request⟩

/-! ## The status of a service -/

/-- The monitor under the name of the service has seen it unhealthy last. -/
def SeenUnhealthy (manager : ServiceManager σ) (name : String) : Prop :=
  ∃ monitor message, manager.healthMonitors.lookup name = some monitor ∧
    monitor.lastStatus = .unhealthy message

omit [RegistryBackend σ] [LawfulBackend σ] in
/-- A service that is not active is stopped. -/
theorem activeStatus_inactive {manager : ServiceManager σ} {name : String}
    (h : name ∉ manager.activeServices) : manager.activeStatus name = .stopped := by
  unfold activeStatus
  rw [AList.lookup_eq_none.mpr h]

omit [RegistryBackend σ] [LawfulBackend σ] in
/-- A service that is active is unhealthy or running, as its monitor has seen it. -/
theorem activeStatus_active {manager : ServiceManager σ} {name : String}
    (h : name ∈ manager.activeServices) :
    manager.activeStatus name = .unhealthy ∧ manager.SeenUnhealthy name ∨
      manager.activeStatus name = .running ∧ ¬ manager.SeenUnhealthy name := by
  obtain ⟨service, hservice⟩ := Option.isSome_iff_exists.mp (AList.lookup_isSome.mpr h)
  unfold activeStatus SeenUnhealthy
  rw [hservice]
  cases hmonitor : manager.healthMonitors.lookup name with
  | none => simp
  | some monitor =>
    cases hstatus : monitor.lastStatus with
    | healthy => simp [hstatus]
    | unhealthy message => simp [hstatus]
    | unknown => simp [hstatus]

/-- The registry is asked first, and its answer makes no difference. -/
theorem getServiceStatus_eq {manager : ServiceManager σ} (h : OnlyRegistered manager.registry)
    (faults : Faults) (name : String) :
    manager.getServiceStatus faults name = manager.activeStatus name := by
  unfold getServiceStatus
  split
  next entry hget =>
    split
    next => rfl
    next hactive =>
      rw [h name entry (Registry.stored_of_get hget), activeStatus_inactive hactive]
  next => rfl

/-- After any calls, and over any number of managers on one state directory, a service
is reported as stopped where it is not active, as unhealthy where its monitor has seen
it so, and as running otherwise. -/
theorem getServiceStatus_correct {backend : σ} (hempty : entries backend = fun _ => none)
    (requests : List Request) (faults : Faults) (name : String) :
    let manager := after perform (withStateDir backend) requests
    (manager.getServiceStatus faults name = .stopped ↔ name ∉ manager.activeServices) ∧
      (manager.getServiceStatus faults name = .unhealthy ↔
        name ∈ manager.activeServices ∧ manager.SeenUnhealthy name) ∧
      (manager.getServiceStatus faults name = .running ↔
        name ∈ manager.activeServices ∧ ¬ manager.SeenUnhealthy name) := by
  intro manager
  rw [getServiceStatus_eq (onlyRegistered_after hempty requests)]
  by_cases hactive : name ∈ manager.activeServices
  · rcases activeStatus_active hactive with ⟨hstatus, hseen⟩ | ⟨hstatus, hseen⟩
    · rw [hstatus]
      simp [hactive, hseen]
    · rw [hstatus]
      simp [hactive, hseen]
  · rw [activeStatus_inactive hactive]
    simp [hactive]

/-- A web server whose check has failed. -/
theorem getServiceStatus_correct_web :
    let manager := after perform (withStateDir (SledStore.empty : SledStore Serde.numbered))
      [.start obliging "web" (webContainer none), .stop unable "web", .recreate]
    (manager.getServiceStatus Faults.none "web" = .stopped ↔ "web" ∉ manager.activeServices) ∧
      (manager.getServiceStatus Faults.none "web" = .unhealthy ↔
        "web" ∈ manager.activeServices ∧ manager.SeenUnhealthy "web") ∧
      (manager.getServiceStatus Faults.none "web" = .running ↔
        "web" ∈ manager.activeServices ∧ ¬ manager.SeenUnhealthy "web") :=
  getServiceStatus_correct (funext SledStore.entries_empty)
    [.start obliging "web" (webContainer none), .stop unable "web", .recreate] Faults.none "web"

/-! ## The registry and the manager -/

/-- Some start of the name has returned a service. -/
def Started (past : List (Request × Reply)) (name : String) : Prop :=
  ∃ env config service, (.start env name config, .started (.ok service)) ∈ past

/-- The last call for the name that succeeded was a stop. -/
def LastStopped (past : List (Request × Reply)) (name : String) : Prop :=
  ∃ earlier env later, past = earlier ++ (.stop env name, .stopped (.ok ())) :: later ∧
    ¬ Started later name

/-- The entry of a service is in a state. -/
def HasState (manager : ServiceManager σ) (name : String) (state : ServiceState) : Prop :=
  ∃ entry, manager.registry.stored name = some entry ∧ entry.state = state

/-- The registry says of every service that was started what the manager knows of it. -/
def Truthful (manager : ServiceManager σ) (past : List (Request × Reply)) : Prop :=
  ∀ name, Started past name →
    (manager.HasState name .running ↔ name ∈ manager.activeServices) ∧
    (manager.HasState name .stopped ↔ LastStopped past name) ∧
    ∀ service, manager.activeServices.lookup name = some service →
      ∃ entry, manager.registry.stored name = some entry ∧
        entry.execution = executionInfo name service.config service

/-- The registry is right after every call of a run that succeeds. -/
def AlwaysTruthful (manager : ServiceManager σ) (requests : List Request) : Prop :=
  ∀ earlier request later, requests = earlier ++ request :: later →
    (perform (after perform manager earlier) request).2.isOk = true →
      Truthful (after perform manager (earlier ++ [request]))
        (history perform manager (earlier ++ [request]))

/-- Once a service was started the registry is wrong about it. -/
theorem not_truthful {manager : ServiceManager σ} (h : OnlyRegistered manager.registry)
    {past : List (Request × Reply)} {name : String} (hstarted : Started past name)
    (hactive : name ∈ manager.activeServices) : ¬ Truthful manager past := by
  intro htruthful
  obtain ⟨entry, hentry, hstate⟩ := (htruthful name hstarted).1.mpr hactive
  rw [h name entry hentry] at hstate
  cases hstate

omit [LawfulBackend σ] in
/-- A start that succeeds leaves the service active. -/
theorem startService_active_of_ok {manager : ServiceManager σ} {env : Environment}
    {name : String} {config : ServiceConfig} {service : RunningService}
    (h : (manager.startService env name config).2 = .ok service) :
    name ∈ (manager.startService env name config).1.activeServices := by
  rcases manager.startService_cases env name config with ⟨_, hnone⟩ | ⟨after, started, _, _, hcases⟩
  · exact absurd h (hnone service)
  · rcases hcases with ⟨_, hstart⟩ | ⟨_, _, _, _, _, hstart⟩
    · rw [hstart]
      exact (AList.mem_insert _).mpr (.inl rfl)
    · rw [hstart]
      exact (AList.mem_insert _).mpr (.inl rfl)

/-- The registry is right after every call that succeeds exactly if no start in the run
returns a service: none finds its name free and not blank and has an executor that can
start it. -/
theorem alwaysTruthful_iff {backend : σ} (hempty : entries backend = fun _ => none)
    (requests : List Request) :
    AlwaysTruthful (withStateDir backend) requests ↔
      ∀ earlier env name config later, requests = earlier ++ .start env name config :: later →
        ¬ (name ∉ (after perform (withStateDir backend) earlier).activeServices ∧
          isBlank name = false ∧ env.Starts config) := by
  constructor
  · intro h earlier env name config later hrequests hstarts
    obtain ⟨service, hok⟩ := (startService_ok_iff _ env name config).mpr hstarts
    have htruthful := h earlier _ later hrequests
      (show Reply.isOk (.started (startService _ env name config).2) = true by rw [hok]; rfl)
    have hstarted : Started (history perform (withStateDir backend)
        (earlier ++ [.start env name config])) name := by
      refine ⟨env, config, service, ?_⟩
      rw [history_append]
      refine List.mem_append_right _ (List.mem_singleton.mpr ?_)
      show _ = (_, Reply.started (startService _ env name config).2)
      rw [hok]
    refine not_truthful (onlyRegistered_after hempty _) hstarted ?_ htruthful
    rw [after_append]
    exact startService_active_of_ok hok
  · intro h earlier request later hrequests _ name hstarted
    obtain ⟨env, config, service, hmem⟩ := hstarted
    obtain ⟨before, rest, hsplit, hreply⟩ := mem_history hmem
    have hok := Reply.started.inj hreply
    refine absurd ((startService_ok_iff _ env name config).mp ⟨service, hok.symm⟩)
      (h before env name config (rest ++ later) ?_)
    rw [hrequests, ← List.singleton_append, ← List.append_assoc, hsplit, List.append_assoc]
    rfl

/-- A web server, started and stopped. -/
theorem alwaysTruthful_iff_web :
    ¬ AlwaysTruthful (withStateDir (SledStore.empty : SledStore Serde.numbered))
      [.start obliging "web" (webProcess none), .stop obliging "web"] := by
  intro h
  refine (alwaysTruthful_iff (funext SledStore.entries_empty) _).mp h [] obliging "web"
    (webProcess none) [.stop obliging "web"] rfl ⟨?_, rfl, ⟨_, rfl⟩⟩
  exact AList.notMem_empty "web"

/-- The web server has been started, and is only registered. -/
theorem web_not_truthful :
    ¬ AlwaysTruthful (withStateDir (SledStore.empty : SledStore Serde.numbered))
      [.start obliging "web" (webProcess none)] := by
  intro h
  have hstarted : Started (history perform
      (withStateDir (SledStore.empty : SledStore Serde.numbered))
      [.start obliging "web" (webProcess none)]) "web" :=
    ⟨obliging, webProcess none, _, List.mem_singleton.mpr rfl⟩
  exact not_truthful (onlyRegistered_after (funext SledStore.entries_empty) _) hstarted
    (AList.lookup_isSome.mp rfl) (h [] _ [] rfl rfl)

end ServiceManager

end GraphHarness.Orchestration
