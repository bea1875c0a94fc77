import GraphHarness.Orchestration.Answers
import GraphHarness.ServiceRegistry.Serializer

/-!
# Monitors and services

A start makes a monitor where the service has a health check, and a stop removes it. A
stop that fails has already taken the service out of the active ones and leaves the
monitor; where the name is started again without a health check, it is the monitor of
the new service.

> `monitorsTrack_iff` — the monitors are those of the active services at every point of
> a run **exactly if no stop in it fails for an active service with a health check**.

`Tracks` is the invariant, stated over lookups: a name has a monitor exactly if its active
service has a health check, and then for the configuration of that check. A start keeps it
whatever it comes to, and a health check never changes whose monitor it is (`record_config`).
The other direction is that a stop that fails for a watched service breaks it at once
(`not_tracks_stop`).
-/

namespace GraphHarness.Orchestration

open ServiceRegistry (RegistryBackend Serde SledStore)
open Trace

namespace ServiceManager

variable {σ : Type} [RegistryBackend σ]

omit [RegistryBackend σ] in
/-- There is a monitor for every active service with a health check, and no other, and
its configuration is that health check. -/
def Tracks (manager : ServiceManager σ) : Prop :=
  ∀ name, (manager.healthMonitors.lookup name).map HealthMonitor.config =
    (manager.activeServices.lookup name).bind fun service => service.config.healthCheck

/-- Also what follows from it: the health checks report the active services with a health
check, and a service that is started has a new monitor or none. -/
structure MonitorsTrack (manager : ServiceManager σ) : Prop where
  tracks : manager.Tracks
  reported : ∀ run name, name ∈ (manager.runHealthChecks run).2 ↔
    ∃ service, manager.activeServices.lookup name = some service ∧
      service.config.healthCheck ≠ none
  started : ∀ env name config service,
    (manager.startService env name config).2 = .ok service →
      (manager.startService env name config).1.healthMonitors.lookup name =
        config.healthCheck.map HealthMonitor.new

omit [RegistryBackend σ] in
/-- There is a monitor if and only if the active service has a health check. -/
theorem Tracks.isSome {manager : ServiceManager σ} (h : manager.Tracks) (name : String) :
    (manager.healthMonitors.lookup name).isSome = true ↔
      ∃ service, manager.activeServices.lookup name = some service ∧
        service.config.healthCheck ≠ none := by
  have hname := congrArg Option.isSome (h name)
  rw [Option.isSome_map] at hname
  rw [hname]
  cases manager.activeServices.lookup name with
  | none => simp
  | some service => simp [Option.isSome_iff_ne_none]

omit [RegistryBackend σ] in
/-- A service that is not active has none. -/
theorem Tracks.absent {manager : ServiceManager σ} (h : manager.Tracks) {name : String}
    (hname : name ∉ manager.activeServices) : manager.healthMonitors.lookup name = none := by
  have hlookup := h name
  rw [AList.lookup_eq_none.mpr hname] at hlookup
  exact Option.map_eq_none_iff.mp hlookup

omit [RegistryBackend σ] in
/-- The monitors after a service was stored under a free name. -/
theorem lookup_store {manager : ServiceManager σ} {name : String}
    (hfree : manager.healthMonitors.lookup name = none) (config : ServiceConfig)
    (service : RunningService) (other : String) :
    (manager.store name config service).healthMonitors.lookup other =
      if other = name then config.healthCheck.map HealthMonitor.new
      else manager.healthMonitors.lookup other := by
  unfold store
  by_cases hother : other = name
  · subst hother
    cases config.healthCheck with
    | none => simp [hfree]
    | some healthCheck => simp
  · cases config.healthCheck with
    | none => simp [hother]
    | some healthCheck => simp [hother, AList.lookup_insert_ne hother]

/-- Where the monitors are those of the active services a start stores a service and its
monitor, or changes neither. -/
theorem startService_monitors {manager : ServiceManager σ} (h : manager.Tracks)
    (env : Environment) (name : String) (config : ServiceConfig) :
    ((manager.startService env name config).1.activeServices = manager.activeServices ∧
      (manager.startService env name config).1.healthMonitors = manager.healthMonitors ∧
      ∀ service, (manager.startService env name config).2 ≠ .ok service) ∨
    ∃ service, service.config = config ∧
      (manager.startService env name config).1.activeServices =
        manager.activeServices.insert name service ∧
      ∀ other, (manager.startService env name config).1.healthMonitors.lookup other =
        if other = name then config.healthCheck.map HealthMonitor.new
        else manager.healthMonitors.lookup other := by
  rcases manager.startService_cases env name config with
    ⟨hsame, hnone⟩ | ⟨after, service, hfree, hlaunched, hcases⟩
  · exact .inl ⟨hsame.2.1, hsame.2.2, hnone⟩
  · right
    obtain ⟨_, hactive, hmonitors⟩ := hlaunched.sameStores
    have hlookup : after.healthMonitors.lookup name = none := by
      rw [hmonitors]
      exact h.absent hfree
    refine ⟨service, hlaunched.config, ?_⟩
    have hstored := lookup_store hlookup config service
    rw [hmonitors] at hstored
    rcases hcases with ⟨_, hstart⟩ | ⟨_, entry, _, _, _, hstart⟩
    · rw [hstart, ← hactive]
      exact ⟨rfl, hstored⟩
    · rw [hstart, ← hactive]
      exact ⟨rfl, hstored⟩

/-- The statement over the fields of the manager. -/
theorem monitorsTrack {manager : ServiceManager σ} (h : manager.Tracks) :
    MonitorsTrack manager where
  tracks := h
  reported := by
    intro run name
    rw [← AList.lookup_isSome, (manager.runHealthChecks_lookup run name).2, Option.isSome_map]
    exact h.isSome name
  started := by
    intro env name config service hok
    rcases startService_monitors h env name config with ⟨_, _, hnone⟩ | ⟨_, _, _, hlookup⟩
    · exact absurd hok (hnone service)
    · rw [hlookup, if_pos rfl]

/-- A stop of an active service with a health check gets through its executor. -/
def StopsWatched (manager : ServiceManager σ) : Request → Prop
  | .stop env name => ∀ service, manager.activeServices.lookup name = some service →
      service.config.healthCheck ≠ none → env.Stops manager.runningProcesses service
  | _ => True

/-- A start keeps that. -/
theorem tracks_start {manager : ServiceManager σ} (h : manager.Tracks) (env : Environment)
    (name : String) (config : ServiceConfig) :
    (manager.startService env name config).1.Tracks := by
  intro other
  rcases startService_monitors h env name config with
    ⟨hactive, hmonitors, _⟩ | ⟨service, hconfig, hactive, hlookup⟩
  · rw [hactive, hmonitors]
    exact h other
  · rw [hactive, hlookup]
    by_cases hother : other = name
    · subst hother
      rw [if_pos rfl, AList.lookup_insert, Option.bind_some, hconfig, Option.map_map]
      exact Option.map_id' ..
    · rw [if_neg hother, AList.lookup_insert_ne hother]
      exact h other

/-- A stop keeps that, where the service is stopped with its monitor. -/
theorem tracks_stop {manager : ServiceManager σ} (h : manager.Tracks) {env : Environment}
    {name : String} (hstops : manager.StopsWatched (.stop env name)) :
    (manager.stopService env name).1.Tracks := by
  intro other
  cases hlookup : manager.activeServices.lookup name with
  | none =>
    rw [stopService_absent hlookup]
    have habsent := AList.lookup_eq_none.mp hlookup
    show _ = (AList.lookup other (manager.activeServices.erase name)).bind _
    rw [HashMap.erase_absent habsent]
    exact h other
  | some service =>
    rcases stopService_active hlookup env with
      ⟨hhalts, ⟨_, hactive, hmonitors⟩, _⟩ | ⟨_, _, hactive, hmonitors, _⟩
    · -- the service has no health check, and so no monitor
      have hcheck : service.config.healthCheck = none := by
        by_contra hcheck
        exact hhalts ((halts_iff ..).mpr (hstops service hlookup hcheck))
      rw [hactive, hmonitors]
      show _ = (AList.lookup other (manager.activeServices.erase name)).bind _
      by_cases hother : other = name
      · subst hother
        rw [AList.lookup_erase, Option.bind_none]
        have hname := h other
        rw [hlookup, Option.bind_some, hcheck] at hname
        exact hname
      · rw [AList.lookup_erase_ne hother]
        exact h other
    · rw [hactive, hmonitors]
      by_cases hother : other = name
      · subst hother
        rw [AList.lookup_erase, AList.lookup_erase]
        rfl
      · rw [AList.lookup_erase_ne hother, AList.lookup_erase_ne hother]
        exact h other

omit [RegistryBackend σ] in
/-- A check does not change the configuration of its monitor. -/
theorem record_config (monitor : HealthMonitor) (result : Except String HealthStatus) :
    (monitor.record result).1.config = monitor.config := by
  cases result with
  | error message => rfl
  | ok status =>
    cases status with
    | healthy => rfl
    | unhealthy message => rfl
    | unknown => rfl

/-- One request keeps that. -/
theorem tracks_perform (manager : ServiceManager σ) (request : Request) (h : manager.Tracks)
    (hstops : manager.StopsWatched request) : (manager.perform request).1.Tracks := by
  cases request with
  | start env name config => exact tracks_start h env name config
  | stop env name => exact tracks_stop h hstops
  | runHealthChecks run =>
    intro name
    show (AList.lookup name (manager.runHealthChecks run).1.healthMonitors).map _ = _
    rw [(manager.runHealthChecks_lookup run name).1, Option.map_map]
    have hconfig : (HealthMonitor.config ∘ fun m => (checked run name m).1) =
        HealthMonitor.config := by
      funext monitor
      exact record_config monitor _
    rw [hconfig]
    exact h name
  | recreate =>
    intro name
    rfl

/-- The monitor stays where such a stop fails. -/
theorem not_tracks_stop {manager : ServiceManager σ} (h : manager.Tracks) {env : Environment}
    {name : String} (hstops : ¬ manager.StopsWatched (.stop env name)) :
    ¬ (manager.stopService env name).1.Tracks := by
  intro htracks
  apply hstops
  intro service hlookup hcheck
  by_contra hfails
  rcases stopService_active hlookup env with ⟨_, ⟨_, hactive, hmonitors⟩, _⟩ | ⟨hhalts, _⟩
  · have hmonitor : (manager.healthMonitors.lookup name).isSome = true :=
      (h.isSome name).mpr ⟨service, hlookup, hcheck⟩
    rw [show manager.healthMonitors = _ from hmonitors.symm, htracks.isSome name,
      hactive] at hmonitor
    obtain ⟨stopped, hstopped, _⟩ := hmonitor
    rw [show AList.lookup name (manager.deactivate name).activeServices = none from
      AList.lookup_erase ..] at hstopped
    cases hstopped
  · exact hfails ((halts_iff ..).mp hhalts)

/-- The monitors are those of the active services at every point of a run exactly if
every stop of an active service with a health check gets through its executor. -/
theorem monitorsTrack_iff (backend : σ) (requests : List Request) :
    (∀ earlier later, requests = earlier ++ later →
      MonitorsTrack (after perform (withStateDir backend) earlier)) ↔
    ∀ earlier request later, requests = earlier ++ request :: later →
      (after perform (withStateDir backend) earlier).StopsWatched request := by
  have hbreak : ∀ (manager : ServiceManager σ) (request : Request), manager.Tracks →
      MonitorsTrack (manager.perform request).1 → manager.StopsWatched request := by
    intro manager request hbefore hafter
    cases request with
    | stop env name =>
      by_contra hstops
      exact not_tracks_stop hbefore hstops hafter.tracks
    | _ => trivial
  have hstart : (withStateDir backend).Tracks := by
    intro name
    rfl
  exact throughout_iff Tracks (fun _ => monitorsTrack) tracks_perform hbreak requests hstart

/-- A container with a health check could not be stopped. -/
theorem web_not_tracked :
    ¬ ∀ requests : List Request, MonitorsTrack
      (after perform (withStateDir (SledStore.empty : SledStore Serde.numbered)) requests) := by
  intro h
  have htracks := (h [.start obliging "web" (webContainer (some HealthCheck.default)),
    .stop unable "web"]).tracks "web"
  have hmonitor : some _ = (none : Option HealthCheck) := htracks
  cases hmonitor

end ServiceManager

end GraphHarness.Orchestration
