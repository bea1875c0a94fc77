import GraphHarness.Orchestration.Answers
import GraphHarness.ServiceRegistry.Serializer

/-!
# What a failed call leaves behind

`stop_service` takes the service out of the active ones before its executor is asked to
stop it, and an error of the executor is returned at once. `start_service` looks at the
name only when the entry for the registry is made, after everything else; and a start
of a container can fail when docker has already done something.

> `stopService_atomic_iff` — a stop that fails changes nothing **unless the service is
> active and its executor cannot stop it**.

> `startService_atomic_iff` — a start that fails changes nothing **unless a service was
> started under a blank name, or docker has removed or started a container before it
> failed**.

The conditions are about the request and the state before it: for a stop, whether the service
is active and what the commands of its executor answer; for a start, whether the name is blank
and what docker answers. Both are put together from `Orchestration.Answers`, and the registry
is compared by its entries.
-/

namespace GraphHarness.Orchestration

open ServiceRegistry (RegistryBackend LawfulBackend Serde SledStore)
open Trace

namespace ServiceManager

variable {σ : Type} [RegistryBackend σ]

/-- The active services, the monitors and the entry of the name are the same. -/
def SameService [LawfulBackend σ] (m m' : ServiceManager σ) (name : String) : Prop :=
  m'.activeServices = m.activeServices ∧ m'.healthMonitors = m.healthMonitors ∧
    m'.registry.stored name = m.registry.stored name

/-- A stop that fails leaves the service as it was exactly if there is no such service,
or its executor can stop it. -/
theorem stopService_atomic_iff [LawfulBackend σ] (manager : ServiceManager σ)
    (env : Environment) (name : String) :
    ((∃ e, (manager.stopService env name).2 = .error e) →
        SameService manager (manager.stopService env name).1 name) ↔
      ∀ service, manager.activeServices.lookup name = some service →
        env.Stops manager.runningProcesses service := by
  cases hlookup : manager.activeServices.lookup name with
  | none =>
    rw [stopService_absent hlookup]
    have habsent : manager.activeServices.erase name = manager.activeServices :=
      HashMap.erase_absent (AList.lookup_eq_none.mp hlookup)
    exact ⟨fun _ _ h => by simp at h, fun _ _ => ⟨habsent, rfl, rfl⟩⟩
  | some service =>
    have hactive : name ∈ manager.activeServices :=
      AList.lookup_isSome.mp (by rw [hlookup]; rfl)
    simp only [Option.some.injEq, forall_eq']
    rw [← halts_iff]
    rcases stopService_active hlookup env with ⟨hhalts, ⟨_, herased, _⟩, herror⟩ | ⟨hhalts, hok, _⟩
    · -- the service is gone from the active ones
      refine ⟨fun h => ?_, fun h => absurd h hhalts⟩
      exact absurd (herased.symm.trans (h herror).1) (HashMap.erase_ne hactive)
    · refine ⟨fun _ => hhalts, fun _ herror => ?_⟩
      obtain ⟨e, herror⟩ := herror
      rw [hok] at herror
      cases herror

/-- The web server runs in a container, and docker cannot be run any more. -/
theorem stopService_not_atomic :
    ¬ ∀ (requests : List Request) (env : Environment) (name : String),
      let manager := after perform (withStateDir (SledStore.empty : SledStore Serde.numbered))
        requests
      (∃ e, (manager.stopService env name).2 = .error e) →
        SameService manager (manager.stopService env name).1 name := by
  intro h
  have hsame := h [.start obliging "web" (webContainer none)] unable "web" ⟨_, rfl⟩
  have hactive : (none : Option RunningService) = some _ :=
    congrArg (AList.lookup "web") hsame.1
  cases hactive

/-- A start that fails changes nothing exactly if the name was refused, or if nothing was
started under a blank name and docker has done nothing before it failed. -/
theorem startService_atomic_iff (manager : ServiceManager σ) (env : Environment)
    (name : String) (config : ServiceConfig) :
    ((∃ e, (manager.startService env name config).2 = .err e) →
        SameStores manager (manager.startService env name config).1 ∧
          SameExecutors manager (manager.startService env name config).1) ↔
      name ∈ manager.activeServices ∨
        ¬ (isBlank name = true ∧ env.Starts config) ∧ ¬ env.FailsLate config := by
  by_cases hactive : name ∈ manager.activeServices
  · rw [startService_active hactive]
    exact ⟨fun _ => .inl hactive, fun _ _ => ⟨⟨rfl, rfl, rfl⟩, rfl, rfl⟩⟩
  · simp only [hactive, false_or]
    cases hexecutor : findExecutor config with
    | error e =>
      obtain ⟨hstarts, hlate⟩ := not_starts hexecutor env.toOutside
      rw [startService_noExecutor hactive hexecutor]
      exact ⟨fun _ => ⟨fun h => hstarts h.2, hlate⟩, fun _ _ => ⟨⟨rfl, rfl, rfl⟩, rfl, rfl⟩⟩
    | ok executor =>
      have hsame := launch_sameStores manager env.toOutside config executor
      rw [← launch_ok hexecutor manager, ← launch_late hexecutor manager]
      cases hlaunch : (manager.launch env.toOutside config executor).2 with
      | err e =>
        rw [startService_err hactive hexecutor hlaunch]
        simp [hsame]
      | panicked =>
        rw [startService_panicked hactive hexecutor hlaunch]
        simp
      | ok service =>
        cases hname : isBlank name with
        | true =>
          rw [startService_blank hactive hexecutor hlaunch hname]
          -- the service is active now
          have hactive' : (manager.launch env.toOutside config executor).1.activeServices =
            manager.activeServices := hsame.2.1
          simp [SameStores, store, hactive', HashMap.insert_ne hactive]
        | false =>
          obtain ⟨entry, _, _, _, hstart⟩ := startService_ok hactive hexecutor hlaunch hname
          rw [hstart]
          simp

/-- The web server is started under a blank name. -/
theorem startService_not_atomic :
    ¬ ∀ (requests : List Request) (env : Environment) (name : String) (config : ServiceConfig),
      let manager := after perform (withStateDir (SledStore.empty : SledStore Serde.numbered))
        requests
      (∃ e, (manager.startService env name config).2 = .err e) →
        SameStores manager (manager.startService env name config).1 ∧
          SameExecutors manager (manager.startService env name config).1 := by
  intro h
  have hsame := h [] obliging " " (webProcess none) ⟨_, rfl⟩
  have hactive : some _ = (none : Option RunningService) :=
    congrArg (AList.lookup " ") hsame.1.2.1
  cases hactive

end ServiceManager

end GraphHarness.Orchestration
