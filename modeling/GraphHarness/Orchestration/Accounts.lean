import GraphHarness.Orchestration.Calls
import GraphHarness.Orchestration.Concurrency
import GraphHarness.Trace.Balance
import Mathlib.Algebra.BigOperators.Group.Multiset.Basic
import Mathlib.Algebra.Group.Pi.Lemmas
import Mathlib.Algebra.Order.BigOperators.Group.List
import Mathlib.Algebra.Order.Group.Multiset
import Mathlib.Data.Multiset.Bind
import Mathlib.Data.Multiset.Range

/-!
# Where the services are

A service comes into being when its process is launched or its container is started. From
there on it is in one place after the other: with the start that has it, among the active
services, with a stop that has taken it. A start that stores over an entry replaces the
service there, and nobody has it any more.

> `services_accounted`: whatever calls run at once, every service there has ever been is in
> exactly one place, or has been stopped once, or replaced once;
>
> `handles_accounted`: the tracked processes are those of the services in these places, and
> of those that were replaced.

Places are multisets of services, so that a service that is in two of them would be counted
twice. What a step moves is said once for starts and once for stops (`moves_advanceStart`,
`moves_advanceStop`), with the service it creates, stores, replaces, takes or releases;
`Accounted` is the balance of all moves, and the general rule for such balances is that of
`Trace.Balance`.

Handles are found from the places: a process has one from the step that tracks it to the step
that takes it, and a container has none. A replaced process keeps its handle, and no call
leads to it any more. In the source a service whose start fails after its launch is dropped;
here it stays counted with that start.
-/

namespace GraphHarness.Orchestration

open Trace

/-! ## Places -/

/-- The service that a start has, from its launch to its entry. -/
def Phase.carried : Phase → Multiset RunningService
  | .track service _ | .monitor service | .store service => {service}
  | _ => 0

/-- The service whose process a start has not tracked yet. -/
def Phase.tracking : Phase → Multiset RunningService
  | .track service _ => {service}
  | _ => 0

/-- The service that a stop has taken and its executor has not stopped yet. -/
def StopPhase.carried : StopPhase → Multiset RunningService
  | .find service | .untrack service | .stopContainer service => {service}
  | _ => 0

/-- The service that a step brings into being. -/
def Call.created (manager : Manager) (call : Call) (answer : Answer) : Multiset RunningService :=
  match call.phase, answer with
  | .launch, .launched (.ok pid) =>
    {((RunningService.new manager.issued call.config.name call.config).withPid
      (pid.getD 0)).withMetadata "executor_type" "process"}
  | .startContainer, .container (.ok service) => {{ service with id := manager.issued }}
  | _, _ => 0

/-- The service that the next step stores. -/
def Phase.entering : Phase → Multiset RunningService
  | .store service => {service}
  | _ => 0

/-- The service that the next step stores its own over. -/
def Call.replaced (manager : Manager) (call : Call) : Multiset RunningService :=
  match call.phase with
  | .store _ => HashMap.valueAt manager.activeServices call.name
  | _ => 0

/-- A start that has no service does not store one. -/
theorem Phase.entering_of_carried {phase : Phase} (h : phase.carried = 0) :
    phase.entering = 0 ∧ phase.tracking = 0 ∧ ∀ service, phase ≠ .store service := by
  cases phase with
  | track | monitor | store => simp [Phase.carried] at h
  | check | inject | launch | startContainer | register | done =>
    exact ⟨rfl, rfl, fun _ => by simp⟩

/-- A step that stores nothing replaces nothing. -/
theorem Call.replaced_of_ne {call : Call} (h : ∀ service, call.phase ≠ .store service)
    (manager : Manager) : call.replaced manager = 0 := by
  unfold Call.replaced
  split
  next service hphase => exact absurd hphase (h service)
  next => rfl

/-- The service that a stop is done with after its next step. -/
def StopPhase.released : StopPhase → Multiset RunningService
  | .untrack service | .stopContainer service => {service}
  | .find service =>
    match findExecutor service.config with
    | .ok _ => 0
    | .error _ => {service}
  | _ => 0

namespace Calls

/-- The services that the starts carry. -/
def starting (s : Calls) : Multiset RunningService := (s.starts.map (·.phase.carried)).sum

/-- The services of which a start is about to track the handle. -/
def tracking (s : Calls) : Multiset RunningService := (s.starts.map (·.phase.tracking)).sum

/-- The services of the map. -/
def active (s : Calls) : Multiset RunningService := HashMap.values s.manager.activeServices

/-- The services that the stops carry. -/
def stopping (s : Calls) : Multiset RunningService := (s.stops.map (·.phase.carried)).sum

/-- The service that a step creates. -/
def created (s : Calls) : CallEvent → Multiset RunningService
  | .advanceStart i answer =>
    (s.starts[i]?).elim 0 fun call => call.created s.manager (answer.about call.config)
  | _ => 0

/-- The service that a step stores. -/
def stored (s : Calls) : CallEvent → Multiset RunningService
  | .advanceStart i _ => (s.starts[i]?).elim 0 (·.phase.entering)
  | _ => 0

/-- The service whose handle a step tracks. -/
def tracked (s : Calls) : CallEvent → Multiset RunningService
  | .advanceStart i _ => (s.starts[i]?).elim 0 (·.phase.tracking)
  | _ => 0

/-- The service that a step stores another over. -/
def replaced (s : Calls) : CallEvent → Multiset RunningService
  | .advanceStart i _ => (s.starts[i]?).elim 0 (·.replaced s.manager)
  | _ => 0

/-- The service that a step takes out of the map. -/
def taken (s : Calls) : CallEvent → Multiset RunningService
  | .advanceStop i _ =>
    (s.stops[i]?).elim 0 fun call =>
      match call.phase with
      | .take => HashMap.valueAt s.manager.activeServices call.name
      | _ => 0
  | _ => 0

/-- The service that a step has stopped. -/
def released (s : Calls) : CallEvent → Multiset RunningService
  | .advanceStop i _ => (s.stops[i]?).elim 0 (·.phase.released)
  | _ => 0

end Calls

/-! ## Handles -/

/-- The identifier that a handle of the service is kept under. -/
def RunningService.handle (service : RunningService) : Multiset Nat :=
  match findExecutor service.config with
  | .ok .process => {service.id}
  | _ => 0

/-- The ids of some services. -/
def ids (services : Multiset RunningService) : Multiset Nat := services.map RunningService.id

/-- The handles that some services have. -/
def handles (services : Multiset RunningService) : Multiset Nat :=
  services.bind RunningService.handle

@[simp] theorem ids_add (services others : Multiset RunningService) :
    ids (services + others) = ids services + ids others := Multiset.map_add ..

@[simp] theorem ids_zero : ids 0 = 0 := rfl

@[simp] theorem ids_singleton (service : RunningService) : ids {service} = {service.id} :=
  Multiset.map_singleton ..

@[simp] theorem handles_zero : handles 0 = 0 := rfl

@[simp] theorem handles_add (services others : Multiset RunningService) :
    handles (services + others) = handles services + handles others := Multiset.add_bind ..

@[simp] theorem handles_singleton (service : RunningService) :
    handles {service} = service.handle := Multiset.singleton_bind ..

/-- A process has a handle under its id. -/
theorem RunningService.handle_process {service : RunningService} (h : service.IsProcess) :
    service.handle = {service.id} := by
  unfold RunningService.handle
  rw [h]

/-- A container has none. -/
theorem RunningService.handle_of_not {service : RunningService} (h : ¬ service.IsProcess) :
    service.handle = 0 := by
  unfold RunningService.handle
  split
  next hprocess => exact absurd hprocess h
  next => rfl

/-- No service has more than one handle. -/
theorem handles_le_ids (services : Multiset RunningService) : handles services ≤ ids services := by
  induction services using Multiset.induction with
  | empty => exact le_refl 0
  | cons service services ih =>
    rw [← Multiset.singleton_add, handles_add, ids_add, handles_singleton]
    refine add_le_add ?_ ih
    by_cases hprocess : service.IsProcess
    · rw [service.handle_process hprocess]
      rfl
    · rw [service.handle_of_not hprocess]
      exact Multiset.zero_le _

/-! ## What a step moves -/

/-- What the phases before it say about the phase of a start. -/
def Phase.Fits (config : ServiceConfig) : Phase → Prop
  | .launch => findExecutor config = .ok .process
  | .startContainer => findExecutor config = .ok .docker
  | .track service _ => service.config = config ∧ findExecutor config = .ok .process
  | .monitor service | .store service => service.config = config
  | _ => True

/-- A stop is in the phases of its kind of service. -/
def StopPhase.Fits : StopPhase → Prop
  | .untrack service => service.IsProcess
  | .stopContainer service => ¬ service.IsProcess
  | _ => True

section Start

variable {manager manager' : Manager} {call : Call} {answer : Answer} {phase : Phase}

/-- One step of a start: it has no service before or after, or it goes on to the next place
with the one it has. -/
theorem advance_moves (h : advance manager call answer = some (manager', phase)) :
    (manager' = manager ∧ call.phase.carried = 0 ∧ phase.carried = 0 ∧
      call.created manager answer = 0 ∧ phase.Fits call.config) ∨
    (∃ service info, call.phase = .launch ∧ call.created manager answer = {service} ∧
      service.id = manager.issued ∧ service.config = call.config ∧
      manager' = { manager with issued := manager.issued + 1 } ∧ phase = .track service info) ∨
    (∃ service info, call.phase = .track service info ∧ call.created manager answer = 0 ∧
      manager' = { manager with
        runningProcesses := manager.runningProcesses.insert service.id info } ∧
      phase = .monitor service) ∨
    (∃ service, call.phase = .startContainer ∧ answer = .container (.ok service) ∧
      call.created manager answer = {{ service with id := manager.issued }} ∧
      manager' = { manager with issued := manager.issued + 1 } ∧
      phase = .monitor { service with id := manager.issued }) ∨
    (∃ service, call.phase = .monitor service ∧ call.created manager answer = 0 ∧
      manager' = { manager with
        healthMonitors :=
          match call.config.healthCheck with
          | some healthCheck => manager.healthMonitors.insert call.name healthCheck
          | none => manager.healthMonitors } ∧
      phase = .store service) ∨
    ∃ service, call.phase = .store service ∧ call.created manager answer = 0 ∧
      manager' = { manager with
        activeServices := manager.activeServices.insert call.name service } ∧
      phase.carried = 0 ∧ phase.Fits call.config := by
  have hadvances := advances_of_advance h
  obtain ⟨name, config, before⟩ := call
  cases hadvances with
  | taken | free | noExecutor | notLaunched | noContainer | registered =>
    exact .inl ⟨rfl, rfl, rfl, rfl, trivial⟩
  | process hexecutor | docker hexecutor => exact .inl ⟨rfl, rfl, rfl, rfl, hexecutor⟩
  | launched pid => exact .inr (.inl ⟨_, ⟨pid⟩, rfl, rfl, rfl, rfl, rfl, rfl⟩)
  | tracked service info => exact .inr (.inr (.inl ⟨service, info, rfl, rfl, rfl, rfl⟩))
  | container service => exact .inr (.inr (.inr (.inl ⟨service, rfl, rfl, rfl, rfl, rfl⟩)))
  | monitored service hcheck | unmonitored service hcheck =>
    refine .inr (.inr (.inr (.inr (.inl ⟨service, rfl, rfl, ?_, rfl⟩))))
    rw [hcheck]
  | blank service | stored service =>
    exact .inr (.inr (.inr (.inr (.inr ⟨service, rfl, rfl, rfl, rfl, trivial⟩))))

/-- A service that docker answers with is of the configuration of the call. -/
theorem about_container {config : ServiceConfig} {service : RunningService}
    (h : answer.about config = .container (.ok service)) : service.config = config := by
  unfold Answer.about at h
  split at h
  next =>
    obtain rfl : _ = service := by simpa using h
    rfl
  next hother => exact absurd h (hother service)

end Start

/-- One step of a stop: it takes the entry of its name, it takes the handle of a process, or
it goes on with the service it has, or without. -/
theorem advanceStop_moves {manager manager' : Manager} {call : StopCall} {answer : StopAnswer}
    {phase : StopPhase} (h : call.advance manager answer = some (manager', phase))
    (hfits : call.phase.Fits) :
    (call.phase = .take ∧
      manager' = { manager with
        activeServices := manager.activeServices.erase call.name } ∧
      phase.carried = HashMap.valueAt manager.activeServices call.name ∧ phase.Fits ∧
      phase ≠ .kill) ∨
    (∃ service, call.phase = .untrack service ∧ service.IsProcess ∧
      manager' = { manager with
        runningProcesses := manager.runningProcesses.erase service.id } ∧
      phase = .untracked (manager.runningProcesses.lookup service.id) service.pid) ∨
    (call.phase ≠ .take ∧
      (manager' = manager ∨ call.phase = .unmonitor ∧
        manager' = { manager with
          healthMonitors := manager.healthMonitors.erase call.name }) ∧
      phase.carried + call.phase.released = call.phase.carried ∧
      handles call.phase.released = 0 ∧ phase.Fits ∧ (call.phase ≠ .kill → phase ≠ .kill)) := by
  have hadvances := call.advances_of_advance h
  obtain ⟨name, before⟩ := call
  cases hadvances with
  | taken service hlookup =>
    exact .inl ⟨rfl, rfl, by simp [HashMap.valueAt, hlookup, StopPhase.carried], trivial, by simp⟩
  | absent hlookup =>
    refine .inl ⟨rfl, ?_, by simp [HashMap.valueAt, hlookup, StopPhase.carried], trivial, by simp⟩
    rw [HashMap.erase_absent (AList.lookup_eq_none.mp hlookup)]
  | process service hexecutor =>
    exact .inr (.inr ⟨by simp, .inl rfl, by simp [StopPhase.carried, StopPhase.released, hexecutor],
      by simp [StopPhase.released, hexecutor], hexecutor, by simp⟩)
  | docker service hexecutor =>
    exact .inr (.inr ⟨by simp, .inl rfl, by simp [StopPhase.carried, StopPhase.released, hexecutor],
      by simp [StopPhase.released, hexecutor],
      by simp [StopPhase.Fits, RunningService.IsProcess, hexecutor], by simp⟩)
  | noExecutor service hexecutor =>
    exact .inr (.inr ⟨by simp, .inl rfl, by simp [StopPhase.carried, StopPhase.released, hexecutor],
      by simp [StopPhase.released, hexecutor, RunningService.handle], trivial, by simp⟩)
  | untracked service => exact .inr (.inl ⟨service, rfl, hfits, rfl, rfl⟩)
  | terminated | killed | notKilled | updated =>
    exact .inr (.inr ⟨by simp, .inl rfl, rfl, rfl, trivial, by simp⟩)
  | containerStopped service | containerNotStopped service =>
    -- a container has no handle
    have hhandle : handles {service} = 0 :=
      (handles_singleton service).trans (service.handle_of_not hfits)
    exact .inr (.inr ⟨by simp, .inl rfl, rfl, hhandle, trivial, by simp⟩)
  | unmonitored => exact .inr (.inr ⟨by simp, .inr ⟨rfl, rfl⟩, rfl, rfl, trivial, by simp⟩)

/-! ## The account -/

namespace Calls

/-- The services that somebody has. -/
def held (s : Calls) : Multiset RunningService := s.starting + s.active + s.stopping

/-- What a step moves from one place to the next. -/
structure Moves (s : Calls) (e : CallEvent) (t : Calls) : Prop where
  starting : t.starting + s.stored e = s.starting + s.created e
  active : t.active + s.taken e + s.replaced e = s.active + s.stored e
  stopping : t.stopping + s.released e = s.stopping + s.taken e
  issued : Multiset.range t.manager.issued = Multiset.range s.manager.issued + ids (s.created e)
  tracked : ↑t.manager.runningProcesses.keys + ids t.tracking + handles (s.released e) =
    ↑s.manager.runningProcesses.keys + ids s.tracking + handles (s.created e)

/-- The ways of a service. -/
inductive Way where
  | created
  | stored
  | taken
  | replaced
  | released

/-- What a step does to one of the accounts. -/
def amount (s : Calls) (e : CallEvent) : Way → Multiset RunningService
  | .created => s.created e
  | .stored => s.stored e
  | .taken => s.taken e
  | .replaced => s.replaced e
  | .released => s.released e

/-- Where the services are that have been created so far. A handle is tracked for each
process among them, from shortly after its launch to its release. -/
structure Accounted (s : Calls) (account : Way → Multiset RunningService) : Prop where
  starts : ∀ call ∈ s.starts, call.phase.Fits call.config
  stops : ∀ call ∈ s.stops, call.phase.Fits ∧ call.phase ≠ .kill
  distinct : ids (account .created) = Multiset.range s.manager.issued
  starting : s.starting + account .stored = account .created
  active : s.active + account .taken + account .replaced = account .stored
  stopping : s.stopping + account .released = account .taken
  tracked : ↑s.manager.runningProcesses.keys + ids s.tracking + handles (account .released) =
    handles (account .created)

section AdvanceStart

variable {s : Calls} {i : Nat} {call : Call} (hcall : s.starts[i]? = some call) {answer : Answer}
  {manager : Manager} {phase : Phase}
include hcall

/-- A step of a start moves what its call moves. -/
theorem moves_of_start
    (hcarried : phase.carried + call.phase.entering =
      call.phase.carried + call.created s.manager (answer.about call.config))
    (hactive : HashMap.values manager.activeServices + call.replaced s.manager =
      HashMap.values s.manager.activeServices + call.phase.entering)
    (hissued : Multiset.range manager.issued = Multiset.range s.manager.issued +
      ids (call.created s.manager (answer.about call.config)))
    (hhandles : ↑manager.runningProcesses.keys + ids phase.tracking =
      ↑s.manager.runningProcesses.keys + ids call.phase.tracking +
        handles (call.created s.manager (answer.about call.config))) :
    Moves s (.advanceStart i answer)
      { s with manager := manager, starts := s.starts.set i { call with phase := phase } } := by
  have hcreated : s.created (.advanceStart i answer) =
      call.created s.manager (answer.about call.config) := by
    simp [created, hcall]
  have hstored : s.stored (.advanceStart i answer) = call.phase.entering := by
    simp [stored, hcall]
  have hreplaced : s.replaced (.advanceStart i answer) = call.replaced s.manager := by
    simp [replaced, hcall]
  refine ⟨?_, ?_, rfl, ?_, ?_⟩
  · rw [hstored, hcreated]
    unfold starting
    rw [sum_set _ hcall, sum_eq_eraseIdx (·.phase.carried) hcall]
    dsimp only
    rw [add_right_comm, hcarried, add_right_comm]
  · rw [hstored, hreplaced]
    exact (congrArg (· + _) (add_zero _)).trans hactive
  · rw [hcreated]
    exact hissued
  · rw [hcreated]
    unfold tracking
    rw [sum_set _ hcall, sum_eq_eraseIdx (·.phase.tracking) hcall]
    dsimp only
    rw [ids_add, ids_add]
    generalize ids ((s.starts.eraseIdx i).map (·.phase.tracking)).sum = others
    calc ↑manager.runningProcesses.keys + (ids phase.tracking + others) + 0
        = ↑manager.runningProcesses.keys + ids phase.tracking + others := by abel
      _ = ↑s.manager.runningProcesses.keys + ids call.phase.tracking +
            handles (call.created s.manager (answer.about call.config)) + others := by
          rw [hhandles]
      _ = _ := by abel

end AdvanceStart

section Accounted

variable {s : Calls} {account : Way → Multiset RunningService}

/-- Only a start tracks a handle. -/
theorem tracking_le_starting (s : Calls) : s.tracking ≤ s.starting := by
  unfold tracking starting
  refine List.sum_le_sum ?_
  intro call _
  cases call.phase with
  | track service info => exact le_refl _
  | check | inject | launch | startContainer | monitor | store | register | done =>
    exact Multiset.zero_le _

/-- Every service is in one of the three places, or has left them on one of two ways. -/
theorem Accounted.places (h : Accounted s account) :
    s.starting + s.active + s.stopping + account .released + account .replaced =
      account .created := by
  rw [← h.starting, ← h.active, ← h.stopping]
  abel

/-- No id is given twice. -/
theorem Accounted.nodup (h : Accounted s account) : (ids (account .created)).Nodup := by
  rw [h.distinct]
  exact Multiset.nodup_range _

/-- What was replaced is nowhere else. -/
theorem Accounted.replaced_apart (h : Accounted s account) :
    Disjoint (ids (s.starting + s.active + s.stopping)) (ids (account .replaced)) := by
  have hnodup := h.nodup
  rw [← h.places, add_right_comm, ids_add, ids_add (s.starting + s.active + s.stopping)] at hnodup
  exact (Multiset.nodup_add.mp (Multiset.nodup_add.mp hnodup).1).2.2

/-- The handles that are there, by where the services are. -/
theorem Accounted.handles (h : Accounted s account) :
    ↑s.manager.runningProcesses.keys + ids s.tracking =
      Orchestration.handles (s.starting + s.active + s.stopping + account .replaced) := by
  refine add_right_cancel (h.tracked.trans ?_)
  rw [← h.places, ← handles_add]
  refine congrArg Orchestration.handles ?_
  abel

/-- The handle of a process that is about to be tracked is not there yet. -/
theorem Accounted.not_tracked (h : Accounted s account) {service : RunningService}
    (hservice : service ∈ s.tracking) : service.id ∉ s.manager.runningProcesses := by
  have hle : ↑s.manager.runningProcesses.keys + ids s.tracking ≤ ids (account .created) :=
    calc ↑s.manager.runningProcesses.keys + ids s.tracking
        ≤ ↑s.manager.runningProcesses.keys + ids s.tracking +
            Orchestration.handles (account .released) := Multiset.le_add_right _ _
      _ = Orchestration.handles (account .created) := h.tracked
      _ ≤ ids (account .created) := handles_le_ids _
  have hdisjoint := (Multiset.nodup_add.mp (Multiset.nodup_of_le hle h.nodup)).2.2
  intro hmem
  exact Multiset.disjoint_left.mp hdisjoint (Multiset.mem_coe.mpr (AList.mem_keys.mp hmem))
    (Multiset.mem_map_of_mem _ hservice)

/-- The handle of a process that a stop has taken, and not stopped yet, is there. -/
theorem Accounted.stop_tracked (h : Accounted s account) {service : RunningService}
    (hservice : service ∈ s.stopping) (hprocess : service.IsProcess) :
    service.id ∈ s.manager.runningProcesses := by
  have hhandle : service.id ∈
      Orchestration.handles (s.starting + s.active + s.stopping + account .replaced) := by
    refine Multiset.mem_bind.mpr ⟨service, ?_, ?_⟩
    · exact Multiset.mem_add.mpr (.inl (Multiset.mem_add.mpr (.inr hservice)))
    · rw [service.handle_process hprocess]
      exact Multiset.mem_singleton_self _
  rw [← h.handles, Multiset.mem_add] at hhandle
  rcases hhandle with hkey | htracking
  · exact AList.mem_keys.mpr (Multiset.mem_coe.mp hkey)
  · -- a start has it, so that no stop can have it
    have hnodup := h.nodup
    rw [← h.places, ids_add, ids_add, ids_add, ids_add] at hnodup
    have hdisjoint := (Multiset.nodup_add.mp (Multiset.nodup_add.mp
      (Multiset.nodup_add.mp hnodup).1).1).2.2
    refine absurd (Multiset.mem_map_of_mem _ hservice) (Multiset.disjoint_left.mp hdisjoint ?_)
    exact Multiset.mem_add.mpr (.inl (Multiset.mem_of_le
      (Multiset.map_le_map (tracking_le_starting s)) htracking))

/-- No handle is left over if and only if no process was replaced. -/
theorem Accounted.owned_iff (h : Accounted s account) :
    (∀ id ∈ s.manager.runningProcesses,
        id ∈ Orchestration.handles (s.starting + s.active + s.stopping)) ↔
      Orchestration.handles (account .replaced) = 0 := by
  constructor
  · intro howned
    refine Multiset.eq_zero_of_forall_notMem ?_
    intro id hid
    have hleft : id ∉ ids (s.starting + s.active + s.stopping) := fun hmem =>
      Multiset.disjoint_left.mp h.replaced_apart hmem
        (Multiset.mem_of_le (handles_le_ids _) hid)
    have hmem : id ∈ (↑s.manager.runningProcesses.keys + ids s.tracking : Multiset Nat) := by
      rw [h.handles, handles_add]
      exact Multiset.mem_add.mpr (.inr hid)
    rcases Multiset.mem_add.mp hmem with hkey | htracking
    · have hown := howned id (AList.mem_keys.mpr (Multiset.mem_coe.mp hkey))
      exact hleft (Multiset.mem_of_le (handles_le_ids _) hown)
    · -- a process that is not tracked yet is still with its start
      refine hleft ?_
      rw [ids_add, ids_add]
      exact Multiset.mem_add.mpr (.inl (Multiset.mem_add.mpr (.inl (Multiset.mem_of_le
        (Multiset.map_le_map (tracking_le_starting s)) htracking))))
  · intro hnone id hid
    have hmem : id ∈ (↑s.manager.runningProcesses.keys + ids s.tracking : Multiset Nat) :=
      Multiset.mem_add.mpr (.inl (Multiset.mem_coe.mpr (AList.mem_keys.mp hid)))
    rwa [h.handles, handles_add, hnone, add_zero] at hmem

end Accounted

/-- One id more. -/
theorem range_succ (n : Nat) (service : RunningService) (h : service.id = n) :
    Multiset.range (n + 1) = Multiset.range n + ids {service} := by
  rw [Multiset.range_succ, ← Multiset.singleton_add, add_comm]
  simp [ids, h]

section Step

variable {s : Calls} {account : Way → Multiset RunningService} {i : Nat}
  {manager : Manager}

/-- What a step of a start moves. -/
theorem moves_advanceStart (h : Accounted s account) {call : Call} {answer : Answer}
    {phase : Phase} (hcall : s.starts[i]? = some call)
    (hadvance : Orchestration.advance s.manager call (answer.about call.config) =
      some (manager, phase)) :
    Moves s (.advanceStart i answer)
        { s with manager := manager, starts := s.starts.set i { call with phase := phase } } ∧
      phase.Fits call.config := by
  have hfits := h.starts call (List.mem_of_getElem? hcall)
  rcases advance_moves hadvance with
    ⟨rfl, hbefore, hafter, hcreated, hphase⟩ |
    ⟨service, info, hlaunch, hcreated, hid, hconfig, rfl, rfl⟩ |
    ⟨service, info, htrack, hcreated, rfl, rfl⟩ |
    ⟨service, hlaunch, hanswer, hcreated, rfl, rfl⟩ |
    ⟨service, hmonitor, hcreated, rfl, rfl⟩ |
    ⟨service, hstore, hcreated, rfl, hafter, hphase⟩
  -- no service is carried, before the step or after it
  · obtain ⟨hentering, htracking, hstore⟩ := Phase.entering_of_carried hbefore
    refine ⟨moves_of_start hcall ?_ ?_ ?_ ?_, hphase⟩
    · rw [hentering, hcreated, hbefore, hafter]
    · rw [hentering, call.replaced_of_ne hstore]
    · rw [hcreated, ids_zero, add_zero]
    · rw [hcreated, htracking, (Phase.entering_of_carried hafter).2.1, handles_zero, add_zero]
  -- a process is launched, and comes into being
  · rw [hlaunch] at hfits
    have hprocess : service.IsProcess := by
      unfold RunningService.IsProcess
      rw [hconfig]
      exact hfits
    refine ⟨moves_of_start hcall ?_ ?_ ?_ ?_, hconfig, hfits⟩
    · rw [hcreated, hlaunch]
      rfl
    · rw [call.replaced_of_ne (by simp [hlaunch]), hlaunch]
      rfl
    · rw [hcreated]
      exact range_succ _ service hid
    · rw [hcreated, hlaunch, handles_singleton, service.handle_process hprocess]
      simp [Phase.tracking]
  -- its handle is tracked, under an id that no handle has
  · rw [htrack] at hfits
    have hmem : service ∈ s.tracking := by
      unfold tracking
      rw [sum_eq_eraseIdx _ hcall, htrack]
      exact Multiset.mem_add.mpr (.inl (Multiset.mem_singleton_self _))
    refine ⟨moves_of_start hcall ?_ ?_ ?_ ?_, hfits.1⟩
    · rw [hcreated, htrack]
      rfl
    · rw [call.replaced_of_ne (by simp [htrack]), htrack]
      rfl
    · rw [hcreated, ids_zero, add_zero]
    · rw [hcreated, htrack, HashMap.keys_insert (h.not_tracked hmem)]
      simp [Phase.tracking]
  -- a container is started, and comes into being without a handle
  · rw [hlaunch] at hfits
    have hconfig := about_container hanswer
    have hdocker : ¬ RunningService.IsProcess { service with id := s.manager.issued } := by
      unfold RunningService.IsProcess
      rw [hconfig, hfits]
      simp
    refine ⟨moves_of_start hcall ?_ ?_ ?_ ?_, hconfig⟩
    · rw [hcreated, hlaunch]
      rfl
    · rw [call.replaced_of_ne (by simp [hlaunch]), hlaunch]
      rfl
    · rw [hcreated]
      exact range_succ _ _ rfl
    · rw [hcreated, hlaunch, handles_singleton, RunningService.handle_of_not hdocker, add_zero]
      rfl
  -- the monitor is entered, and the service stays where it is
  · rw [hmonitor] at hfits
    refine ⟨moves_of_start hcall ?_ ?_ ?_ ?_, hfits⟩
    · rw [hcreated, hmonitor]
      rfl
    · rw [call.replaced_of_ne (by simp [hmonitor]), hmonitor]
      rfl
    · rw [hcreated, ids_zero, add_zero]
    · rw [hcreated, hmonitor, handles_zero, add_zero]
      rfl
  -- the service is stored, and whatever was under its name is replaced
  · refine ⟨moves_of_start hcall ?_ ?_ ?_ ?_, hphase⟩
    · rw [hcreated, hstore, hafter]
      exact add_comm _ _
    · simp only [Call.replaced, hstore]
      exact HashMap.values_insert ..
    · rw [hcreated, ids_zero, add_zero]
    · rw [hcreated, hstore, (Phase.entering_of_carried hafter).2.1, handles_zero, add_zero]
      rfl

/-- A step of a stop moves what its call moves. -/
theorem moves_of_stop {call : StopCall} {answer : StopAnswer} {phase : StopPhase}
    (hcall : s.stops[i]? = some call) {entry : Multiset RunningService}
    (htaken : s.taken (.advanceStop i answer) = entry)
    (hcarried : phase.carried + call.phase.released = call.phase.carried + entry)
    (hactive : HashMap.values manager.activeServices + entry =
      HashMap.values s.manager.activeServices)
    (hissued : manager.issued = s.manager.issued)
    (hhandles : ↑manager.runningProcesses.keys + handles call.phase.released =
      (↑s.manager.runningProcesses.keys : Multiset Nat)) :
    Moves s (.advanceStop i answer)
      { s with manager := manager, stops := s.stops.set i { call with phase := phase } } := by
  have hreleased : s.released (.advanceStop i answer) = call.phase.released := by
    simp [released, hcall]
  refine ⟨rfl, ?_, ?_, ?_, ?_⟩
  · rw [htaken]
    exact (add_zero _).trans (hactive.trans (add_zero _).symm)
  · rw [htaken, hreleased]
    unfold stopping
    rw [sum_set _ hcall, sum_eq_eraseIdx (·.phase.carried) hcall]
    dsimp only
    rw [add_right_comm, hcarried, add_right_comm]
  · exact (congrArg Multiset.range hissued).trans (add_zero _).symm
  · rw [hreleased]
    calc ↑manager.runningProcesses.keys + ids s.tracking + handles call.phase.released
        = ↑manager.runningProcesses.keys + handles call.phase.released + ids s.tracking := by abel
      _ = ↑s.manager.runningProcesses.keys + ids s.tracking + 0 := by rw [hhandles, add_zero]

/-- What a step of a stop moves. -/
theorem moves_advanceStop (h : Accounted s account) {call : StopCall} {answer : StopAnswer}
    {phase : StopPhase} (hcall : s.stops[i]? = some call)
    (hadvance : call.advance s.manager answer = some (manager, phase)) :
    Moves s (.advanceStop i answer)
        { s with manager := manager, stops := s.stops.set i { call with phase := phase } } ∧
      phase.Fits ∧ phase ≠ .kill := by
  obtain ⟨hfits, hkill⟩ := h.stops call (List.mem_of_getElem? hcall)
  rcases advanceStop_moves hadvance hfits with
    ⟨htake, rfl, hphase, hafter⟩ | ⟨service, huntrack, hprocess, rfl, rfl⟩ |
    ⟨htake, hmanager, hphase, hhandles, hafter, hnever⟩
  · have htaken : s.taken (.advanceStop i answer) =
        HashMap.valueAt s.manager.activeServices call.name := by
      simp [taken, hcall, htake]
    refine ⟨moves_of_stop hcall htaken ?_ ?_ rfl ?_, hafter⟩
    · rw [hphase, htake]
      exact add_comm _ _
    · exact HashMap.values_erase ..
    · rw [htake]
      exact add_zero _
  · have hmem : service ∈ s.stopping := by
      unfold stopping
      rw [sum_eq_eraseIdx _ hcall, huntrack]
      exact Multiset.mem_add.mpr (.inl (Multiset.mem_singleton_self _))
    have hhandle := h.stop_tracked hmem hprocess
    obtain ⟨info, hinfo⟩ := Option.isSome_iff_exists.mp (AList.lookup_isSome.mpr hhandle)
    have htaken : s.taken (.advanceStop i answer) = 0 := by
      simp [taken, hcall, huntrack]
    rw [hinfo]
    refine ⟨moves_of_stop hcall htaken ?_ ?_ rfl ?_, trivial, ?_⟩
    · rw [huntrack]
      exact add_comm _ _
    · exact add_zero _
    · rw [huntrack]
      show _ + handles {service} = _
      rw [handles_singleton, service.handle_process hprocess]
      exact HashMap.keys_erase hhandle
    · simp [StopPhase.untracked]
  · have hsame : manager.activeServices = s.manager.activeServices ∧
        manager.issued = s.manager.issued ∧
        manager.runningProcesses = s.manager.runningProcesses := by
      rcases hmanager with rfl | ⟨_, rfl⟩
      · exact ⟨rfl, rfl, rfl⟩
      · exact ⟨rfl, rfl, rfl⟩
    have htaken : s.taken (.advanceStop i answer) = 0 := by
      simp [taken, hcall]
    refine ⟨moves_of_stop hcall htaken ?_ ?_ hsame.2.1 ?_, hafter, hnever hkill⟩
    · exact hphase.trans (add_zero _).symm
    · rw [hsame.1, add_zero]
    · rw [hsame.2.2, hhandles, add_zero]

/-- Nothing has moved yet. -/
theorem accounted_new : Accounted new 0 :=
  ⟨by simp [new], by simp [new], rfl, rfl, rfl, rfl, rfl⟩

/-- **One step of any call**, on its way to the next place. -/
theorem moves_step {e : CallEvent} {t : Calls} (h : Accounted s account)
    (hstep : s.step e = some t) :
    Moves s e t ∧ (∀ call ∈ t.starts, call.phase.Fits call.config) ∧
      ∀ call ∈ t.stops, call.phase.Fits ∧ call.phase ≠ .kill := by
  rcases step_cases hstep with
    ⟨name, config, rfl, rfl⟩ | ⟨i, answer, call, manager, phase, rfl, hcall, hadvance, rfl⟩ |
    ⟨name, rfl, rfl⟩ | ⟨i, answer, call, manager, phase, rfl, hcall, hadvance, rfl⟩
  · refine ⟨⟨?_, add_zero _, rfl, (add_zero _).symm, ?_⟩, ?_, h.stops⟩
    · simp [starting, stored, created, Phase.carried]
    · simp [tracking, released, created, Phase.tracking]
    · intro call hcall
      rcases List.mem_append.mp hcall with hold | hnew
      · exact h.starts call hold
      · rw [List.mem_singleton.mp hnew]
        trivial
  · obtain ⟨hmoves, hphase⟩ := moves_advanceStart h hcall hadvance
    refine ⟨hmoves, ?_, h.stops⟩
    intro other hother
    rcases List.mem_or_eq_of_mem_set hother with hold | rfl
    · exact h.starts other hold
    · exact hphase
  · refine ⟨⟨rfl, add_zero _, ?_, (add_zero _).symm, rfl⟩, h.starts, ?_⟩
    · simp [stopping, released, taken, StopPhase.carried]
    · intro call hcall
      rcases List.mem_append.mp hcall with hold | hnew
      · exact h.stops call hold
      · rw [List.mem_singleton.mp hnew]
        exact ⟨trivial, by simp⟩
  · obtain ⟨hmoves, hphase⟩ := moves_advanceStop h hcall hadvance
    refine ⟨hmoves, h.starts, ?_⟩
    intro other hother
    rcases List.mem_or_eq_of_mem_set hother with hold | rfl
    · exact h.stops other hold
    · exact hphase

/-- One step keeps the accounts. -/
theorem accounted_step (s : Calls) (e : CallEvent) (t : Calls)
    (account : Way → Multiset RunningService) (h : Accounted s account)
    (hstep : s.step e = some t) : Accounted t (account + s.amount e) := by
  obtain ⟨hmoves, hstarts, hstops⟩ := moves_step h hstep
  refine ⟨hstarts, hstops, ?_, ?_, ?_, ?_, ?_⟩
  · show ids (account .created + s.created e) = _
    rw [ids_add, h.distinct, hmoves.issued]
  · show t.starting + (account .stored + s.stored e) = account .created + s.created e
    rw [← h.starting, add_left_comm, hmoves.starting]
    abel
  · show t.active + (account .taken + s.taken e) + (account .replaced + s.replaced e) =
      account .stored + s.stored e
    calc t.active + (account .taken + s.taken e) + (account .replaced + s.replaced e)
        = t.active + s.taken e + s.replaced e + account .taken + account .replaced := by abel
      _ = s.active + account .taken + account .replaced + s.stored e := by
          rw [hmoves.active]; abel
      _ = account .stored + s.stored e := by rw [h.active]
  · show t.stopping + (account .released + s.released e) = account .taken + s.taken e
    rw [← h.stopping, add_left_comm, hmoves.stopping]
    abel
  · show _ + handles (account .released + s.released e) = handles (account .created + s.created e)
    rw [handles_add, handles_add, ← h.tracked, add_left_comm, hmoves.tracked]
    abel

end Step

/-! ## Runs -/

section Runs

variable {events : List CallEvent} {s : Calls}

/-- The services that have gone a way in a run. -/
def moved (way : Way) (events : List CallEvent) : Multiset RunningService :=
  total step (fun s e => s.amount e way) new events

/-- So does a run. -/
theorem accounted_run (hrun : run step new events = some s) :
    Accounted s (fun way => moved way events) := by
  have haccount := run_account accounted_step accounted_new hrun
  have hmoved : (0 : Way → Multiset RunningService) + total step amount new events =
      fun way => moved way events := by
    rw [zero_add]
    funext way
    exact map_total (Pi.evalAddMonoidHom (fun _ : Way => Multiset RunningService) way) new events
  rwa [hmoved] at haccount

/-- Whatever starts and stops run at once, and however their steps come after each other:
every service that was ever started is with one start, or has been stored once; from there on
it is active, or was taken by one stop, or was replaced by one start; and what a stop has taken
it has released, or still has. -/
theorem services_accounted (hrun : run step new events = some s) :
    ids (moved .created events) = Multiset.range s.manager.issued ∧
      s.starting + moved .stored events = moved .created events ∧
      s.active + moved .taken events + moved .replaced events = moved .stored events ∧
      s.stopping + moved .released events = moved .taken events :=
  have h := accounted_run hrun
  ⟨h.distinct, h.starting, h.active, h.stopping⟩

/-- The handles of the process executor are those of the processes that a start, the manager
or a stop has, and of those that were replaced. So a stop always finds the handle and never
falls back on `kill`, and no handle is left over if and only if no process was replaced. -/
theorem handles_accounted (hrun : run step new events = some s) :
    ↑s.manager.runningProcesses.keys + ids s.tracking =
        handles (s.starting + s.active + s.stopping + moved .replaced events) ∧
      (∀ call ∈ s.stops, call.phase ≠ .kill) ∧
      ((∀ id ∈ s.manager.runningProcesses, id ∈ handles (s.starting + s.active + s.stopping)) ↔
        handles (moved .replaced events) = 0) := by
  have h := accounted_run hrun
  exact ⟨h.handles, fun call hcall => (h.stops call hcall).2, h.owned_iff⟩

/-- Two starts that both find the name free, and two stops after them. -/
def racingCalls : List CallEvent :=
  [.start "db" sleepConfig, .start "db" sleepConfig, .advanceStart 0 .nothing,
    .advanceStart 1 .nothing, .advanceStart 0 .nothing, .advanceStart 1 .nothing,
    .advanceStart 0 (.launched (.ok (some 11))), .advanceStart 1 (.launched (.ok (some 12))),
    .advanceStart 0 .nothing, .advanceStart 1 .nothing, .advanceStart 0 .nothing,
    .advanceStart 1 .nothing, .advanceStart 0 .nothing, .advanceStart 1 .nothing,
    .stop "db", .stop "db", .advanceStop 1 .nothing, .advanceStop 0 .nothing,
    .advanceStop 1 .nothing, .advanceStop 1 .nothing]

/-- Two starts of one name at once. -/
theorem services_accounted_race : ∃ s, run step new racingCalls = some s ∧
    ids (moved .created racingCalls) = Multiset.range s.manager.issued ∧
      s.starting + moved .stored racingCalls = moved .created racingCalls ∧
      s.active + moved .taken racingCalls + moved .replaced racingCalls =
        moved .stored racingCalls ∧
      s.stopping + moved .released racingCalls = moved .taken racingCalls :=
  ⟨_, rfl, services_accounted rfl⟩

/-- The second stop finds nothing, and the first process is still tracked. -/
theorem handles_accounted_race : ∃ s, run step new racingCalls = some s ∧
    s.manager.runningProcesses.keys = [0] ∧ handles (moved .replaced racingCalls) ≠ 0 := by
  refine ⟨_, rfl, rfl, ?_⟩
  intro hnone
  exact absurd ((handles_accounted rfl).2.2.mpr hnone 0 (by decide)) (by decide)

end Runs

end Calls

end GraphHarness.Orchestration
