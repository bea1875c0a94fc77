import GraphHarness.ServiceRegistry.Refinement
import GraphHarness.Trace.Interleave

/-!
# Concurrent calls on one registry

All connections share one `Registry`, and nothing holds a lock over an operation. Each
call to the storage is one atomic step here: `register`, `add_or_update`, `update_state`
and `update_endpoints` read the entry in a first step and write it in a second one, and
the other operations call the storage once.

`first` and `second` are the two halves of an operation, and `alone_eq_perform` says that
together they are the operation of `Registry.lean` when nothing comes in between. The general
theory of such calls, and of when they could have run one after the other, is that of
`Trace.Interleave`.

sled's own calls are atomic, so nothing finer than these halves can be observed. The
subscribers are behind a lock of their own and are asked for at the end of the second half;
the storage does not fail here.
-/

namespace GraphHarness.ServiceRegistry

open Trace (Staged Calls)

namespace Registry

variable {σ : Type} [RegistryBackend σ]

/-- Up to the first `await` that has called the storage: what the operation goes on
with, or its outcome. -/
def first (registry : Registry σ) (op : Operation) :
    Registry σ × (Option ServiceEntry ⊕ Outcome) :=
  match op with
  | .register entry _ =>
    match getService registry.backend Faults.none entry.name with
    | .error e => (registry, .inr (.sent (.error e)))
    | .ok (some _) => (registry, .inr (.sent (.error (.serviceExists entry.name))))
    | .ok none => (registry, .inl none)
  | .addOrUpdate entry _ =>
    match getService registry.backend Faults.none entry.name with
    | .error e => (registry, .inr (.sent (.error e)))
    | .ok existing => (registry, .inl existing)
  | .updateState name newState _ _ =>
    match registry.get Faults.none name with
    | .error e => (registry, .inr (.stateChanged (.error e)))
    | .ok entry =>
      if isValidTransition entry.state newState then (registry, .inl (some entry))
      else (registry, .inr (.stateChanged
        (.error (.invalidStateTransition entry.state newState))))
  | .updateEndpoints name _ _ =>
    match registry.get Faults.none name with
    | .error e => (registry, .inr (.sent (.error e)))
    | .ok entry => (registry, .inl (some entry))
  | op => (registry.perform op).map id .inr

/-- The rest of an operation that has read the entry. -/
def second (registry : Registry σ) (op : Operation) (seen : Option ServiceEntry) :
    Registry σ × Outcome :=
  match op, seen with
  | .register entry now, _ =>
    (registry.storeAndEmit Faults.none entry .serviceRegistered (.service entry.name now)).map
      id .sent
  | .addOrUpdate entry now, existing =>
    let eventType := if existing.isNone then .serviceRegistered else .serviceUpdated
    (registry.storeAndEmit Faults.none entry eventType (.service entry.name now)).map id .sent
  | .updateState name newState changedAt now, some entry =>
    let emitted := registry.storeAndEmit Faults.none (entry.updateState newState changedAt)
      .serviceStateChanged (.stateChange name entry.state newState now)
    (emitted.1, .stateChanged (emitted.2.map (entry.state, ·)))
  | .updateEndpoints name endpoints now, some entry =>
    (registry.storeAndEmit Faults.none { entry with endpoints := endpoints } .endpointUpdated
      (.endpoints name endpoints now)).map id .sent
  -- no other operation has a second step
  | op, _ => registry.perform op

/-- The first half only reads, if there is a second. -/
theorem first_reads (registry : Registry σ) (op : Operation) (seen : Option ServiceEntry)
    (h : (registry.first op).2 = .inl seen) : (registry.first op).1 = registry := by
  unfold first at h ⊢
  split
  next =>
    split
    next => rfl
    next => rfl
    next => rfl
  next =>
    split
    next => rfl
    next => rfl
  next =>
    split
    next => rfl
    next =>
      split
      next => rfl
      next => rfl
  next =>
    split
    next => rfl
    next => rfl
  next => simp at h

/-- The operations, taken apart at their calls to the storage. -/
def staged : Staged (Registry σ) Operation (Option ServiceEntry) Outcome where
  first := first
  second := second
  first_reads := first_reads

/-- A call that runs alone is the operation. -/
theorem alone_eq_perform (registry : Registry σ) (op : Operation) :
    staged.alone registry op = registry.perform op := by
  unfold Staged.alone
  cases op with
  | register entry now =>
    simp only [staged, first, perform, register]
    cases getService registry.backend Faults.none entry.name with
    | error e => rfl
    | ok found =>
      cases found with
      | some _ => rfl
      | none => rfl
  | addOrUpdate entry now =>
    simp only [staged, first, perform, addOrUpdate]
    cases getService registry.backend Faults.none entry.name with
    | error e => rfl
    | ok existing => rfl
  | updateState name newState changedAt now =>
    simp only [staged, first, perform, updateState]
    cases registry.get Faults.none name with
    | error e => rfl
    | ok entry =>
      dsimp only
      cases isValidTransition entry.state newState with
      | true => rfl
      | false => rfl
  | updateEndpoints name endpoints now =>
    simp only [staged, first, perform, updateEndpoints]
    cases registry.get Faults.none name with
    | error e => rfl
    | ok entry => rfl
  | deregister name now => rfl
  | subscribe addr events => rfl
  | unsubscribe addr events => rfl
  | removeSubscriber addr => rfl
  | get name => rfl
  | list => rfl
  | listEndpoints => rfl

variable [LawfulBackend σ] {registry : Registry σ}

/-- A name that is taken is refused. -/
theorem first_register_present {entry found : ServiceEntry}
    (h : registry.stored entry.name = some found) (now : Timestamp) :
    registry.first (.register entry now) =
      (registry, .inr (.sent (.error (.serviceExists entry.name)))) := by
  unfold first
  dsimp only
  rw [LawfulBackend.get_none, show entries registry.backend entry.name = some found from h]

/-- A name that is free is found free. -/
theorem first_register_absent {entry : ServiceEntry} (h : registry.stored entry.name = none)
    (now : Timestamp) : registry.first (.register entry now) = (registry, .inl none) := by
  unfold first
  dsimp only
  rw [LawfulBackend.get_none, show entries registry.backend entry.name = none from h]

/-- Then the entry is put, whatever came in between. -/
theorem second_register (registry : Registry σ) (entry : ServiceEntry) (now : Timestamp)
    (seen : Option ServiceEntry) : registry.second (.register entry now) seen =
      (registry.put entry,
        .sent (.ok (registry.emitEvent .serviceRegistered (.service entry.name now)))) := by
  unfold second
  dsimp only
  rw [storeAndEmit_none]
  rfl

/-- A change of an unknown service is refused. -/
theorem first_updateState_absent {name : String} (h : registry.stored name = none)
    (newState : ServiceState) (changedAt now : Timestamp) :
    registry.first (.updateState name newState changedAt now) =
      (registry, .inr (.stateChanged (.error (.serviceNotFound name)))) := by
  unfold first
  dsimp only
  rw [get_absent h]

/-- A change is checked against the entry that is found. -/
theorem first_updateState_present {name : String} {entry : ServiceEntry}
    (h : registry.stored name = some entry) (newState : ServiceState)
    (changedAt now : Timestamp) : registry.first (.updateState name newState changedAt now) =
      (registry, if isValidTransition entry.state newState then .inl (some entry)
        else .inr (.stateChanged (.error (.invalidStateTransition entry.state newState)))) := by
  unfold first
  dsimp only
  rw [get_present h]
  dsimp only
  cases isValidTransition entry.state newState with
  | true => rfl
  | false => rfl

/-- Then the changed entry is put, whatever came in between. -/
theorem second_updateState (registry : Registry σ) (name : String) (newState : ServiceState)
    (changedAt now : Timestamp) (entry : ServiceEntry) :
    registry.second (.updateState name newState changedAt now) (some entry) =
      (registry.put (entry.updateState newState changedAt),
        .stateChanged (.ok (entry.state, registry.emitEvent .serviceStateChanged
          (.stateChange name entry.state newState now)))) := by
  unfold second
  dsimp only
  rw [storeAndEmit_none]
  rfl

/-- Endpoints of an unknown service are refused. -/
theorem first_updateEndpoints_absent {name : String} (h : registry.stored name = none)
    (endpoints : List Endpoint) (now : Timestamp) :
    registry.first (.updateEndpoints name endpoints now) =
      (registry, .inr (.sent (.error (.serviceNotFound name)))) := by
  unfold first
  dsimp only
  rw [get_absent h]

/-- A known service is found. -/
theorem first_updateEndpoints_present {name : String} {entry : ServiceEntry}
    (h : registry.stored name = some entry) (endpoints : List Endpoint) (now : Timestamp) :
    registry.first (.updateEndpoints name endpoints now) = (registry, .inl (some entry)) := by
  unfold first
  dsimp only
  rw [get_present h]

/-- Then the entry is put with its endpoints, whatever came in between. -/
theorem second_updateEndpoints (registry : Registry σ) (name : String) (endpoints : List Endpoint)
    (now : Timestamp) (entry : ServiceEntry) :
    registry.second (.updateEndpoints name endpoints now) (some entry) =
      (registry.put { entry with endpoints := endpoints },
        .sent (.ok (registry.emitEvent .endpointUpdated (.endpoints name endpoints now)))) := by
  unfold second
  dsimp only
  rw [storeAndEmit_none]
  rfl

end Registry

/-- Calls in progress on a registry. -/
abbrev RegistryCalls (σ : Type) := Calls (Registry σ) Operation (Option ServiceEntry) Outcome

end GraphHarness.ServiceRegistry
