import GraphHarness.ServiceRegistry.Backend
import Mathlib.Data.Finset.Basic

/-!
# The registry (`service-registry/src/registry.rs`)

The operations on a registry, over any backend. The subscribers are kept in memory,
and an operation that changes a service returns the messages for them. What the clock
shows is an argument, twice where it is read twice.

Each operation is written with the faults of its calls to the storage (`Faults`), in the order
in which it makes them. The first group of lemmas is about an operation without faults, for a
name that is there or is not; the second one, about any faults, is what the results on failing
storages use.

`emit_event` reads the subscribers under a lock and returns the messages; nobody sends them,
which is the subject of `Delivery.lean`. Logging is left out.
-/

namespace GraphHarness.ServiceRegistry

/-- `EventSubscription`. -/
structure EventSubscription where
  events : Finset EventType

/-- `Registry`, over a backend. -/
structure Registry (σ : Type) where
  backend : σ
  subscribers : HashMap SocketAddr EventSubscription

/-- The messages to send, each with the address it goes to. -/
abbrev Messages := List (SocketAddr × WsMessage)

/-- `is_valid_transition`. -/
def isValidTransition : ServiceState → ServiceState → Bool
  | _, .failed => true
  | .registered, .starting => true
  | .stopped, .starting => true
  | .failed, .starting => true
  | .starting, .running => true
  | .running, .stopping => true
  | .starting, .stopping => true
  | .stopping, .stopped => true
  | _, _ => false

namespace Registry

variable {σ : Type}

/-- A registry nobody has subscribed to yet, which is what every constructor makes. -/
def withBackend (backend : σ) : Registry σ := ⟨backend, ∅⟩

/-- A new registry, on an empty database. -/
def new (serde : Serde) : Registry (SledStore serde) := withBackend SledStore.empty

/-- `emit_event`. The messages are returned, and it is for the caller to send them. -/
def emitEvent (registry : Registry σ) (eventType : EventType) (data : EventData) : Messages :=
  registry.subscribers.entries.filterMap fun subscriber =>
    if eventType ∈ subscriber.2.events then some (subscriber.1, .event eventType data) else none

/-- `subscribe`. A subscription replaces the one before. -/
def subscribe (registry : Registry σ) (addr : SocketAddr) (events : List EventType) :
    Registry σ :=
  { registry with subscribers := registry.subscribers.insert addr ⟨events.toFinset⟩ }

/-- `unsubscribe`. -/
def unsubscribe (registry : Registry σ) (addr : SocketAddr) (events : List EventType) :
    Registry σ :=
  match registry.subscribers.lookup addr with
  | some subscription =>
    let remaining := events.foldl Finset.erase subscription.events
    -- an empty subscription is removed
    if remaining = ∅ then { registry with subscribers := registry.subscribers.erase addr }
    else { registry with subscribers := registry.subscribers.insert addr ⟨remaining⟩ }
  | none => registry

/-- `remove_subscriber`. -/
def removeSubscriber (registry : Registry σ) (addr : SocketAddr) : Registry σ :=
  { registry with subscribers := registry.subscribers.erase addr }

variable [RegistryBackend σ]

/-- Stores an entry and, when that has worked, tells the subscribers. -/
def storeAndEmit (registry : Registry σ) (faults : Faults) (entry : ServiceEntry)
    (eventType : EventType) (data : EventData) : Registry σ × Except Error Messages :=
  let stored := putService registry.backend faults entry
  let registry := { registry with backend := stored.1 }
  match stored.2 with
  | .error e => (registry, .error e)
  | .ok () => (registry, .ok (registry.emitEvent eventType data))

/-- `register`. The name is looked up first, and the entry put behind an await. -/
def register (registry : Registry σ) (faults : Faults) (entry : ServiceEntry) (now : Timestamp) :
    Registry σ × Except Error Messages :=
  match getService registry.backend faults entry.name with
  | .error e => (registry, .error e)
  | .ok (some _) => (registry, .error (.serviceExists entry.name))
  | .ok none =>
    registry.storeAndEmit faults entry .serviceRegistered (.service entry.name now)

/-- `get`. -/
def get (registry : Registry σ) (faults : Faults) (name : String) : Except Error ServiceEntry :=
  match getService registry.backend faults name with
  | .error e => .error e
  | .ok (some entry) => .ok entry
  | .ok none => .error (.serviceNotFound name)

/-- `list`. A failure of the storage lists nothing. -/
def list (registry : Registry σ) (faults : Faults) : List ServiceEntry :=
  match listServices registry.backend faults with
  | .ok services => services
  | .error _ => []

/-- `update_state`. -/
def updateState (registry : Registry σ) (faults : Faults) (name : String)
    (newState : ServiceState) (changedAt now : Timestamp) :
    Registry σ × Except Error (ServiceState × Messages) :=
  match registry.get faults name with
  | .error e => (registry, .error e)
  | .ok entry =>
    let oldState := entry.state
    if isValidTransition oldState newState then
      let entry := entry.updateState newState changedAt
      let emitted := registry.storeAndEmit faults entry .serviceStateChanged
        (.stateChange name oldState newState now)
      (emitted.1, emitted.2.map (oldState, ·))
    else (registry, .error (.invalidStateTransition oldState newState))

/-- `update_endpoints`. -/
def updateEndpoints (registry : Registry σ) (faults : Faults) (name : String)
    (endpoints : List Endpoint) (now : Timestamp) : Registry σ × Except Error Messages :=
  match registry.get faults name with
  | .error e => (registry, .error e)
  | .ok entry =>
    registry.storeAndEmit faults { entry with endpoints := endpoints } .endpointUpdated
      (.endpoints name endpoints now)

/-- `list_endpoints`. A failure of the storage lists nothing. -/
def listEndpoints (registry : Registry σ) (faults : Faults) : HashMap String (List Endpoint) :=
  match listServices registry.backend faults with
  | .ok services =>
    services.foldl (fun endpoints service => endpoints.insert service.name service.endpoints) ∅
  | .error _ => ∅

/-- `deregister`. -/
def deregister (registry : Registry σ) (faults : Faults) (name : String) (now : Timestamp) :
    Registry σ × Except Error (ServiceEntry × Messages) :=
  let removed := removeService registry.backend faults name
  let registry := { registry with backend := removed.1 }
  match removed.2 with
  | .error e => (registry, .error e)
  | .ok none => (registry, .error (.serviceNotFound name))
  | .ok (some entry) =>
    (registry, .ok (entry, registry.emitEvent .serviceDeregistered (.service name now)))

/-- `add_or_update`. -/
def addOrUpdate (registry : Registry σ) (faults : Faults) (entry : ServiceEntry)
    (now : Timestamp) : Registry σ × Except Error Messages :=
  match getService registry.backend faults entry.name with
  | .error e => (registry, .error e)
  | .ok existing =>
    let eventType := if existing.isNone then .serviceRegistered else .serviceUpdated
    registry.storeAndEmit faults entry eventType (.service entry.name now)

/-! ## The operations on a storage that does not fail -/

/-- The registry after an entry was stored, and after a name was removed. -/
def put (registry : Registry σ) (entry : ServiceEntry) : Registry σ :=
  { registry with backend := (putService registry.backend Faults.none entry).1 }

/-- The registry without an entry. -/
def remove (registry : Registry σ) (name : String) : Registry σ :=
  { registry with backend := (removeService registry.backend Faults.none name).1 }

omit [RegistryBackend σ] in
/-- The event types an address is subscribed to. -/
def subscribed (registry : Registry σ) (addr : SocketAddr) : Finset EventType :=
  match registry.subscribers.lookup addr with
  | some subscription => subscription.events
  | none => ∅

omit [RegistryBackend σ] in
theorem emitEvent_congr {r r' : Registry σ} (h : r.subscribers = r'.subscribers)
    (eventType : EventType) (data : EventData) :
    r.emitEvent eventType data = r'.emitEvent eventType data := by
  unfold emitEvent
  rw [h]

variable [LawfulBackend σ]

/-- The entries, by name. -/
def stored (registry : Registry σ) : String → Option ServiceEntry := entries registry.backend

theorem name_of_stored {registry : Registry σ} {name : String} {entry : ServiceEntry}
    (h : registry.stored name = some entry) : entry.name = name := LawfulBackend.name_of_entries h

@[simp] theorem stored_put (registry : Registry σ) (entry : ServiceEntry) :
    (registry.put entry).stored = Function.update registry.stored entry.name (some entry) :=
  LawfulBackend.put_ok (LawfulBackend.put_none registry.backend entry)

theorem stored_put_self (registry : Registry σ) (entry : ServiceEntry) :
    (registry.put entry).stored entry.name = some entry := by
  rw [stored_put]
  exact Function.update_self ..

@[simp] theorem stored_remove (registry : Registry σ) (name : String) :
    (registry.remove name).stored = Function.update registry.stored name none :=
  LawfulBackend.remove_entries registry.backend name

theorem storeAndEmit_none (registry : Registry σ) (entry : ServiceEntry) (eventType : EventType)
    (data : EventData) : registry.storeAndEmit Faults.none entry eventType data =
      (registry.put entry, .ok (registry.emitEvent eventType data)) := by
  unfold storeAndEmit
  dsimp only
  rw [LawfulBackend.put_none]
  rfl

section Present

variable {registry : Registry σ} {name : String} {entry : ServiceEntry}
  (h : registry.stored name = some entry)
include h

theorem get_present : registry.get Faults.none name = .ok entry := by
  unfold get
  rw [LawfulBackend.get_none, show entries registry.backend name = some entry from h]

theorem register_present {entry' : ServiceEntry} (hname : entry'.name = name) (now : Timestamp) :
    registry.register Faults.none entry' now = (registry, .error (.serviceExists name)) := by
  unfold register
  rw [hname, LawfulBackend.get_none, show entries registry.backend name = some entry from h]

theorem updateState_invalid {newState : ServiceState}
    (hvalid : isValidTransition entry.state newState = false) (changedAt now : Timestamp) :
    registry.updateState Faults.none name newState changedAt now =
      (registry, .error (.invalidStateTransition entry.state newState)) := by
  unfold updateState
  rw [get_present h]
  simp [hvalid]

theorem updateState_valid {newState : ServiceState}
    (hvalid : isValidTransition entry.state newState = true) (changedAt now : Timestamp) :
    registry.updateState Faults.none name newState changedAt now =
      (registry.put (entry.updateState newState changedAt),
        .ok (entry.state, registry.emitEvent .serviceStateChanged
          (.stateChange name entry.state newState now))) := by
  unfold updateState
  rw [get_present h]
  simp only [hvalid, storeAndEmit_none]
  rfl

theorem updateEndpoints_present (endpoints : List Endpoint) (now : Timestamp) :
    registry.updateEndpoints Faults.none name endpoints now =
      (registry.put { entry with endpoints := endpoints },
        .ok (registry.emitEvent .endpointUpdated (.endpoints name endpoints now))) := by
  unfold updateEndpoints
  rw [get_present h]
  exact storeAndEmit_none ..

theorem deregister_present (now : Timestamp) :
    registry.deregister Faults.none name now = (registry.remove name,
      .ok (entry, registry.emitEvent .serviceDeregistered (.service name now))) := by
  unfold deregister
  dsimp only
  rw [LawfulBackend.remove_result, show entries registry.backend name = some entry from h]
  rfl

end Present

section Absent

variable {registry : Registry σ} {name : String} (h : registry.stored name = none)
include h

theorem get_absent : registry.get Faults.none name = .error (.serviceNotFound name) := by
  unfold get
  rw [LawfulBackend.get_none, show entries registry.backend name = none from h]

theorem register_absent {entry : ServiceEntry} (hname : entry.name = name) (now : Timestamp) :
    registry.register Faults.none entry now = (registry.put entry,
      .ok (registry.emitEvent .serviceRegistered (.service name now))) := by
  unfold register
  rw [hname, LawfulBackend.get_none, show entries registry.backend name = none from h]
  exact storeAndEmit_none ..

theorem updateState_absent (newState : ServiceState) (changedAt now : Timestamp) :
    registry.updateState Faults.none name newState changedAt now =
      (registry, .error (.serviceNotFound name)) := by
  unfold updateState
  rw [get_absent h]

theorem updateEndpoints_absent (endpoints : List Endpoint) (now : Timestamp) :
    registry.updateEndpoints Faults.none name endpoints now =
      (registry, .error (.serviceNotFound name)) := by
  unfold updateEndpoints
  rw [get_absent h]

theorem deregister_absent (now : Timestamp) :
    registry.deregister Faults.none name now = (registry, .error (.serviceNotFound name)) := by
  unfold deregister
  dsimp only
  rw [LawfulBackend.remove_result, show entries registry.backend name = none from h,
    LawfulBackend.remove_absent h]

end Absent

theorem addOrUpdate_none (registry : Registry σ) (entry : ServiceEntry) (now : Timestamp) :
    registry.addOrUpdate Faults.none entry now = (registry.put entry,
      .ok (registry.emitEvent
        (if (registry.stored entry.name).isNone then .serviceRegistered else .serviceUpdated)
        (.service entry.name now))) := by
  unfold addOrUpdate
  rw [LawfulBackend.get_none]
  exact storeAndEmit_none ..

/-! ## Whatever the storage does -/

theorem stored_of_get {registry : Registry σ} {faults : Faults} {name : String}
    {entry : ServiceEntry} (h : registry.get faults name = .ok entry) :
    registry.stored name = some entry := by
  unfold get at h
  split at h
  next => simp at h
  next found hget =>
    obtain rfl : found = entry := by simpa using h
    exact (LawfulBackend.get_ok hget).symm
  next => simp at h

/-- A registration stores its entry under a free name, or nothing. -/
theorem stored_register (registry : Registry σ) (faults : Faults) (entry : ServiceEntry)
    (now : Timestamp) :
    (registry.register faults entry now).1.stored = registry.stored ∨
      registry.stored entry.name = none ∧ (registry.register faults entry now).1.stored =
        Function.update registry.stored entry.name (some entry) := by
  unfold register
  split
  next => exact .inl rfl
  next => exact .inl rfl
  next hget =>
    have hfree : registry.stored entry.name = none := (LawfulBackend.get_ok hget).symm
    have hput := LawfulBackend.put_cases registry.backend faults entry
    unfold storeAndEmit
    dsimp only
    split
    next => exact hput.imp id fun h => ⟨hfree, h⟩
    next => exact hput.imp id fun h => ⟨hfree, h⟩

/-- A transition that is not allowed changes nothing. -/
theorem updateState_rejected {registry : Registry σ} {name : String} {newState : ServiceState}
    (h : ∀ entry, registry.stored name = some entry →
      isValidTransition entry.state newState = false)
    (faults : Faults) (changedAt now : Timestamp) :
    (registry.updateState faults name newState changedAt now).1 = registry := by
  unfold updateState
  split
  next => rfl
  next entry hget =>
    dsimp only
    rw [h entry (stored_of_get hget)]
    rfl

end Registry

end GraphHarness.ServiceRegistry
