import GraphHarness.ServiceRegistry.Registration

/-!
# States along a run

Only `update_state` asks `is_valid_transition`. `register` and `add_or_update` store the
entry they are given, in whatever state it is.

> `states_legal_iff` — the stored states move along the transitions **unless such an
> entry is written in a state that is not `Registered`, or that the transitions do not
> lead to**.

The storage may fail at every call here.

A step is legal if every stored state after it follows from the one before (`Follows`), where
a name without an entry may get one in the state `Registered`. `legal_attempt_iff` is exact
for one operation with any faults, and the run is legal exactly if each of its steps is.
Concurrent operations are the subject of `Transitions.lean`.
-/

namespace GraphHarness.ServiceRegistry

open Trace (after after_append)

/-- The writing half of `put_service` is reached. -/
def Faults.Writes (faults : Faults) : Prop := faults.get = .none ∧ faults.insert = .none

namespace Registry

section Attempt

variable {σ : Type} [RegistryBackend σ]

/-- One operation, with the storage calls of it that fail. -/
def attempt (registry : Registry σ) (op : Faults × Operation) : Registry σ × Outcome :=
  match op.2 with
  | .register entry now => (registry.register op.1 entry now).map id .sent
  | .addOrUpdate entry now => (registry.addOrUpdate op.1 entry now).map id .sent
  | .updateState name newState changedAt now =>
    (registry.updateState op.1 name newState changedAt now).map id .stateChanged
  | .updateEndpoints name endpoints now =>
    (registry.updateEndpoints op.1 name endpoints now).map id .sent
  | .deregister name now => (registry.deregister op.1 name now).map id .removed
  | .subscribe addr events => (registry.subscribe addr events, .subscription)
  | .unsubscribe addr events => (registry.unsubscribe addr events, .subscription)
  | .removeSubscriber addr => (registry.removeSubscriber addr, .subscription)
  | .get name => (registry, .found (registry.get op.1 name))
  | .list => (registry, .listed (registry.list op.1))
  | .listEndpoints => (registry, .endpoints (registry.listEndpoints op.1))

theorem attempt_none (registry : Registry σ) (op : Operation) :
    registry.attempt (Faults.none, op) = registry.perform op := by
  cases op with
  | _ => rfl

variable [LawfulBackend σ]

theorem attempt_register {registry : Registry σ} {entry : ServiceEntry}
    (h : registry.stored entry.name = none) (now : Timestamp) :
    (registry.attempt (Faults.none, .register entry now)).1 = registry.put entry := by
  rw [attempt_none, perform, register_absent h rfl]
  rfl

theorem stored_addOrUpdate (registry : Registry σ) (entry : ServiceEntry) (now : Timestamp) :
    (registry.attempt (Faults.none, .addOrUpdate entry now)).1.stored entry.name =
      some entry := by
  rw [attempt_none, perform, addOrUpdate_none]
  exact stored_put_self ..

end Attempt

/-! ## What is stored after an operation -/

variable {serde : Serde} {registry registry' : Registry (SledStore serde)}

theorem get_eq (registry : Registry (SledStore serde)) (faults : Faults) (name : String) :
    getService registry.backend faults name =
      match faults.get with
      | some e => .error (.database e)
      | none => .ok (registry.stored name) := by
  cases hget : faults.get with
  | some e => simp [getService, SledBackend.getService, hget]
  | none => exact SledBackend.getService_eq registry.backend.2 faults name hget

/-- A write stores the entry unless it fails before the flush. -/
theorem stored_storeAndEmit (registry : Registry (SledStore serde)) (faults : Faults)
    (entry : ServiceEntry) (eventType : EventType) (data : EventData) :
    (registry.storeAndEmit faults entry eventType data).1.stored =
      match faults.insert with
      | some _ => registry.stored
      | none => Function.update registry.stored entry.name (some entry) := by
  have hput : (registry.storeAndEmit faults entry eventType data).1.backend =
      (putService registry.backend faults entry).1 := by
    unfold storeAndEmit
    dsimp only
    split
    next => rfl
    next => rfl
  unfold stored
  rw [hput]
  show (registry.backend.1.putService faults entry).1.find = _
  unfold SledBackend.putService
  cases hinsert : faults.insert with
  | some e => rfl
  | none =>
    dsimp only
    cases faults.flush with
    | some e => exact SledBackend.find_store _ _
    | none => exact SledBackend.find_store _ _

theorem stored_deregister (registry : Registry (SledStore serde)) (faults : Faults)
    (name : String) (now : Timestamp) :
    (registry.deregister faults name now).1.stored = registry.stored ∨
      (registry.deregister faults name now).1.stored =
        Function.update registry.stored name none := by
  have hremove : (registry.deregister faults name now).1.backend.1 =
      (registry.backend.1.removeService faults name).1 := by
    unfold deregister
    dsimp only
    split
    next => rfl
    next => rfl
    next => rfl
  show SledBackend.find _ = SledBackend.find _ ∨ SledBackend.find _ = _
  rw [hremove]
  rcases registry.backend.1.removeService_cases faults name with hsame | herased
  · exact .inl (by rw [hsame])
  · exact .inr (by rw [herased]; exact SledBackend.find_erase _ _)

/-! ## One step -/

/-- The state may follow what is stored: a new service is registered, and another state
is one that the transitions lead to. -/
def Follows (found : Option ServiceEntry) (state : ServiceState) : Prop :=
  match found with
  | none => state = .registered
  | some entry => entry.state ≠ state → isValidTransition entry.state state = true

/-- A service that is there before and after has moved along a transition, and one that
is new is registered. -/
structure Legal (registry registry' : Registry (SledStore serde)) : Prop where
  moved : ∀ name old new, registry.stored name = some old → registry'.stored name = some new →
    old.state ≠ new.state → isValidTransition old.state new.state = true
  created : ∀ name new, registry.stored name = none → registry'.stored name = some new →
    new.state = .registered

/-- An entry that the operation writes as it was given is in a state that may follow. -/
def Respects (registry : Registry (SledStore serde)) : Faults × Operation → Prop
  | (faults, .register entry _) =>
    faults.Writes → registry.stored entry.name = none → entry.state = .registered
  | (faults, .addOrUpdate entry _) =>
    faults.Writes → Follows (registry.stored entry.name) entry.state
  | _ => True

theorem legal_iff : Legal registry registry' ↔ ∀ name new,
    registry'.stored name = some new → Follows (registry.stored name) new.state := by
  constructor
  · intro h name new hnew
    cases hold : registry.stored name with
    | none => exact h.created name new hold hnew
    | some old => exact h.moved name old new hold hnew
  · intro h
    constructor
    · intro name old new hold hnew
      have hfollows := h name new hnew
      rw [hold] at hfollows
      exact hfollows
    · intro name new hold hnew
      have hfollows := h name new hnew
      rw [hold] at hfollows
      exact hfollows

theorem follows_stored {name : String} {entry : ServiceEntry}
    (h : registry.stored name = some entry) : Follows (registry.stored name) entry.state := by
  rw [h]
  exact fun hne => absurd rfl hne

theorem legal_same (h : registry'.stored = registry.stored) : Legal registry registry' := by
  rw [legal_iff, h]
  intro name new hnew
  exact follows_stored hnew

theorem legal_erase {name : String}
    (h : registry'.stored = Function.update registry.stored name none) :
    Legal registry registry' := by
  rw [legal_iff, h]
  intro other new hnew
  by_cases hother : other = name
  · rw [hother, Function.update_self] at hnew
    cases hnew
  · rw [Function.update_of_ne hother] at hnew
    exact follows_stored hnew

theorem legal_write {entry : ServiceEntry}
    (h : registry'.stored = Function.update registry.stored entry.name (some entry)) :
    Legal registry registry' ↔ Follows (registry.stored entry.name) entry.state := by
  rw [legal_iff, h]
  constructor
  · intro hall
    exact hall entry.name entry (Function.update_self ..)
  · intro hfollows other new hnew
    by_cases hother : other = entry.name
    · subst hother
      rw [Function.update_self] at hnew
      obtain rfl := Option.some.inj hnew
      exact hfollows
    · rw [Function.update_of_ne hother] at hnew
      exact follows_stored hnew

theorem legal_storeAndEmit (registry : Registry (SledStore serde)) (faults : Faults)
    (entry : ServiceEntry) (eventType : EventType) (data : EventData) :
    Legal registry (registry.storeAndEmit faults entry eventType data).1 ↔
      (faults.insert = none → Follows (registry.stored entry.name) entry.state) := by
  have hstored := registry.stored_storeAndEmit faults entry eventType data
  cases hinsert : faults.insert with
  | some e =>
    rw [hinsert] at hstored
    simp [legal_same hstored]
  | none =>
    rw [hinsert] at hstored
    simp [legal_write hstored]

theorem legal_register (registry : Registry (SledStore serde)) (faults : Faults)
    (entry : ServiceEntry) (now : Timestamp) :
    Legal registry (registry.register faults entry now).1 ↔
      (faults.Writes → registry.stored entry.name = none → entry.state = .registered) := by
  unfold register Faults.Writes
  rw [get_eq]
  cases hget : faults.get with
  | some e => simp [legal_same]
  | none =>
    cases hfound : registry.stored entry.name with
    | some found => simp [legal_same]
    | none =>
      dsimp only
      rw [legal_storeAndEmit, hfound]
      simp [Follows]

theorem legal_addOrUpdate (registry : Registry (SledStore serde)) (faults : Faults)
    (entry : ServiceEntry) (now : Timestamp) :
    Legal registry (registry.addOrUpdate faults entry now).1 ↔
      (faults.Writes → Follows (registry.stored entry.name) entry.state) := by
  unfold addOrUpdate Faults.Writes
  rw [get_eq]
  cases hget : faults.get with
  | some e => simp [legal_same]
  | none =>
    dsimp only
    rw [legal_storeAndEmit]
    simp

/-- The transition is checked before the entry is written. -/
theorem legal_updateState (registry : Registry (SledStore serde)) (faults : Faults)
    (name : String) (newState : ServiceState) (changedAt now : Timestamp) :
    Legal registry (registry.updateState faults name newState changedAt now).1 := by
  unfold updateState
  split
  next => exact legal_same rfl
  next entry hget =>
    have hstored := stored_of_get hget
    dsimp only
    split
    next hvalid =>
      rw [legal_storeAndEmit]
      intro _
      rw [ServiceEntry.updateState_name, name_of_stored hstored, hstored]
      exact fun _ => hvalid
    next => exact legal_same rfl

theorem legal_updateEndpoints (registry : Registry (SledStore serde)) (faults : Faults)
    (name : String) (endpoints : List Endpoint) (now : Timestamp) :
    Legal registry (registry.updateEndpoints faults name endpoints now).1 := by
  unfold updateEndpoints
  split
  next => exact legal_same rfl
  next entry hget =>
    have hstored := stored_of_get hget
    rw [legal_storeAndEmit]
    intro _
    rw [name_of_stored hstored, hstored]
    exact fun hne => absurd rfl hne

theorem legal_deregister (registry : Registry (SledStore serde)) (faults : Faults)
    (name : String) (now : Timestamp) :
    Legal registry (registry.deregister faults name now).1 := by
  rcases registry.stored_deregister faults name now with hsame | herased
  · exact legal_same hsame
  · exact legal_erase herased

/-- An operation keeps the states legal if and only if what it writes follows what is stored. -/
theorem legal_attempt_iff (registry : Registry (SledStore serde)) (op : Faults × Operation) :
    Legal registry (registry.attempt op).1 ↔ registry.Respects op := by
  obtain ⟨faults, op⟩ := op
  cases op with
  | register entry now => exact legal_register registry faults entry now
  | addOrUpdate entry now => exact legal_addOrUpdate registry faults entry now
  | updateState name newState changedAt now =>
    exact iff_of_true (legal_updateState registry faults name newState changedAt now) trivial
  | updateEndpoints name endpoints now =>
    exact iff_of_true (legal_updateEndpoints registry faults name endpoints now) trivial
  | deregister name now => exact iff_of_true (legal_deregister registry faults name now) trivial
  | subscribe addr events => exact iff_of_true (legal_same rfl) trivial
  | unsubscribe addr events =>
    refine iff_of_true (legal_same ?_) trivial
    exact congrArg entries (backend_unsubscribe registry addr events)
  | removeSubscriber addr => exact iff_of_true (legal_same rfl) trivial
  | get name => exact iff_of_true (legal_same rfl) trivial
  | list => exact iff_of_true (legal_same rfl) trivial
  | listEndpoints => exact iff_of_true (legal_same rfl) trivial

end Registry

open Registry (Legal Respects attempt)

/-- In a run of operations every step is legal exactly if every entry that `register` or
`add_or_update` writes is in a state that may follow what is stored. -/
theorem states_legal_iff (serde : Serde) (registry : Registry (SledStore serde))
    (ops : List (Faults × Operation)) :
    (∀ earlier op later, ops = earlier ++ op :: later →
      Legal (after attempt registry earlier) (after attempt registry (earlier ++ [op]))) ↔
    ∀ earlier op later, ops = earlier ++ op :: later →
      Respects (after attempt registry earlier) op := by
  have hstep : ∀ earlier op,
      Legal (after attempt registry earlier) (after attempt registry (earlier ++ [op])) ↔
        Respects (after attempt registry earlier) op := by
    intro earlier op
    rw [after_append]
    exact Registry.legal_attempt_iff _ op
  simp only [hstep]

/-- A registered service is replaced by one that runs. -/
theorem states_not_legal :
    ¬ ∀ (serde : Serde) (ops earlier : List (Faults × Operation)) (op : Faults × Operation)
      (later : List (Faults × Operation)), ops = earlier ++ op :: later →
      Legal (after attempt (Registry.new serde) earlier)
        (after attempt (Registry.new serde) (earlier ++ [op])) := by
  intro h
  let entry := webEntry "1.0.0"
  let running : ServiceEntry := { entry with state := .running }
  have hlegal := h Serde.numbered _ [(Faults.none, .register entry 0)]
    (Faults.none, .addOrUpdate running 0) [] rfl
  rw [after_append, after, after, after, after] at hlegal
  have hentry : (attempt (Registry.new Serde.numbered)
      (Faults.none, .register entry 0)).1.stored "web" = some entry := by
    rw [Registry.attempt_register (Registry.stored_new _ _)]
    exact Registry.stored_put_self ..
  have hvalid := hlegal.moved "web" entry running hentry (Registry.stored_addOrUpdate ..)
    (by decide)
  cases hvalid

end GraphHarness.ServiceRegistry
