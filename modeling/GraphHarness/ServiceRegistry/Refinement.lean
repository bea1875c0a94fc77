import GraphHarness.ServiceRegistry.Registry
import GraphHarness.Trace.Simulation

/-!
# The registry is a map with subscribers

`Directory` says what a registry is for: a map from names to entries, and for every
address the event types it has asked for. `Allows` says how each operation may be
answered. The registry answers so in every run, over any backend that keeps entries
under their names.

The entries of the directory are those of the backend, its subscribers those of the map in
memory. One operation is looked at by itself (`perform_allowed`) and runs follow by the
general simulation of `Trace.Simulation`. The statement is about a storage that does not fail;
what failing calls leave behind is that of `perform_failed` and of the modules that have
faults in their hypotheses.

Whom a message is for is part of the answer: each subscriber of the type, once, whatever the
order of the map.
-/

namespace GraphHarness.ServiceRegistry

open Trace (Accepts history after accepts_of_simulation)

/-- A call of the registry about a service. -/
inductive Operation where
  | register (entry : ServiceEntry) (now : Timestamp)
  | addOrUpdate (entry : ServiceEntry) (now : Timestamp)
  | updateState (name : String) (newState : ServiceState) (changedAt now : Timestamp)
  | updateEndpoints (name : String) (endpoints : List Endpoint) (now : Timestamp)
  | deregister (name : String) (now : Timestamp)
  | subscribe (addr : SocketAddr) (events : List EventType)
  | unsubscribe (addr : SocketAddr) (events : List EventType)
  | removeSubscriber (addr : SocketAddr)
  | get (name : String)
  | list
  | listEndpoints

/-- What an operation returns. -/
inductive Outcome where
  | sent (result : Except Error Messages)
  | stateChanged (result : Except Error (ServiceState × Messages))
  | removed (result : Except Error (ServiceEntry × Messages))
  | subscription
  | found (result : Except Error ServiceEntry)
  | listed (services : List ServiceEntry)
  | endpoints (endpoints : HashMap String (List Endpoint))

/-- The outcome is an error. It comes without messages then. -/
def Outcome.isErr : Outcome → Bool
  | .sent (.error _) => true
  | .stateChanged (.error _) => true
  | .removed (.error _) => true
  | .found (.error _) => true
  | _ => false

namespace Registry

variable {σ : Type} [RegistryBackend σ]

/-- One operation, on a storage that does not fail. -/
def perform (registry : Registry σ) : Operation → Registry σ × Outcome
  | .register entry now => (registry.register Faults.none entry now).map id .sent
  | .addOrUpdate entry now => (registry.addOrUpdate Faults.none entry now).map id .sent
  | .updateState name newState changedAt now =>
    (registry.updateState Faults.none name newState changedAt now).map id .stateChanged
  | .updateEndpoints name endpoints now =>
    (registry.updateEndpoints Faults.none name endpoints now).map id .sent
  | .deregister name now => (registry.deregister Faults.none name now).map id .removed
  | .subscribe addr events => (registry.subscribe addr events, .subscription)
  | .unsubscribe addr events => (registry.unsubscribe addr events, .subscription)
  | .removeSubscriber addr => (registry.removeSubscriber addr, .subscription)
  | .get name => (registry, .found (registry.get Faults.none name))
  | .list => (registry, .listed (registry.list Faults.none))
  | .listEndpoints => (registry, .endpoints (registry.listEndpoints Faults.none))

end Registry

/-! ## The abstract registry -/

/-- What the registry is for: the entries by name, and who listens to what. -/
structure Directory where
  entries : String → Option ServiceEntry
  subscribed : SocketAddr → Finset EventType

namespace Directory

/-- Nothing is entered, and nobody listens. -/
def empty : Directory := ⟨fun _ => none, fun _ => ∅⟩

/-- An entry is put under its name. -/
def put (d : Directory) (entry : ServiceEntry) : Directory :=
  { d with entries := Function.update d.entries entry.name (some entry) }

/-- An entry is taken away. -/
def remove (d : Directory) (name : String) : Directory :=
  { d with entries := Function.update d.entries name none }

/-- An address listens to these types from now on. -/
def ask (d : Directory) (addr : SocketAddr) (events : Finset EventType) : Directory :=
  { d with subscribed := Function.update d.subscribed addr events }

/-- One message for every address that has asked for the type, and no others. -/
def FansOut (d : Directory) (eventType : EventType) (data : EventData) (messages : Messages) :
    Prop :=
  ∀ addr, messages.filter (fun message => message.1 = addr) =
    if eventType ∈ d.subscribed addr then [(addr, .event eventType data)] else []

/-- How an operation may be answered, and what it leaves. -/
def Allows (d : Directory) : Operation → Outcome → Directory → Prop
  | .register entry now, .sent result, d' =>
    match d.entries entry.name with
    | some _ => result = .error (.serviceExists entry.name) ∧ d' = d
    | none => d' = d.put entry ∧ ∃ messages, result = .ok messages ∧
        d.FansOut .serviceRegistered (.service entry.name now) messages
  | .addOrUpdate entry now, .sent result, d' =>
    d' = d.put entry ∧ ∃ messages, result = .ok messages ∧
      d.FansOut (match d.entries entry.name with
        | some _ => .serviceUpdated
        | none => .serviceRegistered) (.service entry.name now) messages
  | .updateState name newState changedAt now, .stateChanged result, d' =>
    match d.entries name with
    | none => result = .error (.serviceNotFound name) ∧ d' = d
    | some entry =>
      if isValidTransition entry.state newState then
        d' = d.put (entry.updateState newState changedAt) ∧
          ∃ messages, result = .ok (entry.state, messages) ∧
            d.FansOut .serviceStateChanged (.stateChange name entry.state newState now) messages
      else result = .error (.invalidStateTransition entry.state newState) ∧ d' = d
  | .updateEndpoints name endpoints now, .sent result, d' =>
    match d.entries name with
    | none => result = .error (.serviceNotFound name) ∧ d' = d
    | some entry =>
      d' = d.put { entry with endpoints := endpoints } ∧ ∃ messages, result = .ok messages ∧
        d.FansOut .endpointUpdated (.endpoints name endpoints now) messages
  | .deregister name now, .removed result, d' =>
    match d.entries name with
    | none => result = .error (.serviceNotFound name) ∧ d' = d
    | some entry =>
      d' = d.remove name ∧ ∃ messages, result = .ok (entry, messages) ∧
        d.FansOut .serviceDeregistered (.service name now) messages
  | .subscribe addr events, .subscription, d' => d' = d.ask addr events.toFinset
  | .unsubscribe addr events, .subscription, d' =>
    d' = d.ask addr (d.subscribed addr \ events.toFinset)
  | .removeSubscriber addr, .subscription, d' => d' = d.ask addr ∅
  | .get name, .found result, d' =>
    d' = d ∧ result = match d.entries name with
      | some entry => .ok entry
      | none => .error (.serviceNotFound name)
  | .list, .listed services, d' =>
    d' = d ∧ (services.map ServiceEntry.name).Nodup ∧
      ∀ entry, entry ∈ services ↔ d.entries entry.name = some entry
  | .listEndpoints, .endpoints endpoints, d' =>
    d' = d ∧ ∀ name, endpoints.lookup name = (d.entries name).map ServiceEntry.endpoints
  | _, _, _ => False

end Directory

/-! ## The registry as a directory -/

namespace Registry

variable {σ : Type}

/-- The messages come from the list of subscribers, where no address occurs twice. -/
theorem filter_emit {subscribers : List (Σ _ : SocketAddr, EventSubscription)}
    (hnodup : subscribers.NodupKeys) (eventType : EventType) (data : EventData)
    (addr : SocketAddr) :
    (subscribers.filterMap fun subscriber =>
        if eventType ∈ subscriber.2.events then
          some (subscriber.1, WsMessage.event eventType data)
        else none).filter (fun message => message.1 = addr) =
      match List.dlookup addr subscribers with
      | some subscription =>
        if eventType ∈ subscription.events then [(addr, .event eventType data)] else []
      | none => [] := by
  induction subscribers with
  | nil => rfl
  | cons subscriber subscribers ih =>
    obtain ⟨addr', subscription⟩ := subscriber
    obtain ⟨hnew, hnodup⟩ := List.nodupKeys_cons.mp hnodup
    specialize ih hnodup
    by_cases haddr : addr' = addr
    · subst haddr
      rw [List.dlookup_eq_none.mpr hnew] at ih
      rw [List.dlookup_cons_eq]
      by_cases hmem : eventType ∈ subscription.events
      · simp [hmem, ih]
      · simp [hmem, ih]
    · have hne : addr ≠ addr' := fun he => haddr he.symm
      rw [List.dlookup_cons_ne _ _ hne, ← ih]
      by_cases hmem : eventType ∈ subscription.events
      · simp [hmem, haddr]
      · simp [hmem]

theorem foldl_erase (events : List EventType) : ∀ remaining : Finset EventType,
    events.foldl Finset.erase remaining = remaining \ events.toFinset := by
  induction events with
  | nil => intro remaining; simp
  | cons event events ih =>
    intro remaining
    rw [List.foldl_cons, ih, List.toFinset_cons, Finset.sdiff_insert, Finset.erase_sdiff_comm]

theorem subscribed_subscribe (registry : Registry σ) (addr : SocketAddr) (events : List EventType) :
    (registry.subscribe addr events).subscribed =
      Function.update registry.subscribed addr events.toFinset := by
  funext other
  unfold subscribed subscribe
  by_cases haddr : other = addr
  · subst haddr
    simp
  · rw [Function.update_of_ne haddr, AList.lookup_insert_ne haddr]

theorem subscribed_removeSubscriber (registry : Registry σ) (addr : SocketAddr) :
    (registry.removeSubscriber addr).subscribed = Function.update registry.subscribed addr ∅ := by
  funext other
  unfold subscribed removeSubscriber
  by_cases haddr : other = addr
  · subst haddr
    simp
  · rw [Function.update_of_ne haddr, AList.lookup_erase_ne haddr]

/-- Dropping an empty subscription cannot be seen. -/
theorem subscribed_unsubscribe (registry : Registry σ) (addr : SocketAddr)
    (events : List EventType) : (registry.unsubscribe addr events).subscribed =
      Function.update registry.subscribed addr (registry.subscribed addr \ events.toFinset) := by
  cases hsub : registry.subscribers.lookup addr with
  | none =>
    have hempty : registry.subscribed addr = ∅ := by simp [subscribed, hsub]
    have hsame : registry.unsubscribe addr events = registry := by simp [unsubscribe, hsub]
    rw [hsame, hempty, Finset.empty_sdiff, ← hempty, Function.update_eq_self]
  | some subscription =>
    have hevents : registry.subscribed addr = subscription.events := by simp [subscribed, hsub]
    rw [hevents, ← foldl_erase]
    unfold unsubscribe
    rw [hsub]
    dsimp only
    split
    next hremaining =>
      rw [hremaining]
      exact subscribed_removeSubscriber registry addr
    next =>
      funext other
      unfold subscribed
      by_cases haddr : other = addr
      · subst haddr
        simp
      · rw [Function.update_of_ne haddr, AList.lookup_insert_ne haddr]

theorem backend_unsubscribe (registry : Registry σ) (addr : SocketAddr) (events : List EventType) :
    (registry.unsubscribe addr events).backend = registry.backend := by
  unfold unsubscribe
  split
  next =>
    dsimp only
    split
    next => rfl
    next => rfl
  next => rfl

variable [RegistryBackend σ] [LawfulBackend σ]

/-- What a registry holds. -/
def directory (registry : Registry σ) : Directory := ⟨registry.stored, registry.subscribed⟩

theorem fansOut_emitEvent (registry : Registry σ) (eventType : EventType) (data : EventData) :
    registry.directory.FansOut eventType data (registry.emitEvent eventType data) := by
  intro addr
  unfold emitEvent
  rw [filter_emit registry.subscribers.nodupKeys]
  show _ = if eventType ∈ registry.subscribed addr then
    [(addr, WsMessage.event eventType data)] else []
  unfold subscribed AList.lookup
  cases List.dlookup addr registry.subscribers.entries with
  | some subscription => rfl
  | none => simp

theorem directory_put (registry : Registry σ) (entry : ServiceEntry) :
    (registry.put entry).directory = registry.directory.put entry := by
  unfold directory Directory.put
  rw [stored_put]
  rfl

theorem directory_remove (registry : Registry σ) (name : String) :
    (registry.remove name).directory = registry.directory.remove name := by
  unfold directory Directory.remove
  rw [stored_remove]
  rfl

theorem list_spec (registry : Registry σ) :
    ((registry.list Faults.none).map ServiceEntry.name).Nodup ∧
      ∀ entry, entry ∈ registry.list Faults.none ↔ registry.stored entry.name = some entry := by
  obtain ⟨services, hlist, hnodup, hmem⟩ := LawfulBackend.list_none registry.backend
  unfold list
  rw [hlist]
  exact ⟨hnodup, hmem⟩

/-- The map built from a list that has every name once. -/
theorem lookup_endpoints {services : List ServiceEntry}
    (hnodup : (services.map ServiceEntry.name).Nodup) (name : String) :
    ∀ endpoints : HashMap String (List Endpoint),
      (services.foldl (fun endpoints service =>
        endpoints.insert service.name service.endpoints) endpoints).lookup name =
        match services.find? (fun service => service.name = name) with
        | some service => some service.endpoints
        | none => endpoints.lookup name := by
  induction services with
  | nil => intro endpoints; rfl
  | cons service services ih =>
    intro endpoints
    rw [List.map_cons, List.nodup_cons] at hnodup
    rw [List.foldl_cons, ih hnodup.2]
    by_cases hname : service.name = name
    · have hnone : services.find? (fun service => service.name = name) = none := by
        rw [List.find?_eq_none]
        intro other hother hsame
        apply hnodup.1
        rw [hname, ← of_decide_eq_true hsame]
        exact List.mem_map_of_mem hother
      rw [hnone, List.find?_cons_of_pos (by simpa using hname), ← hname]
      exact AList.lookup_insert _
    · rw [List.find?_cons_of_neg (by simpa using hname),
        AList.lookup_insert_ne (fun he => hname he.symm)]

theorem lookup_listEndpoints (registry : Registry σ) (name : String) :
    (registry.listEndpoints Faults.none).lookup name =
      (registry.stored name).map ServiceEntry.endpoints := by
  obtain ⟨services, hlist, hnodup, hmem⟩ := LawfulBackend.list_none registry.backend
  unfold listEndpoints
  rw [hlist]
  dsimp only
  rw [lookup_endpoints hnodup]
  cases hfind : services.find? (fun service => service.name = name) with
  | some service =>
    have hname : service.name = name := by simpa using List.find?_some hfind
    have hstored := (hmem service).mp (List.mem_of_find?_eq_some hfind)
    rw [hname] at hstored
    rw [show registry.stored name = some service from hstored]
    rfl
  | none =>
    cases hstored : registry.stored name with
    | none => simp
    | some entry =>
      -- the entry is in the list, under its name
      have hname := name_of_stored hstored
      rw [← hname] at hstored
      have hlisted := (hmem entry).mpr hstored
      exact absurd hname (by simpa using List.find?_eq_none.mp hfind entry hlisted)

/-- One operation is answered as the directory allows. -/
theorem perform_allowed (registry : Registry σ) (op : Operation) :
    registry.directory.Allows op (registry.perform op).2 (registry.perform op).1.directory := by
  have hentries : registry.directory.entries = registry.stored := rfl
  cases op with
  | register entry now =>
    cases h : registry.stored entry.name with
    | some found =>
      simp only [perform, register_present h rfl, Directory.Allows, hentries, h, Prod.map, id_eq,
        and_self]
    | none =>
      simp only [perform, register_absent h rfl, Directory.Allows, hentries, h, Prod.map]
      exact ⟨directory_put registry entry, _, rfl, fansOut_emitEvent _ _ _⟩
  | addOrUpdate entry now =>
    simp only [perform, addOrUpdate_none, Directory.Allows, hentries, Prod.map]
    refine ⟨directory_put registry entry, _, rfl, ?_⟩
    cases registry.stored entry.name with
    | some found => exact fansOut_emitEvent _ _ _
    | none => exact fansOut_emitEvent _ _ _
  | updateState name newState changedAt now =>
    cases h : registry.stored name with
    | none =>
      simp only [perform, updateState_absent h, Directory.Allows, hentries, h, Prod.map, id_eq,
        and_self]
    | some entry =>
      by_cases hvalid : isValidTransition entry.state newState = true
      · simp only [perform, updateState_valid h hvalid, Directory.Allows, hentries, h, Prod.map,
          hvalid, if_true]
        exact ⟨directory_put registry _, _, rfl, fansOut_emitEvent _ _ _⟩
      · rw [Bool.not_eq_true] at hvalid
        simp only [perform, updateState_invalid h hvalid, Directory.Allows, hentries, h, Prod.map,
          hvalid, id_eq, Bool.false_eq_true, if_false, and_self]
  | updateEndpoints name endpoints now =>
    cases h : registry.stored name with
    | none =>
      simp only [perform, updateEndpoints_absent h, Directory.Allows, hentries, h, Prod.map, id_eq,
        and_self]
    | some entry =>
      simp only [perform, updateEndpoints_present h, Directory.Allows, hentries, h, Prod.map]
      exact ⟨directory_put registry _, _, rfl, fansOut_emitEvent _ _ _⟩
  | deregister name now =>
    cases h : registry.stored name with
    | none =>
      simp only [perform, deregister_absent h, Directory.Allows, hentries, h, Prod.map, id_eq,
        and_self]
    | some entry =>
      simp only [perform, deregister_present h, Directory.Allows, hentries, h, Prod.map]
      exact ⟨directory_remove registry name, _, rfl, fansOut_emitEvent _ _ _⟩
  | subscribe addr events =>
    show _ = registry.directory.ask addr events.toFinset
    unfold directory Directory.ask
    rw [perform, subscribed_subscribe]
    rfl
  | unsubscribe addr events =>
    show _ = registry.directory.ask addr (registry.subscribed addr \ events.toFinset)
    unfold directory Directory.ask
    rw [perform, subscribed_unsubscribe, stored, backend_unsubscribe]
    rfl
  | removeSubscriber addr =>
    show _ = registry.directory.ask addr ∅
    unfold directory Directory.ask
    rw [perform, subscribed_removeSubscriber]
    rfl
  | get name =>
    refine ⟨rfl, ?_⟩
    rw [hentries]
    cases h : registry.stored name with
    | some entry => exact get_present h
    | none => exact get_absent h
  | list => exact ⟨rfl, list_spec registry⟩
  | listEndpoints => exact ⟨rfl, lookup_listEndpoints registry⟩

/-- An operation that fails changes nothing. -/
theorem perform_failed (registry : Registry σ) (op : Operation)
    (hfailed : (registry.perform op).2.isErr = true) : (registry.perform op).1 = registry := by
  cases op with
  | register entry now =>
    cases h : registry.stored entry.name with
    | some found => rw [perform, register_present h rfl]; rfl
    | none =>
      rw [perform, register_absent h rfl] at hfailed
      exact Bool.noConfusion hfailed
  | addOrUpdate entry now =>
    rw [perform, addOrUpdate_none] at hfailed
    exact Bool.noConfusion hfailed
  | updateState name newState changedAt now =>
    cases h : registry.stored name with
    | none => rw [perform, updateState_absent h]; rfl
    | some entry =>
      by_cases hvalid : isValidTransition entry.state newState = true
      · rw [perform, updateState_valid h hvalid] at hfailed
        exact Bool.noConfusion hfailed
      · rw [Bool.not_eq_true] at hvalid
        rw [perform, updateState_invalid h hvalid]; rfl
  | updateEndpoints name endpoints now =>
    cases h : registry.stored name with
    | none => rw [perform, updateEndpoints_absent h]; rfl
    | some entry =>
      rw [perform, updateEndpoints_present h] at hfailed
      exact Bool.noConfusion hfailed
  | deregister name now =>
    cases h : registry.stored name with
    | none => rw [perform, deregister_absent h]; rfl
    | some entry =>
      rw [perform, deregister_present h] at hfailed
      exact Bool.noConfusion hfailed
  | subscribe addr events => exact Bool.noConfusion hfailed
  | unsubscribe addr events => exact Bool.noConfusion hfailed
  | removeSubscriber addr => exact Bool.noConfusion hfailed
  | get name => rfl
  | list => rfl
  | listEndpoints => rfl

theorem stored_new (serde : Serde) (name : String) : (new serde).stored name = none :=
  SledStore.entries_empty name

theorem directory_new (serde : Serde) : (new serde).directory = Directory.empty := by
  have hstored : (new serde).stored = fun _ => none := funext (stored_new serde)
  unfold directory
  rw [hstored]
  rfl

end Registry

/-- Every run of a registry on sled is one of the directory it holds, and an operation
that fails changes nothing. -/
theorem registry_refines_directory (serde : Serde) (registry : Registry (SledStore serde))
    (ops : List Operation) :
    Accepts Directory.Allows registry.directory (history Registry.perform registry ops) ∧
      ∀ op, ((after Registry.perform registry ops).perform op).2.isErr = true →
        ((after Registry.perform registry ops).perform op).1 =
          after Registry.perform registry ops := by
  constructor
  · apply accepts_of_simulation (R := fun registry directory => registry.directory = directory)
    · intro s a op hR
      subst hR
      exact ⟨_, s.perform_allowed op, rfl⟩
    · rfl
  · intro op hfailed
    exact Registry.perform_failed _ op hfailed

end GraphHarness.ServiceRegistry
