import GraphHarness.ServiceRegistry.WebSocket

/-!
# Two views of a subscription

A connection keeps the event types it is subscribed to, and the registry keeps them for
its address. A request to subscribe adds to the one set and replaces the other.

> `views_agree_iff` — the two agree along a run of requests **exactly if the registry
> starts without an entry and every `Subscribe` repeats what is subscribed already**.

The address is that of one connection, and others act for theirs, so both views are changed by
this connection's requests only. `asks` and `keeps` are the two functions on sets that the
registry and the connection apply; they agree exactly where a request repeats the set. A
request that cannot be read changes neither.
-/

namespace GraphHarness.ServiceRegistry

open Trace (after throughout_iff)

namespace Registry

variable {σ : Type} [RegistryBackend σ]

theorem subscribers_storeAndEmit (registry : Registry σ) (faults : Faults) (entry : ServiceEntry)
    (eventType : EventType) (data : EventData) :
    (registry.storeAndEmit faults entry eventType data).1.subscribers = registry.subscribers := by
  unfold storeAndEmit
  dsimp only
  split
  next => rfl
  next => rfl

theorem subscribers_updateState (registry : Registry σ) (faults : Faults) (name : String)
    (newState : ServiceState) (changedAt now : Timestamp) :
    (registry.updateState faults name newState changedAt now).1.subscribers =
      registry.subscribers := by
  unfold updateState
  split
  next => rfl
  next =>
    dsimp only
    split
    next => exact subscribers_storeAndEmit ..
    next => rfl

omit [RegistryBackend σ] in
theorem subscribed_congr {r r' : Registry σ} (h : r.subscribers = r'.subscribers) :
    r.subscribed = r'.subscribed := by
  funext addr
  unfold subscribed
  rw [h]

end Registry

namespace ConnectionHandler

/-- What the registry holds for the address after a request. -/
def asks (requested : Finset EventType) : Request → Finset EventType
  | .subscribe (.ok events) => events.toFinset
  | .unsubscribe (.ok events) => requested \ events.toFinset
  | _ => requested

/-- What the connection keeps after a request. -/
def keeps (subscriptions : Finset EventType) : Request → Finset EventType
  | .subscribe (.ok events) => subscriptions ∪ events.toFinset
  | .unsubscribe (.ok events) => subscriptions \ events.toFinset
  | _ => subscriptions

theorem foldl_insert (events : List EventType) : ∀ all : Finset EventType,
    events.foldl (fun all event => insert event all) all = all ∪ events.toFinset := by
  induction events with
  | nil => intro all; simp
  | cons event events ih =>
    intro all
    rw [List.foldl_cons, ih, List.toFinset_cons, Finset.insert_union, Finset.union_insert]

variable {σ : Type} [RegistryBackend σ]

theorem addr_respond (handler : ConnectionHandler) (registry : Registry σ)
    (circumstances : Circumstances) (request : Request) :
    (handler.respond registry circumstances request).1.addr = handler.addr := by
  cases request with
  | subscribe params =>
    cases params with
    | error e => rfl
    | ok events => rfl
  | unsubscribe params =>
    cases params with
    | error e => rfl
    | ok events => rfl
  | _ => rfl

theorem subscriptions_respond (handler : ConnectionHandler) (registry : Registry σ)
    (circumstances : Circumstances) (request : Request) :
    (handler.respond registry circumstances request).1.subscriptions =
      keeps handler.subscriptions request := by
  cases request with
  | subscribe params =>
    cases params with
    | error e => rfl
    | ok events => exact foldl_insert events _
  | unsubscribe params =>
    cases params with
    | error e => rfl
    | ok events => exact Registry.foldl_erase events _
  | _ => rfl

theorem subscribed_handleServiceAction (registry : Registry σ) (circumstances : Circumstances)
    (params : Except String (String × ServiceAction)) :
    (handleServiceAction registry circumstances params).1.subscribed = registry.subscribed := by
  unfold handleServiceAction
  split
  next => rfl
  next =>
    split
    next => rfl
    next => exact Registry.subscribed_congr (Registry.subscribers_updateState ..)

/-- A request changes no other subscription. -/
theorem subscribed_respond (handler : ConnectionHandler) (registry : Registry σ)
    (circumstances : Circumstances) (request : Request) :
    (handler.respond registry circumstances request).2.1.subscribed =
      Function.update registry.subscribed handler.addr
        (asks (registry.subscribed handler.addr) request) := by
  cases request with
  | subscribe params =>
    cases params with
    | error e => exact (Function.update_eq_self _ _).symm
    | ok events => exact Registry.subscribed_subscribe ..
  | unsubscribe params =>
    cases params with
    | error e => exact (Function.update_eq_self _ _).symm
    | ok events => exact Registry.subscribed_unsubscribe ..
  | serviceAction params =>
    show (handleServiceAction registry circumstances params).1.subscribed =
      Function.update registry.subscribed handler.addr (registry.subscribed handler.addr)
    rw [Function.update_eq_self]
    exact subscribed_handleServiceAction registry circumstances params
  | _ => exact (Function.update_eq_self _ _).symm

/-- The client is told what the connection keeps. -/
theorem told_respond {handler : ConnectionHandler} {registry : Registry σ}
    {circumstances : Circumstances} {request : Request} {told : Finset EventType}
    (h : (handler.respond registry circumstances request).2.2 = .ok (.subscribed told)) :
    told = (handler.respond registry circumstances request).1.subscriptions := by
  have htoValue : ∀ data, (∀ events, data ≠ .subscribed events) →
      toValue circumstances data ≠ .ok (.subscribed told) := by
    intro data hdata hvalue
    unfold toValue at hvalue
    split at hvalue
    next => simp at hvalue
    next => exact hdata told (Except.ok.inj hvalue)
  cases request with
  | listServices => exact absurd h (htoValue _ (by simp))
  | getService params =>
    unfold respond handleGetService at h
    dsimp only at h
    split at h
    next => simp at h
    next =>
      split at h
      next => simp at h
      next => exact absurd h (htoValue _ (by simp))
  | serviceAction params =>
    unfold respond handleServiceAction at h
    dsimp only at h
    split at h
    next => simp at h
    next =>
      split at h
      next => simp at h
      next =>
        revert h
        unfold stateChangeResponse
        dsimp only [Prod.map]
        split
        next => simp
        next => simp
  | listEndpoints => exact absurd h (htoValue _ (by simp))
  | subscribe params =>
    cases params with
    | error e => simp [respond, handleSubscribe, fromValue] at h
    | ok events => exact (ResponseData.subscribed.inj (Except.ok.inj h)).symm
  | unsubscribe params =>
    cases params with
    | error e => simp [respond, handleUnsubscribe, fromValue] at h
    | ok events => exact (ResponseData.subscribed.inj (Except.ok.inj h)).symm
  | deployPackage => simp [respond, handleDeployPackage] at h

/-! ## Runs of requests on one connection -/

/-- One request, and what is answered. -/
def answer (s : ConnectionHandler × Registry σ) (op : Circumstances × Request) :
    (ConnectionHandler × Registry σ) × Except ConnectionError ResponseData :=
  let (handler, registry, response) := s.1.respond s.2 op.1 op.2
  ((handler, registry), response)

/-- What the connection keeps is what the registry holds for its address. -/
def Agree (s : ConnectionHandler × Registry σ) : Prop :=
  s.1.subscriptions = s.2.subscribed s.1.addr

/-- A request to subscribe names all the event types that are subscribed already. -/
def Repeats (s : ConnectionHandler × Registry σ) (op : Circumstances × Request) : Prop :=
  ∀ events, op.2 = .subscribe (.ok events) → s.1.subscriptions ⊆ events.toFinset

/-- The two records agree after a request if and only if it names what was subscribed before. -/
theorem agree_answer_iff {s : ConnectionHandler × Registry σ} (hs : Agree s)
    (op : Circumstances × Request) : Agree (answer s op).1 ↔ Repeats s op := by
  obtain ⟨circumstances, request⟩ := op
  have hanswer : Agree (answer s (circumstances, request)).1 ↔
      keeps s.1.subscriptions request = asks s.1.subscriptions request := by
    show (s.1.respond s.2 circumstances request).1.subscriptions =
      (s.1.respond s.2 circumstances request).2.1.subscribed
        (s.1.respond s.2 circumstances request).1.addr ↔ _
    rw [addr_respond, subscriptions_respond, subscribed_respond, Function.update_self,
      ← show s.1.subscriptions = s.2.subscribed s.1.addr from hs]
  rw [hanswer]
  unfold Repeats
  cases request with
  | subscribe params =>
    cases params with
    | error e => simp [keeps, asks]
    | ok events => simp [keeps, asks]
  | unsubscribe params =>
    cases params with
    | error e => simp [keeps, asks]
    | ok events => simp [keeps, asks]
  | _ => simp [keeps, asks]

/-- A connection that answers what it is asked, from the moment it is accepted: its own
set is the registry's at every point exactly if the registry holds nothing for the
address to begin with, and no `Subscribe` leaves out a type that is subscribed. -/
theorem views_agree_iff (registry : Registry σ) (addr : SocketAddr)
    (requests : List (Circumstances × Request)) :
    (∀ earlier later, requests = earlier ++ later →
      Agree (after answer (accept addr, registry) earlier)) ↔
    registry.subscribed addr = ∅ ∧
      ∀ earlier op later, requests = earlier ++ op :: later →
        Repeats (after answer (accept addr, registry) earlier) op := by
  have hthroughout : Agree (accept addr, registry) →
      ((∀ earlier later, requests = earlier ++ later →
        Agree (after answer (accept addr, registry) earlier)) ↔
      ∀ earlier op later, requests = earlier ++ op :: later →
        Repeats (after answer (accept addr, registry) earlier) op) :=
    throughout_iff Agree (fun _ hs => hs) (fun _ op hs => (agree_answer_iff hs op).mpr)
      (fun _ op hs => (agree_answer_iff hs op).mp) requests
  constructor
  · intro h
    have hstart : Agree (accept addr, registry) := h [] requests rfl
    exact ⟨hstart.symm, (hthroughout hstart).mp h⟩
  · intro ⟨hempty, hrepeats⟩
    exact (hthroughout hempty.symm).mpr hrepeats

/-- A turn on which everything works. -/
def smooth : Circumstances := ⟨Faults.none, none, none, none, none, 0, 0⟩

/-- A second `Subscribe` takes the first one's event type away, and the client is told
that it has both. -/
theorem second_subscribe_replaces : ¬ ∀ (serde : Serde) (addr : SocketAddr)
    (requests : List (Circumstances × Request)),
    Agree (after answer (accept addr, Registry.new serde) requests) := by
  intro h
  have hagree := h Serde.numbered (.v4 0x7f000001 40000)
    [(smooth, .subscribe (.ok [.serviceStateChanged])),
      (smooth, .subscribe (.ok [.endpointUpdated]))]
  have hsame : ({.endpointUpdated, .serviceStateChanged} : Finset EventType) =
      {.endpointUpdated} := hagree
  exact absurd hsame (by decide)

end ConnectionHandler

end GraphHarness.ServiceRegistry
