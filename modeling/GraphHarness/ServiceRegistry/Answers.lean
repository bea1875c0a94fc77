import GraphHarness.ServiceRegistry.Correlation

/-!
# Answers fit their requests

Whatever the storage does, the data that is answered to a request is data of the kind that
the request asks for, and about what it names.

> `answers_fit` — **in every run**, also where a service action is suspended at its write and
> others go on: a service has the name that was asked for, a change of
> state is a legal one to the state that the action means, and a list of subscriptions has
> what was subscribed to and nothing of what was unsubscribed from.

`Fits` is stated of one answer and its request, and does not mention the registry: it is what
a client can check. For a suspended service action it is prepared before it is answered
(`Suspended.Checked`), as the state that was read is a part of the answer. The step lemmas go
along the steps of the server; a storage that fails makes errors, and errors always fit.
-/

namespace GraphHarness.ServiceRegistry

open Trace (run run_preserves)

/-- The data answers the request. -/
def Request.AnsweredBy : Request → ResponseData → Prop
  | .listServices, .services _ => True
  | .getService (.ok name), .service entry => entry.name = name
  | .serviceAction (.ok (_, action)), .reloadInitiated => ConnectionHandler.newState action = none
  | .serviceAction (.ok (name, action)), .stateChange service oldState newState =>
    service = name ∧ ConnectionHandler.newState action = some newState ∧
      isValidTransition oldState newState = true
  | .listEndpoints, .endpoints _ => True
  | .subscribe (.ok events), .subscribed subscriptions => ∀ event ∈ events, event ∈ subscriptions
  | .unsubscribe (.ok events), .subscribed subscriptions =>
    ∀ event ∈ events, event ∉ subscriptions
  | _, _ => False

/-- The data answer the request, if the answer is no error. -/
def Answer.Fits (answer : Answer) : Prop :=
  ∀ request data, answer.request = some request → answer.response = .ok data →
    request.AnsweredBy data

variable {σ : Type} [RegistryBackend σ]

/-- A change that passes the check is a valid one. -/
theorem Registry.checkState_valid {registry : Registry σ} {faults : Faults} {name : String}
    {newState : ServiceState} {entry : ServiceEntry}
    (h : registry.checkState faults name newState = .ok entry) :
    isValidTransition entry.state newState = true := by
  unfold checkState at h
  split at h
  next => cases h
  next found _ =>
    split at h
    next hvalid =>
      obtain rfl := Except.ok.inj h
      exact hvalid
    next => cases h

omit [RegistryBackend σ] in
/-- A change that works says from which state. -/
theorem Registry.emitState_ok {registry : Registry σ} {name : String} {entry : ServiceEntry}
    {newState : ServiceState} {now : Timestamp} {stored : Except Error Unit}
    {result : ServiceState × Messages}
    (h : registry.emitState name entry newState now stored = .ok result) :
    result.1 = entry.state := by
  cases stored with
  | error e => cases h
  | ok u => rw [← Except.ok.inj h]

/-- The entry found has the name that was asked for. -/
theorem Registry.name_of_get [LawfulBackend σ] {registry : Registry σ} {faults : Faults}
    {name : String} {entry : ServiceEntry} (h : registry.get faults name = .ok entry) :
    entry.name = name := by
  unfold get at h
  split at h
  next => cases h
  next found hget =>
    obtain rfl := Except.ok.inj h
    exact LawfulBackend.name_of_entries (LawfulBackend.get_ok hget).symm
  next => cases h

namespace ConnectionHandler

omit [RegistryBackend σ] in
/-- What a successful change is answered with. -/
theorem stateChangeResponse_ok {name : String} {newState : ServiceState}
    {result : Except Error (ServiceState × Messages)} {data : ResponseData}
    (h : stateChangeResponse name newState result = .ok data) :
    ∃ changed, result = .ok changed ∧ data = .stateChange name changed.1 newState := by
  cases result with
  | error e => cases h
  | ok changed => exact ⟨changed, rfl, (Except.ok.inj h).symm⟩

omit [RegistryBackend σ] in
/-- Data that are written are not changed. -/
theorem toValue_ok {circumstances : Circumstances} {data data' : ResponseData}
    (h : toValue circumstances data = .ok data') : data' = data := by
  unfold toValue at h
  split at h
  next => cases h
  next => exact (Except.ok.inj h).symm

/-- The types that are subscribed to after a request. -/
theorem mem_foldl_insert (events : List EventType) (subscriptions : Finset EventType) :
    ∀ event, event ∈ events.foldl (fun all event => insert event all) subscriptions ↔
      event ∈ events ∨ event ∈ subscriptions := by
  induction events generalizing subscriptions with
  | nil => simp
  | cons first events ih =>
    intro event
    rw [List.foldl_cons, ih, Finset.mem_insert, List.mem_cons]
    tauto

/-- The types that are left after a request. -/
theorem mem_foldl_erase (events : List EventType) (subscriptions : Finset EventType) :
    ∀ event, event ∈ events.foldl Finset.erase subscriptions ↔
      event ∉ events ∧ event ∈ subscriptions := by
  induction events generalizing subscriptions with
  | nil => simp
  | cons first events ih =>
    intro event
    rw [List.foldl_cons, ih, Finset.mem_erase, List.mem_cons]
    tauto

/-- A service action in one go. -/
theorem handleServiceAction_answered {registry : Registry σ} {circumstances : Circumstances}
    {params : Except String (String × ServiceAction)} {data : ResponseData}
    (h : (handleServiceAction registry circumstances params).2 = .ok data) :
    (Request.serviceAction params).AnsweredBy data := by
  unfold handleServiceAction fromValue at h
  cases params with
  | error e => cases h
  | ok params =>
    obtain ⟨name, action⟩ := params
    dsimp only at h
    cases hnew : newState action with
    | none =>
      rw [hnew] at h
      obtain rfl := Except.ok.inj h
      exact hnew
    | some newState =>
      rw [hnew] at h
      dsimp only [Prod.map] at h
      obtain ⟨changed, hchanged, rfl⟩ := stateChangeResponse_ok h
      rw [Registry.updateState_eq] at hchanged
      cases hcheck : registry.checkState circumstances.storage name newState with
      | error e =>
        rw [hcheck] at hchanged
        cases hchanged
      | ok entry =>
        rw [hcheck] at hchanged
        refine ⟨rfl, hnew, ?_⟩
        rw [Registry.emitState_ok hchanged]
        exact Registry.checkState_valid hcheck

/-- What a request is answered, it asks for. -/
theorem respond_answered [LawfulBackend σ] {handler : ConnectionHandler} {registry : Registry σ}
    {circumstances : Circumstances} {request : Request} {data : ResponseData}
    (h : (handler.respond registry circumstances request).2.2 = .ok data) :
    request.AnsweredBy data := by
  cases request with
  | listServices =>
    obtain rfl := toValue_ok h
    trivial
  | getService params =>
    change handleGetService registry circumstances params = .ok data at h
    unfold handleGetService fromValue at h
    cases params with
    | error e => cases h
    | ok name =>
      dsimp only at h
      split at h
      next => cases h
      next entry hget =>
        obtain rfl := toValue_ok h
        exact Registry.name_of_get hget
  | serviceAction params => exact handleServiceAction_answered h
  | listEndpoints =>
    obtain rfl := toValue_ok h
    trivial
  | subscribe params =>
    cases params with
    | error e => cases h
    | ok events =>
      obtain rfl := Except.ok.inj h
      intro event hevent
      exact (mem_foldl_insert events _ event).mpr (.inl hevent)
  | unsubscribe params =>
    cases params with
    | error e => cases h
    | ok events =>
      obtain rfl := Except.ok.inj h
      intro event hevent hmem
      exact ((mem_foldl_erase events _ event).mp hmem).1 hevent
  | deployPackage => cases h

end ConnectionHandler

/-! ## Over runs -/

/-- A service action that is suspended has passed its check. -/
def Suspended.Checked (held : Suspended) : Prop :=
  ∃ action, held.request = .serviceAction (.ok (held.name, action)) ∧
    ConnectionHandler.newState action = some held.newState ∧
    isValidTransition held.entry.state held.newState = true

namespace Connection

/-- Whatever the connection has answered fits, and so will what it is working on. -/
structure Fitting (connection : Connection) : Prop where
  answers : ∀ answer ∈ connection.answers, answer.Fits
  updating : ∀ held, connection.task = .updating held → held.Checked
  emitting : ∀ held stored, connection.task = .emitting held stored → held.Checked

/-- No service action is suspended. -/
theorem Fitting.idle {connection : Connection} (hidle : connection.task.inProgress = [])
    (h : ∀ answer ∈ connection.answers, answer.Fits) : connection.Fitting := by
  refine ⟨h, ?_, ?_⟩
  · intro held hheld
    rw [hheld] at hidle
    cases hidle
  · intro held stored hheld
    rw [hheld] at hidle
    cases hidle

/-- A new connection has answered nothing. -/
theorem fitting_accept (registry : Registry σ) (circumstances : Circumstances)
    (addr : SocketAddr) : (accept registry circumstances addr).Fitting := by
  unfold accept
  split
  next => exact .idle rfl (List.forall_mem_nil _)
  next => exact .idle rfl (List.forall_mem_nil _)

/-- The answers of one turn fit. -/
theorem answersOf_fit [LawfulBackend σ] (handler : ConnectionHandler) (registry : Registry σ)
    (circumstances : Circumstances) (incoming : Incoming) :
    ∀ answer ∈ answersOf handler registry circumstances incoming, answer.Fits := by
  intro answer hmem request data hrequest hdata
  cases incoming with
  | text parsed =>
    cases parsed with
    | error e =>
      obtain rfl := List.mem_singleton.mp hmem
      cases hrequest
    | ok text =>
      cases text with
      | request id body =>
        obtain rfl := List.mem_singleton.mp hmem
        obtain rfl := Option.some.inj hrequest
        exact ConnectionHandler.respond_answered hdata
      | other => cases hmem
  | _ => cases hmem

/-- A message received keeps that. -/
theorem fitting_receive [LawfulBackend σ] {connection : Connection} (h : connection.Fitting)
    (registry : Registry σ) (circumstances : Circumstances) (incoming : Incoming) :
    (connection.receive registry circumstances incoming).1.Fitting := by
  unfold receive
  split
  next held hsuspends =>
    obtain ⟨action, _, hrequest, hnew, hcheck⟩ := suspends_some hsuspends
    refine ⟨h.answers, ?_, ?_⟩
    · intro other hother
      obtain rfl := Task.updating.inj hother
      exact ⟨action, hrequest, hnew, Registry.checkState_valid hcheck⟩
    · intro other stored hother
      cases hother
  next =>
    have hanswers : ∀ answer ∈ connection.answers ++
        answersOf connection.handler registry circumstances incoming, answer.Fits := by
      intro answer hmem
      rcases List.mem_append.mp hmem with hmem | hmem
      · exact h.answers answer hmem
      · exact answersOf_fit _ _ _ _ answer hmem
    dsimp only
    split
    next => exact .idle rfl hanswers
    next => exact .idle rfl hanswers
    next => exact .idle rfl hanswers

/-- What has passed its check before the write has passed it behind it. -/
theorem fitting_store {connection : Connection} (h : connection.Fitting) {held : Suspended}
    (hupdating : connection.task = .updating held) (registry : Registry σ)
    (circumstances : Circumstances) :
    (connection.store registry circumstances held).1.Fitting := by
  refine ⟨h.answers, ?_, ?_⟩
  · intro other hother
    cases hother
  · intro other stored hother
    obtain ⟨rfl, _⟩ := Task.emitting.inj hother
    exact h.updating held hupdating

omit [RegistryBackend σ] in
/-- So does an update that is finished. -/
theorem fitting_resume {connection : Connection} (h : connection.Fitting) {held : Suspended}
    {stored : Except Error Unit} (hemitting : connection.task = .emitting held stored)
    (registry : Registry σ) (circumstances : Circumstances) :
    (connection.resume registry circumstances held stored).1.Fitting := by
  refine .idle rfl ?_
  intro answer hmem
  rcases List.mem_append.mp hmem with hmem | hmem
  · exact h.answers answer hmem
  · obtain rfl := List.mem_singleton.mp hmem
    obtain ⟨action, hrequest, hnew, hvalid⟩ := h.emitting held stored hemitting
    intro request data heq hdata
    obtain rfl : held.request = request := Option.some.inj heq
    obtain ⟨changed, hchanged, rfl⟩ := ConnectionHandler.stateChangeResponse_ok hdata
    rw [hrequest]
    refine ⟨rfl, hnew, ?_⟩
    rw [Registry.emitState_ok hchanged]
    exact hvalid

end Connection

/-- One step of the server. -/
theorem Server.fitting_step [LawfulBackend σ] {s t : Server σ} {event : ServerEvent}
    (h : s.step event = some t) (hs : ∀ connection ∈ s.connections, connection.Fitting) :
    ∀ connection ∈ t.connections, connection.Fitting := by
  intro connection hmem
  obtain ⟨i, hconnection⟩ := List.mem_iff_getElem?.mp hmem
  cases moved_of_step h hconnection with
  | accepted => exact Connection.fitting_accept ..
  | kept hbefore =>
    have hsame := hs _ (List.mem_of_getElem? hbefore)
    exact ⟨hsame.answers, hsame.updating, hsame.emitting⟩
  | @received incoming circumstances before hbefore htask =>
    exact Connection.fitting_receive (hs before (List.mem_of_getElem? hbefore)) _ _ _
  | @stored circumstances before held hbefore htask =>
    exact Connection.fitting_store (hs before (List.mem_of_getElem? hbefore)) htask _ _
  | @resumed circumstances before held stored owed hbefore htask =>
    have hresumed := Connection.fitting_resume (hs before (List.mem_of_getElem? hbefore)) htask
      s.registry circumstances
    exact ⟨hresumed.answers, hresumed.updating, hresumed.emitting⟩

namespace System

/-- So does one step of the whole. -/
theorem fitting_step [LawfulBackend σ] {wire : Wire} {k : Nat} {s t : System σ}
    {event : SystemEvent} (hs : ∀ connection ∈ s.server.connections, connection.Fitting)
    (h : step wire k s event = some t) :
    ∀ connection ∈ t.server.connections, connection.Fitting := by
  cases taken_of_step h with
  | client _ _ => exact hs
  | server _ hserver => exact Server.fitting_step hserver hs
  | arrive _ _ hserver => exact Server.fitting_step hserver hs
  | hear _ _ _ => exact hs
  | push hconnection =>
    intro connection hmem
    rcases List.mem_or_eq_of_mem_set hmem with hmem | rfl
    · exact hs connection hmem
    · have hsame := hs _ (List.mem_of_getElem? hconnection)
      exact ⟨hsame.answers, hsame.updating, hsame.emitting⟩

/-- Every run of a client and the server. -/
theorem answers_fit [LawfulBackend σ] {wire : Wire} {k : Nat} {registry : Registry σ}
    {events : List SystemEvent} {t : System σ}
    (hrun : run (step wire k) (start registry) events = some t) :
    ∀ connection ∈ t.server.connections, ∀ answer ∈ connection.answers, answer.Fits := by
  have hfitting := run_preserves (fun _ _ _ hs h => fitting_step hs h)
    (List.forall_mem_nil _ : ∀ connection ∈ (start registry).server.connections,
      connection.Fitting) hrun
  exact fun connection hmem => (hfitting connection hmem).answers

end System

end GraphHarness.ServiceRegistry
