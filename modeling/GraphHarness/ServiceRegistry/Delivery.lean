import GraphHarness.ServiceRegistry.Server
import GraphHarness.Trace.Parties

/-!
# What becomes of the events

`update_state` returns the messages for the subscribers. `handle_service_action` binds
them to `_events`, and `send_event` is called nowhere: no connection is ever sent one.

Who the subscribers are is asked after the write, under a lock of its own. A connection
that subscribes between the two is among them, and one that unsubscribes there is not; so
what is owed, and the condition below, are about the moment at which `emit_event` holds
the lock.

> `changes_delivered_iff` — every connection is sent the messages that are for it, each
> once and no others, **exactly if there are none**: whenever a service action that has
> stored its new state asks for the subscribers, no open connection is subscribed to
> `ServiceStateChanged`.

What a connection is owed is written down at the moment at which the subscribers are asked
(`owe`), for every connection that is open then, and compared with what was pushed to it.
Nothing is ever pushed (`silent_step`), so all is delivered exactly if nothing is owed.
`Unheard` is the condition on the step that owes something: an action at its last step, with
its new state stored and nobody subscribed.

Registrations and removals also make messages in the source, and no connection can ask for
them: the WebSocket server only changes states.
-/

namespace GraphHarness.ServiceRegistry

open Trace (run Always run_of_step run_invariant run_preserves always_of_end exists_mem_set)

/-- The messages of a list that are for an address. -/
def messagesFor (addr : SocketAddr) (messages : Messages) : List WsMessage :=
  messages.filterMap fun message => if message.1 = addr then some message.2 else none

/-- The messages of an address, in their order. -/
theorem messagesFor_eq (addr : SocketAddr) (messages : Messages) :
    messagesFor addr messages = (messages.filter fun message => message.1 = addr).map Prod.snd := by
  unfold messagesFor
  induction messages with
  | nil => rfl
  | cons message messages ih =>
    by_cases haddr : message.1 = addr
    · simp [haddr, ih]
    · simp [haddr, ih]

/-- An event is sent to an address if it is subscribed. -/
theorem messagesFor_emitEvent {σ : Type} (registry : Registry σ) (eventType : EventType)
    (data : EventData) (addr : SocketAddr) :
    messagesFor addr (registry.emitEvent eventType data) =
      if eventType ∈ registry.subscribed addr then [.event eventType data] else [] := by
  rw [messagesFor_eq, Registry.emitEvent, Registry.filter_emit registry.subscribers.nodupKeys]
  unfold Registry.subscribed AList.lookup
  cases List.dlookup addr registry.subscribers.entries with
  | none => simp
  | some subscription =>
    dsimp only
    split
    next => rfl
    next => rfl

namespace Connection

/-- The events, other than the first one, that have been sent. -/
def pushed (connection : Connection) : List WsMessage :=
  connection.handler.ws.filterMap fun
    | .text (.pushed event) => some event
    | _ => none

/-- Answers and pongs push no event. -/
theorem pushed_append {connection connection' : Connection} {answers : List Answer}
    {incoming : Incoming} (h : connection'.handler.ws = connection.handler.ws ++
      (answers.map fun a => .text a.message) ++ pongs incoming) :
    connection'.pushed = connection.pushed := by
  have hanswers : ∀ answers : List Answer,
      ((answers.map fun a => Outgoing.text a.message).filterMap fun
        | .text (.pushed event) => some event
        | _ => none) = [] := by
    intro answers
    rw [List.filterMap_map, List.filterMap_eq_nil_iff]
    intro answer _
    unfold Answer.message
    dsimp only [Function.comp]
    cases answer.response with
    | ok data => rfl
    | error e => rfl
  have hpongs : ((pongs incoming).filterMap fun
        | .text (.pushed event) => some event
        | _ => none) = [] := by
    cases incoming with
    | _ => rfl
  unfold pushed
  rw [h, List.filterMap_append, List.filterMap_append, hanswers, hpongs, List.append_nil,
    List.append_nil]

/-- An event that is owed changes nothing of the handler. -/
theorem owe_handler (messages : Messages) (connection : Connection) :
    (connection.owe messages).handler = connection.handler := by
  unfold owe
  split
  next => rfl
  next => rfl

/-- The events owed to a connection that is open. -/
theorem owe_owed (messages : Messages) (connection : Connection) :
    (connection.owe messages).owed = connection.owed ++
      if connection.task.isOpen then messagesFor connection.handler.addr messages else [] := by
  unfold owe
  split
  next => rfl
  next => exact (List.append_nil _).symm

/-- When any events are owed. -/
theorem owe_owed_ne (messages : Messages) (connection : Connection) :
    (connection.owe messages).owed ≠ [] ↔ connection.owed ≠ [] ∨
      connection.task.isOpen = true ∧ messagesFor connection.handler.addr messages ≠ [] := by
  rw [owe_owed]
  cases connection.task.isOpen with
  | false => simp
  | true => simp [imp_iff_not_or]

variable {σ : Type} [RegistryBackend σ]

/-- A new connection has pushed nothing and is owed nothing. -/
theorem pushed_accept (registry : Registry σ) (circumstances : Circumstances)
    (addr : SocketAddr) : (accept registry circumstances addr).pushed = [] ∧
      (accept registry circumstances addr).owed = [] := by
  unfold accept ConnectionHandler.sendInitialState
  cases circumstances.serialize with
  | some e => exact ⟨rfl, rfl⟩
  | none =>
    cases circumstances.reply with
    | some e => exact ⟨rfl, rfl⟩
    | none => exact ⟨rfl, rfl⟩

/-- Nothing is pushed while a message is taken, and nothing is owed for it. -/
theorem pushed_receive (connection : Connection) (registry : Registry σ)
    {circumstances : Circumstances} (hsmooth : circumstances.Smooth) (incoming : Incoming) :
    (connection.receive registry circumstances incoming).1.pushed = connection.pushed ∧
      (connection.receive registry circumstances incoming).1.owed = connection.owed := by
  have hws := ws_turn connection.handler registry hsmooth incoming
  unfold receive
  split
  next => exact ⟨rfl, rfl⟩
  next =>
    dsimp only
    split
    next handler registry' heq =>
      rw [heq] at hws
      exact ⟨pushed_append hws, rfl⟩
    next handler registry' heq =>
      rw [heq] at hws
      exact ⟨pushed_append hws, rfl⟩
    next handler registry' e heq =>
      rw [heq] at hws
      exact ⟨pushed_append hws, rfl⟩

omit [RegistryBackend σ] in
/-- An update that is finished pushes nothing to its own connection. -/
theorem pushed_resume (connection : Connection) (registry : Registry σ)
    {circumstances : Circumstances} (hsmooth : circumstances.Smooth) (held : Suspended)
    (stored : Except Error Unit) :
    (connection.resume registry circumstances held stored).1.pushed = connection.pushed ∧
      (connection.resume registry circumstances held stored).1.owed = connection.owed := by
  refine ⟨?_, rfl⟩
  have hws : (connection.resume registry circumstances held stored).1.handler.ws =
      connection.handler.ws ++ ([changeAnswer registry circumstances held stored].map
        fun a => .text a.message) ++ pongs .other := by
    rw [connection.ws_resume registry hsmooth]
    exact (List.append_nil _).symm
  exact pushed_append hws

omit [RegistryBackend σ] in
/-- The address of a connection stays. -/
theorem addr_resume (connection : Connection) (registry : Registry σ)
    (circumstances : Circumstances) (held : Suspended) (stored : Except Error Unit) :
    (connection.resume registry circumstances held stored).1.handler.addr =
      connection.handler.addr :=
  ConnectionHandler.addr_reply ..

omit [RegistryBackend σ] in
/-- There are messages for the addresses that are subscribed, if the new state was stored. -/
theorem messagesFor_resume (connection : Connection) (registry : Registry σ)
    (circumstances : Circumstances) (held : Suspended) (stored : Except Error Unit)
    (addr : SocketAddr) :
    messagesFor addr (connection.resume registry circumstances held stored).2 ≠ [] ↔
      stored = .ok () ∧ .serviceStateChanged ∈ registry.subscribed addr := by
  show messagesFor addr (messagesOf (change registry circumstances held stored)) ≠ [] ↔ _
  unfold change
  cases stored with
  | error e => simp [Registry.emitState, messagesOf, messagesFor]
  | ok u =>
    dsimp only [Registry.emitState, messagesOf]
    rw [messagesFor_emitEvent]
    by_cases hmem : .serviceStateChanged ∈ registry.subscribed addr
    · simp [hmem]
    · simp [hmem]

end Connection

namespace Server

variable {σ : Type} [RegistryBackend σ]

/-- Every connection has been sent the messages it is owed, each of them once, and no
other event. -/
def Delivered (s : Server σ) : Prop :=
  ∀ connection ∈ s.connections, connection.pushed.Perm connection.owed

/-- No event has been sent. -/
def Silent (s : Server σ) : Prop := ∀ connection ∈ s.connections, connection.pushed = []

/-- A connection is owed a message. -/
def Owes (s : Server σ) : Prop := ∃ connection ∈ s.connections, connection.owed ≠ []

/-- If at the event a service action that has stored its new state asks for the
subscribers, no open connection is subscribed to `ServiceStateChanged`. -/
def Unheard (s : Server σ) : ServerEvent → Prop
  | .resume i _ => ∀ connection held, s.connections[i]? = some connection →
      connection.task = .emitting held (.ok ()) →
      ∀ other ∈ s.connections, other.task.isOpen = true →
        .serviceStateChanged ∉ s.registry.subscribed other.handler.addr
  | _ => True

variable {s t : Server σ} {event : ServerEvent}

omit [RegistryBackend σ] in
/-- While nothing is pushed, all is delivered just when nothing is owed. -/
theorem delivered_iff_of_silent (hs : s.Silent) : s.Delivered ↔ ¬ s.Owes := by
  constructor
  · intro h ⟨connection, hmem, howed⟩
    have hperm := h connection hmem
    rw [hs connection hmem] at hperm
    exact howed hperm.nil_eq.symm
  · intro h connection hmem
    have hnone : connection.owed = [] := by
      by_contra howed
      exact h ⟨connection, hmem, howed⟩
    rw [hs connection hmem, hnone]

/-- No step pushes an event. -/
theorem silent_step (hs : s.Silent) (h : s.step event = some t) : t.Silent := by
  cases step_cases h with
  | accept =>
    intro other hmem
    rcases List.mem_append.mp hmem with hmem | hmem
    · exact hs other hmem
    · rw [List.mem_singleton.mp hmem]
      exact (Connection.pushed_accept ..).1
  | @receive i incoming circumstances connection hconnection htask =>
    intro other hmem
    rcases List.mem_or_eq_of_mem_set hmem with hmem | rfl
    · exact hs other hmem
    · rw [(connection.pushed_receive s.registry circumstances.2 incoming).1]
      exact hs connection (List.mem_of_getElem? hconnection)
  | @store i circumstances connection held hconnection htask =>
    intro other hmem
    rcases List.mem_or_eq_of_mem_set hmem with hmem | rfl
    · exact hs other hmem
    · exact hs connection (List.mem_of_getElem? hconnection)
  | @resume i circumstances connection held stored hconnection htask =>
    intro other hmem
    obtain ⟨before, hbefore, rfl⟩ := List.mem_map.mp hmem
    unfold Connection.pushed
    rw [Connection.owe_handler]
    rcases List.mem_or_eq_of_mem_set hbefore with hbefore | rfl
    · exact hs before hbefore
    · refine (connection.pushed_resume s.registry circumstances.2 held stored).1.trans ?_
      exact hs connection (List.mem_of_getElem? hconnection)

omit [RegistryBackend σ] in
/-- A service action that resumes is heard if a message of it is for an open connection. -/
theorem not_unheard_resume_iff {i : Nat} {circumstances : SmoothTurn} {connection : Connection}
    {held : Suspended} {stored : Except Error Unit}
    (hconnection : s.connections[i]? = some connection)
    (htask : connection.task = .emitting held stored) :
    ¬ s.Unheard (.resume i circumstances) ↔
      ∃ other ∈ s.connections, other.task.isOpen = true ∧
        messagesFor other.handler.addr
          (connection.resume s.registry circumstances held stored).2 ≠ [] := by
  simp only [Unheard, hconnection, Option.some.injEq, Connection.messagesFor_resume]
  constructor
  · intro hnot
    push Not at hnot
    obtain ⟨connection', held', rfl, htask', other, hmem, hother, hsubscribed⟩ := hnot
    obtain ⟨rfl, rfl⟩ := Task.emitting.inj (htask.symm.trans htask')
    exact ⟨other, hmem, hother, rfl, hsubscribed⟩
  · intro ⟨other, hmem, hother, hstored, hsubscribed⟩ hnot
    exact hnot connection held rfl (hstored ▸ htask) other hmem hother hsubscribed

/-- What is owed after an event: as much as before, and the messages of a service action
that has asked for the subscribers. -/
theorem owes_step_iff (h : s.step event = some t) : t.Owes ↔ s.Owes ∨ ¬ s.Unheard event := by
  cases step_cases h with
  | accept => simp [Owes, Unheard, Connection.pushed_accept, or_and_right, exists_or]
  | @receive i incoming circumstances connection hconnection htask =>
    have howed := (connection.pushed_receive s.registry circumstances.2 incoming).2
    unfold Owes Unheard
    rw [exists_mem_set hconnection (P := fun c => c.owed ≠ []) (by rw [howed])]
    simp
  | @store i circumstances connection held hconnection htask =>
    unfold Owes Unheard
    have howed : (connection.store s.registry circumstances held).1.owed = connection.owed := rfl
    rw [exists_mem_set hconnection (P := fun c => c.owed ≠ []) (by rw [howed])]
    simp
  | @resume i circumstances connection held stored hconnection htask =>
    have howed := (connection.pushed_resume s.registry circumstances.2 held stored).2
    have haddr := connection.addr_resume s.registry circumstances held stored
    have hopen : connection.task.isOpen = true := by rw [htask]; rfl
    have hresumed : ∀ messages,
        ((connection.resume s.registry circumstances held stored).1.owe messages).owed ≠ [] ↔
          (connection.owe messages).owed ≠ [] := by
      intro messages
      rw [Connection.owe_owed, Connection.owe_owed, howed, haddr, hopen]
      rfl
    rw [not_unheard_resume_iff hconnection htask]
    unfold Owes
    simp only [List.mem_map, exists_exists_and_eq_and]
    rw [exists_mem_set hconnection (P := fun c => (c.owe _).owed ≠ []) (hresumed _)]
    simp only [Connection.owe_owed_ne, and_or_left, exists_or]

/-- For any number of connections and any interleaving of what they receive, with every
send working: at the end of a run each connection has been sent the messages it is owed,
each once and nothing else, exactly if no service action of the run has stored a new
state and then found an open connection subscribed to `ServiceStateChanged`. -/
theorem changes_delivered_iff (registry : Registry σ) (events : List ServerEvent) (t : Server σ)
    (hrun : run step (start registry) events = some t) :
    t.Delivered ↔ Always step Unheard (start registry) events := by
  have hstart : (start registry).Silent ∧ ¬ (start registry).Owes := by
    simp [Silent, Owes, start]
  have hsilent : t.Silent := run_preserves (fun _ _ _ hs h => silent_step hs h) hstart.1 hrun
  rw [delivered_iff_of_silent hsilent]
  constructor
  · intro hend
    have hbreak : ∀ (s : Server σ) (event : ServerEvent) (t : Server σ), s.Silent →
        ¬ s.Unheard event → s.step event = some t → t.Owes := by
      intro s event t _ hheard h
      exact (owes_step_iff h).mpr (.inr hheard)
    have hbad : ∀ (s : Server σ) (event : ServerEvent) (t : Server σ), s.Owes →
        s.step event = some t → t.Owes := by
      intro s event t howes h
      exact (owes_step_iff h).mpr (.inl howes)
    exact always_of_end (fun _ _ _ hs h => silent_step hs h) hbreak hbad hstart.1 hrun hend
  · intro hunheard
    have hstep : ∀ (s : Server σ) (event : ServerEvent) (t : Server σ), ¬ s.Owes →
        s.Unheard event → s.step event = some t → ¬ t.Owes := by
      intro s event t hs hevent h howes
      rcases (owes_step_iff h).mp howes with howes | hheard
      · exact hs howes
      · exact hheard hevent
    exact run_invariant hstep hstart.2 hunheard hrun

/-! ## Two clients, one of which listens -/

/-- The first client starts `web`, and the second one wants to know. -/
def webStarted : List ServerEvent :=
  [.accept (.v4 0x7f000001 40000) untroubled, .accept (.v4 0x7f000001 40001) untroubled,
    .receive 1 (.text (.ok (.request "1" (.subscribe (.ok [.serviceStateChanged]))))) untroubled,
    .receive 0 (.text (.ok (.request "1" (.serviceAction (.ok ("web", .start)))))) untroubled,
    .store 0 untroubled, .resume 0 untroubled]

/-- A registry that has `web`. -/
def withWeb : Registry (SledStore Serde.numbered) :=
  (Registry.new Serde.numbered).put (webEntry "1.0.0")

/-- A change that a subscriber is owed. -/
theorem webStarted_owes : ∃ t, run step (start withWeb) webStarted = some t ∧ t.Owes := by
  let first := Connection.accept withWeb ConnectionHandler.smooth (.v4 0x7f000001 40000)
  let second := Connection.accept withWeb ConnectionHandler.smooth (.v4 0x7f000001 40001)
  let subscribe : Incoming :=
    .text (.ok (.request "1" (.subscribe (.ok [.serviceStateChanged]))))
  let action : Incoming := .text (.ok (.request "1" (.serviceAction (.ok ("web", .start)))))
  let held : Suspended := ⟨"1", .serviceAction (.ok ("web", .start)), "web", .starting,
    webEntry "1.0.0"⟩
  have haccept : step (start withWeb) (.accept (.v4 0x7f000001 40000) untroubled) =
      some ⟨withWeb, [first]⟩ := rfl
  have haccept' : step ⟨withWeb, [first]⟩ (.accept (.v4 0x7f000001 40001) untroubled) =
      some ⟨withWeb, [first, second]⟩ := rfl
  -- kept closed from here on: the later states would carry its text otherwise
  obtain ⟨registry, hregistry⟩ : ∃ registry, registry =
    withWeb.subscribe (.v4 0x7f000001 40001) [.serviceStateChanged] := ⟨_, rfl⟩
  have hsubscribed : .serviceStateChanged ∈ registry.subscribed (.v4 0x7f000001 40001) := by
    rw [hregistry]
    decide
  obtain ⟨listener, haddr, htask, hsubscribe⟩ : ∃ listener : Connection,
      listener.handler.addr = .v4 0x7f000001 40001 ∧ listener.task = .waiting ∧
        step ⟨withWeb, [first, second]⟩ (.receive 1 subscribe untroubled) =
          some ⟨registry, [first, listener]⟩ := by
    refine ⟨(second.receive withWeb ConnectionHandler.smooth subscribe).1, rfl, rfl, ?_⟩
    rw [hregistry]
    rfl
  have hstored : registry.stored "web" = some (webEntry "1.0.0") := by
    rw [hregistry]
    exact Registry.stored_put_self ..
  have hsuspends : Connection.suspends registry ConnectionHandler.smooth action = some held :=
    Connection.suspends_serviceAction hstored rfl rfl "1"
  let suspended : Server (SledStore Serde.numbered) :=
    ⟨registry, [{ first with task := .updating held, received := [action] }, listener]⟩
  have hreceive : step ⟨registry, [first, listener]⟩ (.receive 0 action untroubled) =
      some suspended := step_suspends rfl rfl hsuspends
  have hwritten := Connection.store_works
    { first with task := .updating held, received := [action] } registry held
  generalize hbackend : (putService registry.backend Faults.none (held.entry.updateState
    held.newState ConnectionHandler.smooth.changedAt)).1 = backend at hwritten
  let written : Registry (SledStore Serde.numbered) := { registry with backend := backend }
  let emitting : Server (SledStore Serde.numbered) := ⟨written,
    [{ first with task := .emitting held (.ok ()), received := [action] }, listener]⟩
  have hstore : step suspended (.store 0 untroubled) = some emitting := by
    refine (step_stores rfl rfl).trans ?_
    change some (Server.mk (Connection.store _ registry ConnectionHandler.smooth held).2
      (suspended.connections.set 0
        (Connection.store _ registry ConnectionHandler.smooth held).1)) = _
    rw [hwritten]
    rfl
  obtain ⟨t, hresume⟩ : ∃ t, emitting.step (.resume 0 untroubled) = some t := ⟨_, rfl⟩
  refine ⟨t, ?_, (owes_step_iff hresume).mpr (.inr ?_)⟩
  · unfold webStarted
    rw [run_of_step haccept, run_of_step haccept', run_of_step hsubscribe, run_of_step hreceive,
      run_of_step hstore, run_of_step hresume, run]
  · intro hunheard
    refine hunheard _ held rfl rfl listener (by simp [emitting]) ?_ ?_
    · rw [htask]
      rfl
    · rw [haddr]
      unfold Registry.subscribed
      exact hsubscribed

/-- The service is starting, and the client that asked is told so. The one that has
subscribed is not. -/
theorem webStarted_not_delivered : ¬ ∀ (serde : Serde) (registry : Registry (SledStore serde))
    (events : List ServerEvent) (t : Server (SledStore serde)),
    run step (start registry) events = some t → t.Delivered := by
  intro h
  obtain ⟨t, hrun, howes⟩ := webStarted_owes
  have hsilent : t.Silent := run_preserves (fun _ _ _ hs h => silent_step hs h)
    (by simp [Silent, start]) hrun
  exact (delivered_iff_of_silent hsilent).mp (h _ _ _ t hrun) howes

/-- A web server that is started, with a subscriber. -/
theorem changes_delivered_iff_web : ∃ t, run step (start withWeb) webStarted = some t ∧
    (t.Delivered ↔ Always step Unheard (start withWeb) webStarted) := by
  obtain ⟨t, hrun, _⟩ := webStarted_owes
  exact ⟨t, hrun, changes_delivered_iff _ _ t hrun⟩

end Server

end GraphHarness.ServiceRegistry
