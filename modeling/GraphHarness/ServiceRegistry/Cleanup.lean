import GraphHarness.ServiceRegistry.Subscriptions

/-!
# What a connection leaves in the registry

`handle` takes the connection's entry out of the registry behind its loop. A `break`
gets there, and so does the end of the stream; a `?` in the loop returns before it.

> `cleaned_up_iff` — after `handle` the registry has no entry for the address **exactly
> if there was none when a `?` ended it**.

What there is when a turn ends is read off the requests alone (`entryAfter`).

A turn has what the other tasks have done before it, what comes in, and which calls fail; the
others act for other addresses (`Elsewhere`), as an address belongs to one connection. One
turn is described by `TurnSpec`: whether it ends the loop, how, and what entry it leaves. The
loop is then an induction over the turns.

`ping_leaves_entry` is a connection that subscribes and is sent a ping which cannot be
answered.
-/

namespace GraphHarness.ServiceRegistry

open Trace (after)

namespace Registry

variable {σ : Type}

/-- The entry of an address. -/
def subscription (registry : Registry σ) (addr : SocketAddr) : Option EventSubscription :=
  registry.subscribers.lookup addr

/-- A subscription replaces the one before. -/
theorem subscription_subscribe (registry : Registry σ) (addr : SocketAddr)
    (events : List EventType) :
    (registry.subscribe addr events).subscription addr = some ⟨events.toFinset⟩ :=
  AList.lookup_insert _

/-- It is nothing to another address. -/
theorem subscription_subscribe_ne (registry : Registry σ) {addr other : SocketAddr}
    (h : other ≠ addr) (events : List EventType) :
    (registry.subscribe other events).subscription addr = registry.subscription addr :=
  AList.lookup_insert_ne (fun he => h he.symm)

/-- A subscriber that is removed has no subscription. -/
theorem subscription_removeSubscriber (registry : Registry σ) (addr : SocketAddr) :
    (registry.removeSubscriber addr).subscription addr = none :=
  AList.lookup_erase _ _

/-- Its removal is nothing to another address. -/
theorem subscription_removeSubscriber_ne (registry : Registry σ) {addr other : SocketAddr}
    (h : other ≠ addr) :
    (registry.removeSubscriber other).subscription addr = registry.subscription addr :=
  AList.lookup_erase_ne (fun he => h he.symm)

/-- What is left of an entry when event types are taken out of it. -/
def without (events : Finset EventType) (subscription : EventSubscription) :
    Option EventSubscription :=
  if subscription.events \ events = ∅ then none else some ⟨subscription.events \ events⟩

/-- Types are taken away, and with the last of them the subscription. -/
theorem subscription_unsubscribe (registry : Registry σ) (addr : SocketAddr)
    (events : List EventType) : (registry.unsubscribe addr events).subscription addr =
      (registry.subscription addr).bind (without events.toFinset) := by
  unfold unsubscribe
  split
  next subscription hsub =>
    rw [show registry.subscription addr = some subscription from hsub, foldl_erase]
    unfold without
    rw [Option.bind_some]
    dsimp only
    split
    next => exact AList.lookup_erase _ _
    next => exact AList.lookup_insert _
  next hnone =>
    rw [show registry.subscription addr = none from hnone]
    rfl

/-- That is nothing to another address. -/
theorem subscription_unsubscribe_ne (registry : Registry σ) {addr other : SocketAddr}
    (h : other ≠ addr) (events : List EventType) :
    (registry.unsubscribe other events).subscription addr = registry.subscription addr := by
  have hne : addr ≠ other := fun he => h he.symm
  unfold unsubscribe
  split
  next =>
    dsimp only
    split
    next => exact AList.lookup_erase_ne hne
    next => exact AList.lookup_insert_ne hne
  next => rfl

/-- A subscription is in the map of subscribers only. -/
theorem subscription_congr {r r' : Registry σ} (h : r.subscribers = r'.subscribers)
    (addr : SocketAddr) : r.subscription addr = r'.subscription addr := by
  unfold subscription
  rw [h]

variable [RegistryBackend σ]

/-- What other tasks do is nothing to the address. -/
theorem subscription_attempt (registry : Registry σ) {addr : SocketAddr} {op : Faults × Operation}
    (h : op.2.Elsewhere addr) :
    (registry.attempt op).1.subscription addr = registry.subscription addr := by
  obtain ⟨faults, op⟩ := op
  cases op with
  | register entry now =>
    show (registry.register faults entry now).1.subscription addr = _
    unfold register
    split
    next => rfl
    next => rfl
    next => exact subscription_congr (subscribers_storeAndEmit ..) addr
  | addOrUpdate entry now =>
    show (registry.addOrUpdate faults entry now).1.subscription addr = _
    unfold addOrUpdate
    split
    next => rfl
    next => exact subscription_congr (subscribers_storeAndEmit ..) addr
  | updateState name newState changedAt now =>
    exact subscription_congr (subscribers_updateState ..) addr
  | updateEndpoints name endpoints now =>
    show (registry.updateEndpoints faults name endpoints now).1.subscription addr = _
    unfold updateEndpoints
    split
    next => rfl
    next => exact subscription_congr (subscribers_storeAndEmit ..) addr
  | deregister name now =>
    show (registry.deregister faults name now).1.subscription addr = _
    unfold deregister
    dsimp only
    split
    next => rfl
    next => rfl
    next => rfl
  | subscribe other events => exact registry.subscription_subscribe_ne h events
  | unsubscribe other events => exact registry.subscription_unsubscribe_ne h events
  | removeSubscriber other => exact registry.subscription_removeSubscriber_ne h
  | get name => rfl
  | list => rfl
  | listEndpoints => rfl

end Registry

namespace ConnectionHandler

/-- The entry for the address after a request. -/
def entryAfterRequest (entry : Option EventSubscription) : Request → Option EventSubscription
  | .subscribe (.ok events) => some ⟨events.toFinset⟩
  | .unsubscribe (.ok events) => entry.bind (Registry.without events.toFinset)
  | _ => entry

/-- The entry for the address after a turn of the loop. -/
def entryAfter (entry : Option EventSubscription) : Incoming → Option EventSubscription
  | .text (.ok (.request _ request)) => entryAfterRequest entry request
  | _ => entry

/-- A `?` is reached: the error response to a text that cannot be read is not sent, or
neither the answer to a request nor the error response after it, or a pong is not. -/
def Fails (circumstances : Circumstances) : Incoming → Prop
  | .text (.error _) => circumstances.errorReply ≠ none
  | .text (.ok (.request _ _)) => circumstances.reply ≠ none ∧ circumstances.errorReply ≠ none
  | .ping _ => circumstances.pong ≠ none
  | _ => False

/-- A `break` is reached. -/
def Stops : Incoming → Prop
  | .close => True
  | .error _ => True
  | _ => False

/-! ## One turn -/

variable {σ : Type} [RegistryBackend σ]

/-- What a request does to the subscription of its own address. -/
theorem subscription_respond (handler : ConnectionHandler) (registry : Registry σ)
    (circumstances : Circumstances) (request : Request) :
    (handler.respond registry circumstances request).2.1.subscription handler.addr =
      entryAfterRequest (registry.subscription handler.addr) request := by
  cases request with
  | subscribe params =>
    cases params with
    | error e => rfl
    | ok events => exact Registry.subscription_subscribe ..
  | unsubscribe params =>
    cases params with
    | error e => rfl
    | ok events => exact Registry.subscription_unsubscribe ..
  | serviceAction params =>
    show (handleServiceAction registry circumstances params).1.subscription handler.addr = _
    unfold handleServiceAction
    split
    next => rfl
    next =>
      split
      next => rfl
      next => exact Registry.subscription_congr (Registry.subscribers_updateState ..) _
  | _ => rfl

/-- What a turn leaves for the address, and how it ends. -/
structure TurnSpec (handler : ConnectionHandler) (registry : Registry σ)
    (circumstances : Circumstances) (incoming : Incoming)
    (result : ConnectionHandler × Registry σ × Flow) : Prop where
  addr : result.1.addr = handler.addr
  entry : result.2.1.subscription handler.addr =
    entryAfter (registry.subscription handler.addr) incoming
  flow : match result.2.2 with
    | .next => ¬ Fails circumstances incoming ∧ ¬ Stops incoming
    | .stop => ¬ Fails circumstances incoming ∧ Stops incoming
    | .fail _ => Fails circumstances incoming

/-- One turn of the loop, by what comes in and what fails. -/
theorem turn_spec (handler : ConnectionHandler) (registry : Registry σ)
    (circumstances : Circumstances) (incoming : Incoming) :
    TurnSpec handler registry circumstances incoming
      (handler.turn registry circumstances incoming) := by
  cases incoming with
  | text parsed =>
    cases parsed with
    | error e =>
      -- a text that cannot be read is answered by an error, outside of any request
      rw [turn_text_error (e := .registry (.json e)) rfl]
      refine ⟨addr_send .., rfl, ?_⟩
      cases hfault : circumstances.errorReply with
      | none => simp [sendErrorResponse, sendMessage, send, Flow.ofResult, Fails, Stops, hfault]
      | some e' => simp [sendErrorResponse, sendMessage, send, Flow.ofResult, Fails, hfault]
    | ok text =>
      cases text with
      | request id request =>
        have hentry := handler.subscription_respond registry circumstances request
        have haddr := handler.addr_respond registry circumstances request
        have hprocess : handler.processTextMessage registry circumstances
            (.ok (.request id request)) =
          (((handler.respond registry circumstances request).1.reply circumstances.reply id
              (handler.respond registry circumstances request).2.2).1,
            (handler.respond registry circumstances request).2.1,
            ((handler.respond registry circumstances request).1.reply circumstances.reply id
              (handler.respond registry circumstances request).2.2).2) := rfl
        -- whether the loop goes on is decided by two sends: the answer, and an error about it
        cases hreply : circumstances.reply with
        | none =>
          rw [hreply, reply_works] at hprocess
          rw [turn_text_ok hprocess]
          exact ⟨(addr_reply ..).trans haddr, hentry, by simp [Fails, Stops, hreply]⟩
        | some e =>
          rw [hreply, reply_fails] at hprocess
          rw [turn_text_error hprocess]
          refine ⟨(addr_send ..).trans ((addr_reply ..).trans haddr), hentry, ?_⟩
          cases hfault : circumstances.errorReply with
          | none =>
            simp [sendErrorResponse, sendMessage, send, Flow.ofResult, Fails, Stops, hfault]
          | some e' =>
            simp [sendErrorResponse, sendMessage, send, Flow.ofResult, Fails, hreply, hfault]
      | other =>
        have hprocess : handler.processTextMessage registry circumstances (.ok .other) =
            (handler, registry, .ok ()) := rfl
        rw [turn_text_ok hprocess]
        exact ⟨rfl, rfl, by simp [Fails, Stops]⟩
  | close => exact ⟨rfl, rfl, by simp [turn, Fails, Stops]⟩
  | ping data =>
    refine ⟨addr_send .., rfl, ?_⟩
    cases hfault : circumstances.pong with
    | none => simp [turn, send, Flow.ofResult, Fails, Stops, hfault]
    | some e => simp [turn, send, Flow.ofResult, Fails, hfault]
  | other => exact ⟨rfl, rfl, by simp [turn, Fails, Stops]⟩
  | error message => exact ⟨rfl, rfl, by simp [turn, Fails, Stops]⟩

/-! ## The loop -/

variable {addr : SocketAddr}

/-- The entry for the address after some turns. -/
def entryAfterAll (entry : Option EventSubscription) (turns : List (Turn addr)) :
    Option EventSubscription :=
  turns.foldl (fun entry turn => entryAfter entry turn.incoming) entry

/-- What happens between two turns is nothing to the address. -/
theorem subscription_meanwhile (registry : Registry σ) (turn : Turn addr) :
    (meanwhile registry turn).subscription addr = registry.subscription addr := by
  unfold meanwhile
  generalize turn.others = others
  induction others generalizing registry with
  | nil => rfl
  | cons op others ih =>
    exact (ih _).trans (registry.subscription_attempt op.2)

/-- The loop gets to its turn, past all that come before. -/
def Reached (earlier : List (Turn addr)) : Prop :=
  ∀ turn ∈ earlier, ¬ Fails turn.circumstances turn.incoming ∧ ¬ Stops turn.incoming

/-- Whenever a `?` is reached, the address has no entry. -/
def FailsUnsubscribed (entry : Option EventSubscription) (turns : List (Turn addr)) : Prop :=
  ∀ earlier turn later, turns = earlier ++ turn :: later → Reached earlier →
    Fails turn.circumstances turn.incoming → entryAfterAll entry (earlier ++ [turn]) = none

/-- The first turn apart. -/
theorem failsUnsubscribed_cons {entry : Option EventSubscription} {t : Turn addr}
    {turns : List (Turn addr)} : FailsUnsubscribed entry (t :: turns) ↔
      (Fails t.circumstances t.incoming → entryAfter entry t.incoming = none) ∧
      (¬ Fails t.circumstances t.incoming → ¬ Stops t.incoming →
        FailsUnsubscribed (entryAfter entry t.incoming) turns) := by
  constructor
  · intro h
    refine ⟨h [] t turns rfl (by simp [Reached]), ?_⟩
    intro hfails hstops earlier turn later heq hreached hturn
    refine h (t :: earlier) turn later (by rw [heq, List.cons_append]) ?_ hturn
    intro turn' hmem
    rcases List.mem_cons.mp hmem with rfl | hmem
    · exact ⟨hfails, hstops⟩
    · exact hreached turn' hmem
  · intro ⟨hfirst, hrest⟩ earlier turn later heq hreached hturn
    cases earlier with
    | nil =>
      obtain ⟨rfl, _⟩ : t = turn ∧ turns = later := by simpa using heq
      exact hfirst hturn
    | cons t' earlier =>
      obtain ⟨rfl, hturns⟩ : t = t' ∧ turns = earlier ++ turn :: later := by simpa using heq
      obtain ⟨hfails, hstops⟩ := hreached t (List.mem_cons_self ..)
      exact hrest hfails hstops earlier turn later hturns
        (fun turn' hmem => hreached turn' (List.mem_cons_of_mem _ hmem)) hturn

/-- The loop leaves no subscription if and only if it ends where there was none. -/
theorem processMessages_iff (turns : List (Turn addr)) : ∀ (handler : ConnectionHandler)
    (registry : Registry σ), handler.addr = addr →
      ((handler.processMessages registry turns).2.1.subscription addr = none ↔
        FailsUnsubscribed (registry.subscription addr) turns) := by
  induction turns with
  | nil =>
    intro handler registry haddr
    rw [← haddr]
    refine iff_of_true (registry.subscription_removeSubscriber handler.addr) ?_
    intro earlier turn later heq
    simp at heq
  | cons t turns ih =>
    intro handler registry haddr
    have hspec := handler.turn_spec (meanwhile registry t) t.circumstances t.incoming
    have hentry := hspec.entry
    rw [haddr, subscription_meanwhile] at hentry
    rw [failsUnsubscribed_cons]
    unfold processMessages
    split
    next handler' registry' heq =>
      rw [heq] at hspec hentry
      rw [ih handler' registry' (hspec.addr.trans haddr), hentry]
      obtain ⟨hfails, hstops⟩ := hspec.flow
      simp [hfails, hstops]
    next handler' registry' heq =>
      rw [heq] at hspec
      obtain ⟨hfails, hstops⟩ := hspec.flow
      have hgone : (registry'.removeSubscriber handler'.addr).subscription addr = none := by
        rw [show handler'.addr = addr from hspec.addr.trans haddr]
        exact registry'.subscription_removeSubscriber addr
      exact iff_of_true hgone ⟨fun h => absurd h hfails, fun _ h => absurd hstops h⟩
    next handler' registry' e heq =>
      rw [heq] at hspec hentry
      have hfails : Fails t.circumstances t.incoming := hspec.flow
      rw [hentry]
      simp [hfails]

/-- The first message of a connection. -/
theorem sendInitialState_spec (handler : ConnectionHandler) (registry : Registry σ)
    (circumstances : Circumstances) :
    (handler.sendInitialState registry circumstances).1.addr = handler.addr ∧
      ((handler.sendInitialState registry circumstances).2 = .ok () ↔
        circumstances.serialize = none ∧ circumstances.reply = none) := by
  unfold sendInitialState
  dsimp only
  cases hserialize : circumstances.serialize with
  | some e => simp
  | none =>
    refine ⟨addr_send .., ?_⟩
    cases hreply : circumstances.reply with
    | some e => simp [sendMessage, send]
    | none => simp [sendMessage, send]

/-- When `handle` has returned, the registry has no entry for the connection's address
exactly if it had none at the `?` that ended it, if one did: at the start, when the
initial state is not sent, and else after the messages so far. -/
theorem cleaned_up_iff (registry : Registry σ) (addr : SocketAddr) (initial : Circumstances)
    (turns : List (Turn addr)) :
    ((accept addr).handle registry initial turns).2.1.subscription addr = none ↔
      if initial.serialize = none ∧ initial.reply = none then
        FailsUnsubscribed (registry.subscription addr) turns
      else registry.subscription addr = none := by
  obtain ⟨haddr, hsent⟩ := (accept addr).sendInitialState_spec registry initial
  unfold handle
  split
  next handler e heq =>
    rw [heq] at hsent
    rw [if_neg (fun h => by simpa using hsent.mpr h)]
  next handler heq =>
    rw [heq] at hsent haddr
    rw [if_pos (hsent.mp rfl)]
    exact processMessages_iff turns handler registry haddr

/-- A client that has subscribed sends a ping and is gone before the pong. -/
theorem ping_leaves_entry : ¬ ∀ (serde : Serde) (addr : SocketAddr) (initial : Circumstances)
    (turns : List (Turn addr)),
    ((accept addr).handle (Registry.new serde) initial turns).2.1.subscription addr = none := by
  intro h
  let gone : Circumstances := { smooth with pong := some (.webSocket "Broken pipe") }
  have hleft := h Serde.numbered (.v4 0x7f000001 40000) smooth
    [⟨[], smooth, .text (.ok (.request "1" (.subscribe (.ok [.serviceStateChanged]))))⟩,
      ⟨[], gone, .ping []⟩]
  have hentry : some (⟨{.serviceStateChanged}⟩ : EventSubscription) = none := hleft
  cases hentry

end ConnectionHandler

end GraphHarness.ServiceRegistry
