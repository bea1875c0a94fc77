import GraphHarness.ServiceRegistry.Models
import GraphHarness.Trace.Steps

/-!
# The WebSocket client (`service-registry/src/client.rs`)

One client: any number of `request` calls on its handles, the map of pending requests
they share with the message handler, and the handler itself. A call takes a step for each
time it touches what is shared; the handler takes one for each message it sends or hears.

What a request is and what a response carries is a parameter. The future of a call may be
dropped while it waits.

`Taken` is the inversion of one step, with a constructor for each of the things a client can
do. A call makes its id, puts its sender into the map and the request into the queue, in that
order and in separate steps; the handler takes from the queue and hears messages until it
ends, for one of the reasons of `Exit`.

Ids are fresh, as `Uuid::new_v4` is taken to be. The one-shot channel of a call is a field of
the call (`channel`), with the number of the message it was filled by. Time limits are not in
the source, so a call that is never answered waits until it is abandoned.
-/

namespace GraphHarness.ServiceRegistry

/-- Where a call of `request` is: its sender is in the map, its message is in the queue,
its future has been dropped, or it has returned, in one of three ways. -/
inductive Phase (V : Type) where
  | registered
  | waiting
  | abandoned
  | refused
  | cancelled
  | answered (result : Except Error V)

/-- What a call returns, if it has returned. -/
def Phase.result {V : Type} : Phase V → Option (Except Error V)
  | .refused => some (.error (.package "Failed to send request"))
  | .cancelled => some (.error (.package "Request cancelled"))
  | .answered result => some result
  | _ => none

/-- A call. `channel` is what has been sent to it, and which message brought it. -/
structure Call (ρ V : Type) where
  id : String
  request : ρ
  phase : Phase V
  channel : Option (Nat × Except Error V)

/-- What the client sends. -/
inductive ClientMessage (ρ : Type) where
  | request (id : String) (request : ρ)
  | close

/-- What the handler hears, until its stream ends: a message of the server, a text that
cannot be read, or a frame without text. -/
inductive Heard (V : Type) where
  | response (id : String) (data : Option V) (error : Option String)
  | event
  | request
  | unreadable
  | frame

/-- Why the handler ends. -/
inductive Exit where
  | closeSent
  | closeNotSent
  | notSerialized
  | notSent
  | sendersDropped
  | serverClosed
  | socketError
  | streamEnded

/-- A client. `queue` is what the handler has still to send, `sent` what it has sent and
`received` what it has heard. -/
structure Client (ρ V : Type) where
  calls : List (Call ρ V)
  pending : HashMap String Nat
  queue : List (ClientMessage ρ)
  sent : List (ClientMessage ρ)
  received : List (Heard V)
  running : Bool
  handles : Bool

/-- What happens at the client. -/
inductive ClientEvent (ρ V : Type) where
  | register (id : String) (request : ρ)
  | enqueue (i : Nat)
  | complete (i : Nat)
  | abandon (i : Nat)
  | close
  | dropHandles
  | transmit
  | hear (message : Heard V)
  | exit (reason : Exit)

/-- The call no longer keeps its handle. -/
def Phase.isOver {V : Type} : Phase V → Bool
  | .registered | .waiting => false
  | _ => true

/-- What a response says. -/
def outcome {V : Type} (data : Option V) (error : Option String) : Except Error V :=
  match error, data with
  | some message, _ => .error (.package message)
  | none, some data => .ok data
  | none, none => .error (.package "Empty response")

namespace Client

variable {ρ V : Type}

/-- A client that was just connected. -/
def connect : Client ρ V := ⟨[], ∅, [], [], [], true, true⟩

/-- A call comes to another phase. -/
def setPhase (s : Client ρ V) (i : Nat) (phase : Phase V) : Client ρ V :=
  { s with calls := s.calls.modify i fun call => { call with phase := phase } }

/-- A message that was heard. A response goes to the call whose sender is in the map, if
there is one, and takes the sender out. -/
def handleMessage (s : Client ρ V) (message : Heard V) : Client ρ V :=
  let heard := { s with received := s.received ++ [message] }
  match message with
  | .response id data error =>
    match s.pending.lookup id with
    | some i =>
      { heard with
        pending := s.pending.erase id
        calls := s.calls.modify i fun call =>
          { call with channel := some (s.received.length, outcome data error) } }
    | none => heard
  | _ => heard

/-- A message that was heard is added to what was received, may settle a call, and does
nothing else. -/
theorem handleMessage_eq (s : Client ρ V) (message : Heard V) : ∃ calls pending,
    s.handleMessage message =
      { s with calls := calls, pending := pending, received := s.received ++ [message] } ∧
    (calls = s.calls ∨ ∃ i channel,
      calls = s.calls.modify i fun call => { call with channel := channel }) := by
  unfold handleMessage
  cases message with
  | response id data error =>
    dsimp only
    split
    next => exact ⟨_, _, rfl, .inr ⟨_, _, rfl⟩⟩
    next => exact ⟨_, _, rfl, .inl rfl⟩
  | _ => exact ⟨_, _, rfl, .inl rfl⟩

/-- The handler can end for this reason. -/
def canExit (s : Client ρ V) : Exit → Bool
  | .closeSent | .closeNotSent => match s.queue with
    | .close :: _ => true
    | _ => false
  | .notSerialized | .notSent => match s.queue with
    | .request _ _ :: _ => true
    | _ => false
  | .sendersDropped => s.queue.isEmpty && !s.handles
  | .serverClosed | .socketError | .streamEnded => true

/-- What has been sent when the handler ends. -/
def sentAtExit (s : Client ρ V) : Exit → List (ClientMessage ρ)
  | .closeSent => s.sent ++ [.close]
  | _ => s.sent

/-- `Uuid::new_v4` gives an id that no other call has. A call keeps its handle alive. -/
def step (s : Client ρ V) : ClientEvent ρ V → Option (Client ρ V)
  | .register id request =>
    if s.handles = true ∧ ∀ call ∈ s.calls, call.id ≠ id then
      some { s with
        calls := s.calls ++ [⟨id, request, .registered, none⟩]
        pending := s.pending.insert id s.calls.length }
    else none
  | .enqueue i =>
    match s.calls[i]? with
    | some ⟨id, request, .registered, _⟩ =>
      if s.running = true then
        some { s.setPhase i .waiting with queue := s.queue ++ [.request id request] }
      else some (s.setPhase i .refused)
    | _ => none
  | .complete i =>
    match s.calls[i]? with
    | some ⟨_, _, .waiting, some (_, result)⟩ => some (s.setPhase i (.answered result))
    | some ⟨id, _, .waiting, none⟩ =>
      -- the other end is in the map, or gone
      if s.pending.lookup id = some i then none
      else some { s.setPhase i .cancelled with pending := s.pending.erase id }
    | _ => none
  | .abandon i =>
    match s.calls[i]? with
    | some ⟨_, _, .waiting, _⟩ => some (s.setPhase i .abandoned)
    | _ => none
  | .close =>
    if s.handles = true then
      some (if s.running = true then { s with queue := s.queue ++ [.close] } else s)
    else none
  | .dropHandles =>
    if s.handles = true ∧ ∀ call ∈ s.calls, call.phase.isOver = true then
      some { s with handles := false }
    else none
  | .transmit =>
    match s.running, s.queue with
    | true, .request id request :: queue =>
      some { s with queue := queue, sent := s.sent ++ [.request id request] }
    | _, _ => none
  | .hear message => if s.running = true then some (s.handleMessage message) else none
  | .exit reason =>
    if s.running = true ∧ s.canExit reason = true then
      some { s with running := false, queue := [], sent := s.sentAtExit reason }
    else none

/-- Everything a step can be. -/
inductive Taken (s : Client ρ V) : ClientEvent ρ V → Client ρ V → Prop
  | register {id : String} {request : ρ} (hfresh : ∀ call ∈ s.calls, call.id ≠ id) :
    Taken s (.register id request) { s with
      calls := s.calls ++ [⟨id, request, .registered, none⟩]
      pending := s.pending.insert id s.calls.length }
  | enqueue {i : Nat} {call : Call ρ V} (hcall : s.calls[i]? = some call)
    (hphase : call.phase = .registered) (hrunning : s.running = true) :
    Taken s (.enqueue i)
      { s.setPhase i .waiting with queue := s.queue ++ [.request call.id call.request] }
  | refuse {i : Nat} {call : Call ρ V} (hcall : s.calls[i]? = some call)
    (hphase : call.phase = .registered) (hrunning : s.running = false) :
    Taken s (.enqueue i) (s.setPhase i .refused)
  | complete {i n : Nat} {call : Call ρ V} {result : Except Error V}
    (hcall : s.calls[i]? = some call) (hphase : call.phase = .waiting)
    (hchannel : call.channel = some (n, result)) :
    Taken s (.complete i) (s.setPhase i (.answered result))
  | cancel {i : Nat} {call : Call ρ V} (hcall : s.calls[i]? = some call)
    (hphase : call.phase = .waiting) (hchannel : call.channel = none)
    (hgone : s.pending.lookup call.id ≠ some i) :
    Taken s (.complete i)
      { s.setPhase i .cancelled with pending := s.pending.erase call.id }
  | abandon {i : Nat} {call : Call ρ V} (hcall : s.calls[i]? = some call)
    (hphase : call.phase = .waiting) : Taken s (.abandon i) (s.setPhase i .abandoned)
  | close (hrunning : s.running = true) :
    Taken s .close { s with queue := s.queue ++ [.close] }
  | closeLate (hrunning : s.running = false) : Taken s .close s
  | dropHandles : Taken s .dropHandles { s with handles := false }
  | transmit {id : String} {request : ρ} {queue : List (ClientMessage ρ)}
    (hqueue : s.queue = .request id request :: queue) :
    Taken s .transmit { s with queue := queue, sent := s.sent ++ [.request id request] }
  | hear {message : Heard V} (hrunning : s.running = true) :
    Taken s (.hear message) (s.handleMessage message)
  | exit {reason : Exit} (hrunning : s.running = true) :
    Taken s (.exit reason) { s with running := false, queue := [], sent := s.sentAtExit reason }

/-- A step of the client is one of these. -/
theorem taken_of_step {s t : Client ρ V} {event : ClientEvent ρ V} (h : s.step event = some t) :
    Taken s event t := by
  cases event with
  | register id request =>
    unfold step at h
    dsimp only at h
    split at h
    next hguard =>
      obtain rfl := Option.some.inj h
      exact .register hguard.2
    next => simp at h
  | enqueue i =>
    unfold step at h
    dsimp only at h
    split at h
    next hcall =>
      split at h
      next hrunning =>
        obtain rfl := Option.some.inj h
        exact .enqueue hcall rfl hrunning
      next hrunning =>
        obtain rfl := Option.some.inj h
        exact .refuse hcall rfl (Bool.eq_false_iff.mpr hrunning)
    next => simp at h
  | complete i =>
    unfold step at h
    dsimp only at h
    split at h
    next hcall =>
      obtain rfl := Option.some.inj h
      exact .complete hcall rfl rfl
    next hcall =>
      split at h
      next => simp at h
      next hgone =>
        obtain rfl := Option.some.inj h
        exact .cancel hcall rfl rfl hgone
    next => simp at h
  | abandon i =>
    unfold step at h
    dsimp only at h
    split at h
    next hcall =>
      obtain rfl := Option.some.inj h
      exact .abandon hcall rfl
    next => simp at h
  | close =>
    unfold step at h
    dsimp only at h
    split at h
    next =>
      obtain rfl := Option.some.inj h
      split
      next hrunning => exact .close hrunning
      next hrunning => exact .closeLate (Bool.eq_false_iff.mpr hrunning)
    next => simp at h
  | dropHandles =>
    unfold step at h
    dsimp only at h
    split at h
    next =>
      obtain rfl := Option.some.inj h
      exact .dropHandles
    next => simp at h
  | transmit =>
    unfold step at h
    dsimp only at h
    split at h
    next hqueue =>
      obtain rfl := Option.some.inj h
      exact .transmit hqueue
    next => simp at h
  | hear message =>
    unfold step at h
    dsimp only at h
    split at h
    next hrunning =>
      obtain rfl := Option.some.inj h
      exact .hear hrunning
    next => simp at h
  | exit reason =>
    unfold step at h
    dsimp only at h
    split at h
    next hguard =>
      obtain rfl := Option.some.inj h
      exact .exit hguard.1
    next => simp at h

/-! ## The calls after a step -/

/-- The other calls stay as they are. -/
theorem call_setPhase {s : Client ρ V} {i j : Nat} {phase : Phase V} {call' : Call ρ V}
    (h : (s.setPhase i phase).calls[j]? = some call') : ∃ call, s.calls[j]? = some call ∧
      call' = if i = j then { call with phase := phase } else call := by
  simp only [setPhase, List.getElem?_modify, Option.map_eq_map, Option.map_eq_some_iff] at h
  obtain ⟨call, hcall, rfl⟩ := h
  exact ⟨call, hcall, rfl⟩

end Client

end GraphHarness.ServiceRegistry
