import GraphHarness.ServiceRegistry.Client

/-!
# Clients under maps

A client looks neither into its requests nor into its data. Where both are replaced, by any
two functions, its steps stay what they are (`step_map`).

`Client.map` replaces requests and data in every part of the state, and `ClientEvent.map` in
an event. `step_map` is put together from one lemma for each event, and is used to compare the
client over documents with the client over the messages themselves (`Documents.lean`).
-/

namespace GraphHarness.ServiceRegistry

variable {ρ ρ' V V' : Type}

/-- A phase over other data. -/
def Phase.map (g : V → V') : Phase V → Phase V'
  | .registered => .registered
  | .waiting => .waiting
  | .abandoned => .abandoned
  | .refused => .refused
  | .cancelled => .cancelled
  | .answered result => .answered (result.map g)

/-- A call is over or not, whatever the data. -/
theorem isOver_map (g : V → V') (phase : Phase V) : (phase.map g).isOver = phase.isOver := by
  cases phase with
  | _ => rfl

/-- A call over other requests and data. -/
def Call.map (f : ρ → ρ') (g : V → V') (call : Call ρ V) : Call ρ' V' :=
  ⟨call.id, f call.request, call.phase.map g, call.channel.map fun (n, result) => (n, result.map g)⟩

/-- A message over other requests. -/
def ClientMessage.map (f : ρ → ρ') : ClientMessage ρ → ClientMessage ρ'
  | .request id body => .request id (f body)
  | .close => .close

/-- What is heard, over other data. -/
def Heard.map (g : V → V') : Heard V → Heard V'
  | .response id data error => .response id (data.map g) error
  | .event => .event
  | .request => .request
  | .unreadable => .unreadable
  | .frame => .frame

/-- An event over other requests and data. -/
def ClientEvent.map (f : ρ → ρ') (g : V → V') : ClientEvent ρ V → ClientEvent ρ' V'
  | .register id request => .register id (f request)
  | .enqueue i => .enqueue i
  | .complete i => .complete i
  | .abandon i => .abandon i
  | .close => .close
  | .dropHandles => .dropHandles
  | .transmit => .transmit
  | .hear message => .hear (message.map g)
  | .exit reason => .exit reason

/-- What a response comes to. -/
theorem outcome_map (g : V → V') (data : Option V) (error : Option String) :
    outcome (data.map g) error = (outcome data error).map g := by
  cases error with
  | some message => rfl
  | none =>
    cases data with
    | none => rfl
    | some data => rfl

namespace Client

/-- A client over other requests and data. -/
def map (f : ρ → ρ') (g : V → V') (s : Client ρ V) : Client ρ' V' where
  calls := s.calls.map (Call.map f g)
  pending := s.pending
  queue := s.queue.map (ClientMessage.map f)
  sent := s.sent.map (ClientMessage.map f)
  received := s.received.map (Heard.map g)
  running := s.running
  handles := s.handles

variable {f : ρ → ρ'} {g : V → V'}

/-- Changing a call before or after. -/
theorem map_modify (calls : List (Call ρ V)) (i : Nat) (change : Call ρ V → Call ρ V)
    (change' : Call ρ' V' → Call ρ' V')
    (h : ∀ call, (change call).map f g = change' (call.map f g)) :
    (calls.modify i change).map (Call.map f g) = (calls.map (Call.map f g)).modify i change' := by
  apply List.ext_getElem?
  intro j
  rw [List.getElem?_map, List.getElem?_modify, List.getElem?_modify, List.getElem?_map]
  cases calls[j]? with
  | none => rfl
  | some call =>
    by_cases hi : i = j
    · simp [hi, h]
    · simp [hi]

/-- A phase is set before or after. -/
theorem map_setPhase (s : Client ρ V) (i : Nat) (phase : Phase V) :
    (s.setPhase i phase).map f g = (s.map f g).setPhase i (phase.map g) := by
  unfold setPhase map
  dsimp only
  rw [map_modify s.calls i _ (fun call => { call with phase := phase.map g }) fun _ => rfl]

/-- A message is handled before or after. -/
theorem map_handleMessage (s : Client ρ V) (message : Heard V) :
    (s.handleMessage message).map f g = (s.map f g).handleMessage (message.map g) := by
  cases message with
  | response id data error =>
    unfold handleMessage Heard.map
    dsimp only
    have hpending : (s.map f g).pending = s.pending := rfl
    rw [hpending]
    cases hlookup : s.pending.lookup id with
    | none => simp [map, Heard.map]
    | some i =>
      have hlength : (s.map f g).received.length = s.received.length := List.length_map ..
      dsimp only
      rw [hlength]
      unfold map
      dsimp only
      rw [map_modify s.calls i _ (fun call =>
        { call with channel := some (s.received.length, outcome (data.map g) error) })]
      · simp [Heard.map]
      · intro call
        simp [Call.map, outcome_map]
  | _ => simp [handleMessage, map, Heard.map]

/-- The loop can end or not, whatever the data. -/
theorem map_canExit (s : Client ρ V) (reason : Exit) :
    (s.map f g).canExit reason = s.canExit reason := by
  have hempty : (s.map f g).queue.isEmpty = s.queue.isEmpty := List.isEmpty_map ..
  cases reason with
  | sendersDropped =>
    show ((s.map f g).queue.isEmpty && !s.handles) = _
    rw [hempty]
    rfl
  | closeSent | closeNotSent | notSerialized | notSent =>
    unfold canExit map
    dsimp only
    cases s.queue with
    | nil => rfl
    | cons first queue =>
      cases first with
      | request id request => rfl
      | close => rfl
  | _ => rfl

/-- What is sent at the end of the loop. -/
theorem map_sentAtExit (s : Client ρ V) (reason : Exit) :
    (s.map f g).sentAtExit reason = (s.sentAtExit reason).map (ClientMessage.map f) := by
  cases reason with
  | closeSent => simp [sentAtExit, map, ClientMessage.map]
  | _ => rfl

/-! ## The steps -/

/-- The calls one by one. -/
theorem map_calls (s : Client ρ V) (i : Nat) :
    (s.map f g).calls[i]? = s.calls[i]?.map (Call.map f g) := List.getElem?_map

/-- A step that is taken under a condition, where the map keeps the condition. -/
theorem map_guard {c c' : Prop} [Decidable c] [Decidable c'] (hguard : c' ↔ c) {s : Client ρ V}
    {s' : Client ρ' V'} (hs : s' = s.map f g) :
    (if c' then some s' else none) = (if c then some s else none).map (map f g) := by
  by_cases hc : c
  · rw [if_pos hc, if_pos (hguard.mpr hc), hs]
    rfl
  · rw [if_neg hc, if_neg fun hc' => hc (hguard.mp hc')]
    rfl

/-- A call is registered. -/
theorem map_register (s : Client ρ V) (id : String) (request : ρ) :
    (s.map f g).step (.register id (f request)) =
      (s.step (.register id request)).map (map f g) := by
  have hfresh : (∀ call ∈ (s.map f g).calls, call.id ≠ id) ↔ ∀ call ∈ s.calls, call.id ≠ id :=
    List.forall_mem_map
  refine map_guard (and_congr Iff.rfl hfresh) ?_
  have hlength : (s.map f g).calls.length = s.calls.length := List.length_map ..
  rw [hlength]
  simp [map, Call.map, Phase.map]

/-- A request is put into the queue. -/
theorem map_enqueue (s : Client ρ V) (i : Nat) :
    (s.map f g).step (.enqueue i) = (s.step (.enqueue i)).map (map f g) := by
  unfold step
  dsimp only
  rw [map_calls]
  cases s.calls[i]? with
  | none => rfl
  | some call =>
    obtain ⟨id, request, phase, channel⟩ := call
    cases phase with
    | registered =>
      simp only [Option.map_some, Call.map, Phase.map]
      by_cases hrunning : s.running = true
      · have hmapped : (s.map f g).running = true := hrunning
        rw [if_pos hrunning, if_pos hmapped]
        have hqueue := congrArg (fun c : Client ρ' V' => { c with
          queue := (s.map f g).queue ++ [ClientMessage.request id (f request)] })
          (map_setPhase (f := f) (g := g) s i .waiting).symm
        refine congrArg some (hqueue.trans ?_)
        simp [map, ClientMessage.map]
      · have hmapped : ¬ (s.map f g).running = true := hrunning
        rw [if_neg hrunning, if_neg hmapped]
        exact congrArg some (map_setPhase s i .refused).symm
    | _ => rfl

/-- A call returns. -/
theorem map_complete (s : Client ρ V) (i : Nat) :
    (s.map f g).step (.complete i) = (s.step (.complete i)).map (map f g) := by
  unfold step
  dsimp only
  rw [map_calls]
  cases s.calls[i]? with
  | none => rfl
  | some call =>
    obtain ⟨id, request, phase, channel⟩ := call
    cases phase with
    | waiting =>
      cases channel with
      | some brought => exact congrArg some (map_setPhase s i (.answered brought.2)).symm
      | none =>
        -- the other end of the channel is as far as it was
        have hpending : (s.map f g).pending = s.pending := rfl
        simp only [Option.map_some, Call.map, Phase.map, Option.map_none, hpending]
        by_cases hlookup : s.pending.lookup id = some i
        · rw [if_pos hlookup, if_pos hlookup]
          rfl
        · rw [if_neg hlookup, if_neg hlookup]
          have hphase := map_setPhase (f := f) (g := g) s i .cancelled
          exact congrArg some (congrArg
            (fun c : Client ρ' V' => { c with pending := s.pending.erase id }) hphase.symm)
    | _ => rfl

/-- A call is given up. -/
theorem map_abandon (s : Client ρ V) (i : Nat) :
    (s.map f g).step (.abandon i) = (s.step (.abandon i)).map (map f g) := by
  unfold step
  dsimp only
  rw [map_calls]
  cases s.calls[i]? with
  | none => rfl
  | some call =>
    obtain ⟨id, request, phase, channel⟩ := call
    cases phase with
    | waiting => exact congrArg some (map_setPhase s i .abandoned).symm
    | _ => rfl

/-- The client is closed. -/
theorem map_close (s : Client ρ V) :
    (s.map f g).step .close = (s.step .close).map (map f g) := by
  refine map_guard Iff.rfl ?_
  by_cases hrunning : s.running = true
  · have hmapped : (s.map f g).running = true := hrunning
    rw [if_pos hrunning, if_pos hmapped]
    simp [map, ClientMessage.map]
  · have hmapped : ¬ (s.map f g).running = true := hrunning
    rw [if_neg hrunning, if_neg hmapped]

/-- The client is dropped. -/
theorem map_dropHandles (s : Client ρ V) :
    (s.map f g).step .dropHandles = (s.step .dropHandles).map (map f g) := by
  have hover : (∀ call ∈ (s.map f g).calls, call.phase.isOver = true) ↔
      ∀ call ∈ s.calls, call.phase.isOver = true := by
    refine List.forall_mem_map.trans (forall₂_congr fun call _ => ?_)
    rw [Call.map, isOver_map]
  exact map_guard (and_congr Iff.rfl hover) rfl

/-- A message is sent. -/
theorem map_transmit (s : Client ρ V) :
    (s.map f g).step .transmit = (s.step .transmit).map (map f g) := by
  unfold step map
  dsimp only
  cases s.running with
  | false => rfl
  | true =>
    cases s.queue with
    | nil => rfl
    | cons first queue =>
      cases first with
      | request id body => simp [ClientMessage.map]
      | close => rfl

/-- The loop ends. -/
theorem map_exit (s : Client ρ V) (reason : Exit) :
    (s.map f g).step (.exit reason) = (s.step (.exit reason)).map (map f g) := by
  refine map_guard (and_congr Iff.rfl ?_) ?_
  · rw [map_canExit]
  · rw [map_sentAtExit]
    rfl

/-- A step of the client that is mapped is the step, mapped. -/
theorem step_map (s : Client ρ V) (event : ClientEvent ρ V) :
    (s.map f g).step (event.map f g) = (s.step event).map (map f g) := by
  cases event with
  | register id request => exact map_register s id request
  | enqueue i => exact map_enqueue s i
  | complete i => exact map_complete s i
  | abandon i => exact map_abandon s i
  | close => exact map_close s
  | dropHandles => exact map_dropHandles s
  | transmit => exact map_transmit s
  | hear message => exact map_guard Iff.rfl (map_handleMessage s message).symm
  | exit reason => exact map_exit s reason

end Client

end GraphHarness.ServiceRegistry
