import GraphHarness.Harness.Handlers
import GraphHarness.Harness.Stop
import GraphHarness.Trace.Dialogue

/-!
# A client and its daemon

One client's requests to the daemon, one after the other. The connection may lose a
request, or the answer to one that the daemon has handled; an answer that arrives is that of
the request. `send` is the world that the commands' dialogues are held with.

A turn has three parts: what happens outside while the daemon handles the request, what
becomes of the request (`Fate`), and the error the client sees if the daemon's handler panics.
A run of turns is a function of their number, so every statement is about any sequence of
them.

The lemmas `send_start`, `send_stop` and `send_list` say, for one request each, what the
daemon has afterwards and what the client was told, which need not fit together (`Lossy`).
-/

namespace GraphHarness.Session

open Handlers (Rendering Surroundings handleRequest startedNetworkInfo)
open Orchestration (RunningService ServiceConfig ServiceManager)
open Protocol (Answer Request Response)
open ServiceRegistry (RegistryBackend)

/-- What becomes of a request: it does not reach the daemon, or its answer does not reach
the client, or nothing is lost. -/
inductive Fate where
  | unsent (e : String)
  | unread (e : String)
  | answered

/-- What a request meets. `gone` is the error of a connection that the daemon has dropped. -/
structure Turn where
  outside : Surroundings
  fate : Fate
  gone : String

variable {σ : Type} [RegistryBackend σ]

/-- One request. The number is that of the requests before it. -/
def send (rendering : Rendering) (turns : Nat → Turn) (world : ServiceManager σ × Nat)
    (request : Request) : (ServiceManager σ × Nat) × Answer :=
  let turn := turns world.2
  let handled := handleRequest rendering turn.outside world.1 request
  match turn.fate with
  | .unsent e => ((world.1, world.2 + 1), .error e)
  | .unread e => ((handled.1, world.2 + 1), .error e)
  | .answered =>
    ((handled.1, world.2 + 1), match handled.2 with
      | some response => .ok response
      | none => .error turn.gone)

/-- Something is lost on the way. -/
def Lossy (turns : Nat → Turn) : Prop := ∃ n, (turns n).fate ≠ .answered

variable (rendering : Rendering) (turns : Nat → Turn) (world : ServiceManager σ × Nat)

/-- A request that only reads changes nothing. -/
theorem send_reads {request : Request}
    (h : ∀ outside, (handleRequest rendering outside world.1 request).1 = world.1) :
    (send rendering turns world request).1.1 = world.1 := by
  unfold send
  dsimp only
  split
  next => rfl
  next => exact h _
  next => exact h _

/-- A start changes nothing, and is answered by an error, or its service is active. It is
then answered so, unless the name is blank or this answer is lost. -/
theorem send_start (name : String) (config : ServiceConfig) :
    let sent := send rendering turns world (.startService name config)
    (sent.1.1.activeServices = world.1.activeServices ∧ Stop.isFailure sent.2 = true) ∨
    ∃ service, name ∉ world.1.activeServices ∧ service.config = config ∧
      sent.1.1.activeServices = world.1.activeServices.insert name service ∧
      (sent.2 = .ok (.serviceStarted name (startedNetworkInfo name service)) ∨
        Stop.isFailure sent.2 = true ∧ (isBlank name = true ∨
          ∃ e, (turns world.2).fate = .unread e ∧ sent.2 = .error e)) := by
  have hstart := Handlers.handleRequest_start rendering (turns world.2).outside world.1 name config
  unfold send
  dsimp only at hstart ⊢
  cases hfate : (turns world.2).fate with
  | unsent e => exact .inl ⟨rfl, rfl⟩
  | unread e =>
    rcases hstart with ⟨hactive, _⟩ | ⟨service, hfree, hconfig, hactive, _⟩
    · exact .inl ⟨hactive, rfl⟩
    · exact .inr ⟨service, hfree, hconfig, hactive, .inr ⟨rfl, .inr ⟨e, rfl, rfl⟩⟩⟩
  | answered =>
    rcases hstart with ⟨hactive, hnone | ⟨message, herror⟩⟩ | ⟨service, hfree, hconfig, hactive,
      ⟨hblank, message, herror⟩ | ⟨_, hstarted⟩⟩
    · rw [hnone]
      exact .inl ⟨hactive, rfl⟩
    · rw [herror]
      exact .inl ⟨hactive, rfl⟩
    · rw [herror]
      exact .inr ⟨service, hfree, hconfig, hactive, .inr ⟨rfl, .inl hblank⟩⟩
    · rw [hstarted]
      exact .inr ⟨service, hfree, hconfig, hactive, .inl rfl⟩

/-- A stop takes the service out of the active ones, unless it does not reach the daemon.
Its answer is a success or an error, and a success is about a service that was active. -/
theorem send_stop (name : String) :
    let sent := send rendering turns world (.stopService name)
    (sent.1.1.activeServices = world.1.activeServices.erase name ∧
      (sent.2 = .ok .success ∧ name ∈ world.1.activeServices ∨ Stop.isFailure sent.2 = true)) ∨
    (Lossy turns ∧ sent.1.1.activeServices = world.1.activeServices ∧
      Stop.isFailure sent.2 = true) := by
  obtain ⟨hactive, hanswer⟩ :=
    Handlers.handleRequest_stop rendering (turns world.2).outside world.1 name
  unfold send
  dsimp only at hactive hanswer ⊢
  cases hfate : (turns world.2).fate with
  | unsent e => exact .inr ⟨⟨world.2, by simp [hfate]⟩, rfl, rfl⟩
  | unread e => exact .inl ⟨hactive, .inr rfl⟩
  | answered =>
    rcases hanswer with ⟨hsuccess, hmem⟩ | ⟨message, herror⟩
    · rw [hsuccess]
      exact .inl ⟨hactive, .inl ⟨rfl, hmem⟩⟩
    · rw [herror]
      exact .inl ⟨hactive, .inr rfl⟩

/-- The answer to a list is an error, or names the active services. -/
theorem send_list :
    let sent := send rendering turns world .listServices
    sent.1.1 = world.1 ∧
      (Lossy turns ∧ (∃ e, sent.2 = .error e) ∨
        ∃ services, sent.2 = .ok (.serviceList services) ∧ ∀ name,
          services.lookup name = if name ∈ world.1.activeServices then
            some (Handlers.status (turns world.2).outside world.1 name) else none) := by
  obtain ⟨services, hservices, hlookup⟩ :=
    Handlers.handleRequest_serviceList rendering (turns world.2).outside world.1
  refine ⟨send_reads rendering turns world fun _ => rfl, ?_⟩
  unfold send
  dsimp only
  cases hfate : (turns world.2).fate with
  | unsent e => exact .inl ⟨⟨world.2, by simp [hfate]⟩, e, rfl⟩
  | unread e => exact .inl ⟨⟨world.2, by simp [hfate]⟩, e, rfl⟩
  | answered =>
    rw [hservices]
    exact .inr ⟨services, rfl, hlookup⟩

/-- A request for health checks leaves the active services as they are. -/
theorem send_runHealthChecks : (send rendering turns world .runHealthChecks).1.1.activeServices =
    world.1.activeServices := by
  unfold send
  dsimp only
  split
  next => rfl
  next => rfl
  next => rfl

/-- Any invariant of the manager's calls is one of the requests. -/
theorem send_invariant {Inv : ServiceManager σ → Prop}
    (hstep : ∀ manager request, Inv manager → Inv (manager.perform request).1)
    (request : Request) (h : Inv world.1) : Inv (send rendering turns world request).1.1 := by
  have hhandled := Handlers.handleRequest_invariant hstep rendering (turns world.2).outside request
    h
  unfold send
  dsimp only
  split
  next => exact h
  next => exact hhandled
  next => exact hhandled

end GraphHarness.Session
