import GraphHarness.Harness.Format
import GraphHarness.Harness.ValidateStart
import GraphHarness.Orchestration.Accounts
import GraphHarness.Trace.Workshop

/-!
# Commands over their connections (`client/mod.rs`, `daemon/server.rs`)

A command holds its dialogue with the daemon over a connection: `send_request` writes a
request as a document and reads the next one as the answer, and `handle_connection` answers
each document with one and sends nothing else. What the text of a document is, and the TLS
below it, is left out. After a read that fails nothing more is read, and a send that fails
after its text has gone out is the end of the connection.

> `exchange_session`: over such a connection a command that has the daemon for itself is a
> session.

> `connections_safe`: any number of commands at once, whose starts and stops go on between
> each other's locks and awaits, leave the active services with their configurations, and no
> handle without its process but those of processes that were replaced.

The two results are about two models of the daemon. In the first one a request is handled in
one step, with the registry and the health checks and with the answers in full; this is what
`handle_request` does while nobody else asks. In the second one (`daemon`) the daemon is
`Orchestration.Calls`: a task for each connection takes a request up, its call goes on step by
step among all others, and goes on when the connection is gone. The registry and the
statuses of the health monitors are not part of it, so the answers of the requests that only
read are left open there.
-/

namespace GraphHarness.Connections

open Clients (AllMade Converts)
open Handlers (Rendering Surroundings handleRequest startAnswer stopAnswer)
open Orchestration (CallEvent Calls ServiceManager StopAnswer handles ids)
open Protocol (Answer Request Response)
open Serde (Json)
open ServiceRegistry (RegistryBackend)
open Session (Turn send)
open Trace (Asker Connection Dialogue Exchange ExchangeEvent Held Net NetEvent Sound Wire Workshop
  always_of_forall run run_concat run_invariant sound_run)

variable {σ : Type} [RegistryBackend σ]

/-- What is written and read. `parseError` is what `serde_json` says of a document that it cannot read
as a request. -/
def wire (parseError : Json → String) : Wire Request Response String Json where
  complain e := .error s!"Invalid request format: {e}"
  writeQuestion := Request.format.serialize
  readQuestion document :=
    match Request.format.deserialize document with
    | some request => .ok request
    | none => .error (parseError document)
  writeAnswer := Response.format.serialize
  readAnswer document :=
    match Response.format.deserialize document with
    | some response => .ok response
    | none => .error "Failed to parse daemon response"
  read_question request := by
    rw [show Request.format.deserialize (Request.format.serialize request) = some request from
      Request.roundTrips request]
  read_answer response := by
    rw [show Response.format.deserialize (Response.format.serialize response) = some response from
      Response.roundTrips response]

/-- The exchange of one connection, over the handlers of the daemon. -/
def exchange (rendering : Rendering) (parseError : Json → String) :
    Exchange (ServiceManager σ) Surroundings Request Response String Json where
  toWire := wire parseError
  handle := handleRequest rendering

/-! ## One connection -/

section Session

variable {rendering : Rendering} {manager : ServiceManager σ} {ρ : Type}
  {dialogue : Dialogue Request Answer ρ}

/-- The dialogue comes to the rest of it in so many turns. -/
def Begins (rendering : Rendering) (manager : ServiceManager σ)
    (dialogue : Dialogue Request Answer ρ) (n : Nat) (manager' : ServiceManager σ)
    (rest : Dialogue Request Answer ρ) : Prop :=
  ∃ turns : Nat → Turn, ∀ turns', (∀ i < n, turns' i = turns i) →
    dialogue.exec (send rendering turns') (manager, 0) =
      rest.exec (send rendering turns') (manager', n)

/-- One turn more. -/
theorem Begins.extend {n : Nat} {manager' : ServiceManager σ} {request : Request}
    {next : Answer → Dialogue Request Answer ρ}
    (h : Begins rendering manager dialogue n manager' (.ask request next)) (turn : Turn) :
    Begins rendering manager dialogue (n + 1)
      (send rendering (fun _ => turn) (manager', n) request).1.1
      (next (send rendering (fun _ => turn) (manager', n) request).2) := by
  obtain ⟨turns, hexec⟩ := h
  refine ⟨Function.update turns n turn, ?_⟩
  intro turns' hturns
  have hlast : turns' n = turn := by
    rw [hturns n (Nat.lt_succ_self n), Function.update_self]
  have hfirst : ∀ i < n, turns' i = turns i := by
    intro i hi
    rw [hturns i (Nat.lt_succ_of_lt hi), Function.update_of_ne (Nat.ne_of_lt hi)]
  have hsend : send rendering turns' (manager', n) request =
      send rendering (fun _ => turn) (manager', n) request := by
    unfold send
    dsimp only
    rw [hlast]
  have hnumber : (send rendering (fun _ => turn) (manager', n) request).1.2 = n + 1 := by
    unfold send
    dsimp only
    split
    next => rfl
    next => rfl
    next => rfl
  rw [hexec turns' hfirst, Dialogue.exec, hsend]
  congr 1
  exact Prod.ext rfl hnumber

/-- What is held with the handlers is the beginning of a session. -/
theorem begins_of_held {manager' : ServiceManager σ} {rest : Dialogue Request Answer ρ}
    (h : Held (handleRequest rendering) manager dialogue manager' rest) :
    ∃ n, Begins rendering manager dialogue n manager' rest := by
  induction h with
  | start => exact ⟨0, fun _ => StartSession.obligingTurn, fun _ _ => rfl⟩
  | unheard e _ ih =>
    obtain ⟨n, hbegins⟩ := ih
    exact ⟨n + 1, hbegins.extend ⟨StartSession.obligingTurn.outside, .unsent e, ""⟩⟩
  | heard e outside _ ih =>
    obtain ⟨n, hbegins⟩ := ih
    exact ⟨n + 1, hbegins.extend ⟨outside, .unread e, ""⟩⟩
  | answered outside _ hanswer ih =>
    obtain ⟨n, hbegins⟩ := ih
    have hnext := hbegins.extend ⟨outside, .answered, ""⟩
    unfold send at hnext
    dsimp only at hnext
    rw [hanswer] at hnext
    exact ⟨n + 1, hnext⟩

/-- Whatever the streams do to what is on them, a command that has come to its end has had a
session with the daemon, and the daemon is as after it. While it waits, and the connection
holds, there is one document on the way. So a response that arrives is always that to the
request of the same call. -/
theorem exchange_session (rendering : Rendering) (parseError : Json → String)
    (manager : ServiceManager σ) (dialogue : Dialogue Request Answer ρ)
    {events : List (ExchangeEvent Surroundings String)}
    {t : ServiceManager σ × Connection Request Response String Json ρ}
    (hrun : run (Connection.advance (exchange rendering parseError)) (manager, .start dialogue)
      events = some t) :
    (∀ value, t.2.asker = .ready (.ended value) → ∃ turns n,
      dialogue.exec (send rendering turns) (manager, 0) = ((t.1, n), value)) ∧
    ∀ next, t.2.asker = .waiting next → t.2.serving = true → t.2.broken = false →
      t.2.questions.length + t.2.answers.length = 1 := by
  have hsound := sound_run hrun
  refine ⟨?_, fun next hwaiting => hsound.in_flight hwaiting⟩
  intro value hended
  obtain ⟨n, turns, hexec⟩ := begins_of_held (hsound.held hended)
  exact ⟨turns, n, hexec turns fun _ _ => rfl⟩

/-- The answer to a stop is lost, and the daemon hears the request after that. -/
def resetEvents : List (ExchangeEvent Surroundings String) :=
  [.ask, .failRead "connection reset", .serve StartSession.obligingTurn.outside true]

/-- One request and its answer. -/
def stopDb : Dialogue Request Answer Answer := .ask (.stopService "db") .ended

/-- A connection that is reset before the answer is read. -/
theorem exchange_session_reset : ∃ t,
    run (Connection.advance (exchange StartSession.plainRendering fun _ => ""))
      (StartSession.newDaemon.1, .start stopDb) resetEvents = some t ∧
    ∃ turns n, stopDb.exec (send StartSession.plainRendering turns)
      (StartSession.newDaemon.1, 0) = ((t.1, n), .error "connection reset") := by
  have hrun : run (Connection.advance (exchange StartSession.plainRendering fun _ => ""))
    (StartSession.newDaemon.1, .start stopDb) resetEvents = some _ := rfl
  have hsession := exchange_session StartSession.plainRendering (fun _ => "") _ stopDb hrun
  exact ⟨_, hrun, hsession.1 _ rfl⟩

end Session

/-! ## Any number of connections -/

section Net

variable {cfg : Config}

/-- The dialogue of a command about the configuration: a start, a stop, or one that starts
nothing. -/
inductive Commanded (cfg : Config) : Dialogue Request Answer Unit → Prop where
  | start {late : String → Nat → Nat} {processEnv : HashMap String String} {ord : HashOrder}
      {services : List String} {dialogue : Dialogue Request Answer Start.Run}
      (h : StartSession.run late processEnv cfg ord services = some dialogue) :
      Commanded cfg (dialogue.map fun _ => ())
  | stop (late : String → Nat → Nat) (force : Bool) (timeout : Option UInt64)
      (ordAffected ordStop : HashOrder) (services : List String) (input : Except String String) :
      Commanded cfg ((StopSession.run late cfg force timeout ordAffected ordStop services input).map
        fun _ => ())
  | other {dialogue : Dialogue Request Answer Unit}
      (h : dialogue.Asks fun request => ∀ name config, request ≠ .startService name config) :
      Commanded cfg dialogue

/-- A command asks only for configurations converted from the file. -/
theorem Commanded.asks {dialogue : Dialogue Request Answer Unit} (h : Commanded cfg dialogue) :
    dialogue.Asks (Converts cfg) := by
  cases h with
  | start hrun => exact Dialogue.asks_map _ (Clients.start_asks _ hrun)
  | stop late force timeout ordAffected ordStop services input =>
    exact Dialogue.asks_map _
      (Clients.stop_asks late cfg force timeout ordAffected ordStop services input)
  | other hasks =>
    refine hasks.imp ?_
    intro request hrequest name config heq
    exact absurd heq (hrequest name config)

/-! ### The daemon at work -/

/-- What the daemon does for a connection: a call of the manager, by its number among the
starts or among the stops, or a request that only reads. -/
inductive Job where
  | start (i : Nat)
  | stop (i : Nat)
  | read

/-- One step of a call. -/
inductive Work where
  | start (i : Nat) (answer : Orchestration.Answer)
  | stop (i : Nat) (answer : StopAnswer)

/-- The step of the calls that a piece of work is. -/
def Work.event : Work → CallEvent
  | .start i answer => .advanceStart i answer
  | .stop i answer => .advanceStop i answer

/-- The daemon, with a task for each connection and one manager for all of them. Only a start
and a stop change what the calls share; what any other request is answered comes from
outside. A call that panics is one that is not worked on any more. -/
def daemon (rendering : Rendering) : Workshop Calls Response Request Response Work Job where
  takeUp calls
    | .startService name config =>
      ({ calls with starts := calls.starts ++ [⟨name, config, .check⟩] },
        .start calls.starts.length)
    | .stopService name =>
      ({ calls with stops := calls.stops ++ [⟨name, .take⟩] }, .stop calls.stops.length)
    | _ => (calls, .read)
  work calls work := calls.step work.event
  outcome response calls
    | .start i =>
      match calls.starts[i]? with
      | some ⟨name, _, .done (.ok service)⟩ => startAnswer rendering name (.ok service)
      | some ⟨name, _, .done (.error e)⟩ => startAnswer rendering name (.err e)
      | _ => none
    | .stop i =>
      match calls.stops[i]? with
      | some ⟨_, .done result⟩ => some (stopAnswer rendering result)
      | _ => none
    | .read => some response

/-- A call that a client about the configuration can cause. -/
def Asked (cfg : Config) (event : CallEvent) : Prop :=
  ∀ name config, event = .start name config → Converts cfg (.startService name config)

/-- The calls have been caused by clients about the configuration. -/
def Served (cfg : Config) (calls : Calls) : Prop :=
  ∃ events, (∀ event ∈ events, Asked cfg event) ∧ run Calls.step Calls.new events = some calls

/-- What one step of the calls keeps. -/
theorem Served.step {calls calls' : Calls} (event : CallEvent) (h : Served cfg calls)
    (hasked : Asked cfg event) (hstep : calls.step event = some calls') : Served cfg calls' := by
  obtain ⟨events, hevents, hrun⟩ := h
  refine ⟨events ++ [event], ?_, run_concat hrun hstep⟩
  intro other hother
  rcases List.mem_append.mp hother with hold | hnew
  · exact hevents other hold
  · rw [List.mem_singleton.mp hnew]
    exact hasked

/-- What a request taken up keeps. -/
theorem served_takeUp (rendering : Rendering) (calls : Calls) (request : Request)
    (hrequest : Converts cfg request) (h : Served cfg calls) :
    Served cfg ((daemon rendering).takeUp calls request).1 := by
  cases request with
  | startService name config =>
    refine h.step (.start name config) ?_ rfl
    intro name' config' heq
    obtain ⟨rfl, rfl⟩ := CallEvent.start.inj heq
    exact hrequest
  | stopService name =>
    refine h.step (.stop name) ?_ rfl
    intro name' config' heq
    cases heq
  | _ => exact h

/-- What a piece of work keeps. -/
theorem served_work (rendering : Rendering) (calls : Calls) (work : Work) (calls' : Calls)
    (h : Served cfg calls) (hwork : (daemon rendering).work calls work = some calls') :
    Served cfg calls' := by
  refine h.step work.event ?_ hwork
  intro name config heq
  cases work with
  | start i answer => cases heq
  | stop i answer => cases heq

/-! ### The configurations of the active services -/

/-- What has been asked for, and what is active, has been made from the configuration. -/
structure Made (cfg : Config) (calls : Calls) : Prop where
  starts : ∀ call ∈ calls.starts, Converts cfg (.startService call.name call.config)
  active : AllMade cfg calls.manager.activeServices

/-- One step starts nothing but what is made from the file. -/
theorem made_step (calls : Calls) (event : CallEvent) (calls' : Calls)
    (h : Made cfg calls ∧ ∃ account, calls.Accounted account) (hasked : Asked cfg event)
    (hstep : calls.step event = some calls') :
    Made cfg calls' ∧ ∃ account, calls'.Accounted account := by
  obtain ⟨hmade, account, haccount⟩ := h
  refine ⟨?_, _, Calls.accounted_step calls event calls' account haccount hstep⟩
  rcases Calls.step_cases hstep with
    ⟨name, config, rfl, rfl⟩ | ⟨i, answer, call, manager, phase, rfl, hcall, hadvance, rfl⟩ |
    ⟨name, rfl, rfl⟩ | ⟨i, answer, call, manager, phase, rfl, hcall, hadvance, rfl⟩
  · refine ⟨?_, hmade.active⟩
    intro call hcall
    rcases List.mem_append.mp hcall with hold | hnew
    · exact hmade.starts call hold
    · rw [List.mem_singleton.mp hnew]
      exact hasked name config rfl
  · have hcalled := hmade.starts call (List.mem_of_getElem? hcall)
    refine ⟨?_, ?_⟩
    · intro other hother
      rcases List.mem_or_eq_of_mem_set hother with hold | rfl
      · exact hmade.starts other hold
      · exact hcalled
    · rcases Orchestration.advance_cases hadvance with
        ⟨hactive, _⟩ | ⟨_, hactive, _⟩ | ⟨_, _, hactive, _⟩ | ⟨service, hactive, _, _, hstore, _⟩
      · exact hactive ▸ hmade.active
      · exact hactive ▸ hmade.active
      · exact hactive ▸ hmade.active
      · -- a start stores a service with the configuration it was asked for with
        have hfits := haccount.starts call (List.mem_of_getElem? hcall)
        rw [hstore] at hfits
        dsimp only
        rw [hactive]
        refine hmade.active.insert ?_
        rw [show service.config = call.config from hfits]
        exact hcalled _ _ rfl
  · exact ⟨hmade.starts, hmade.active⟩
  · refine ⟨hmade.starts, ?_⟩
    have hfits := (haccount.stops call (List.mem_of_getElem? hcall)).1
    rcases Orchestration.advanceStop_moves hadvance hfits with
      ⟨_, rfl, _⟩ | ⟨service, _, _, rfl, _⟩ | ⟨_, rfl | ⟨_, rfl⟩, _⟩
    · exact hmade.active.erase call.name
    · exact hmade.active
    · exact hmade.active
    · exact hmade.active

/-- No run does. -/
theorem made_run {events : List CallEvent} {calls : Calls}
    (hasked : ∀ event ∈ events, Asked cfg event)
    (hrun : run Calls.step Calls.new events = some calls) : Made cfg calls := by
  have hnew : Made cfg Calls.new ∧ ∃ account, Calls.new.Accounted account := by
    refine ⟨⟨by simp [Calls.new], ?_⟩, 0, Calls.accounted_new⟩
    intro name service hservice
    cases hservice
  exact (run_invariant made_step hnew
    (always_of_forall fun event hevent _ => hasked event hevent) hrun).1

/-- Any number of commands about an accepted configuration are held with the daemon at once,
over connections that break or are left in the middle of a request, and their starts and
stops go on between each other's locks and awaits. The daemon is then as after some calls of
its manager, each start of which has a configuration that was made for its name. At any time
so has each active service, and no port of the host is published twice. The handles are those
of the processes that a start, the manager or a stop has, and of those that were replaced when
two starts of one name had both found it free: only then is a handle left over. -/
theorem connections_safe {strict : Bool} {processEnv : HashMap String String}
    (haccepts : Validate.Accepts strict processEnv cfg) (rendering : Rendering)
    (parseError : Json → String)
    {events : List (NetEvent Response Request Response String Work Unit)}
    (hcommands : ∀ dialogue, .connect dialogue ∈ events → Commanded cfg dialogue)
    {t : Net Calls Job Request Response String Json Unit}
    (hrun : run (Net.step (wire parseError) (daemon rendering)) ⟨Calls.new, []⟩ events = some t) :
    ∃ calls, (∀ call ∈ calls, Asked cfg call) ∧
      run Calls.step Calls.new calls = some t.server ∧
      AllMade cfg t.server.manager.activeServices ∧
      (t.server.manager.activeServices.entries.flatMap fun entry =>
        Validate.containerPorts entry.2.config).Nodup ∧
      ↑t.server.manager.runningProcesses.keys + ids t.server.tracking =
        handles (t.server.starting + t.server.active + t.server.stopping +
          Calls.moved .replaced calls) ∧
      ((∀ id ∈ t.server.manager.runningProcesses,
          id ∈ handles (t.server.starting + t.server.active + t.server.stopping)) ↔
        handles (Calls.moved .replaced calls) = 0) := by
  have hserved : Served cfg t.server :=
    Trace.server_invariant (Served cfg) (served_takeUp rendering) (served_work rendering)
      (fun dialogue hdialogue => (hcommands dialogue hdialogue).asks) ⟨[], by simp, rfl⟩ hrun
  obtain ⟨calls, hasked, hcalls⟩ := hserved
  have hmade := made_run hasked hcalls
  have haccount := Calls.accounted_run hcalls
  exact ⟨calls, hasked, hcalls, hmade.active, Validate.containerPorts_nodup haccepts hmade.active,
    haccount.handles, haccount.owned_iff⟩

/-- One process. -/
def processConfig : Config where
  version := "1.0"
  networks := ["local"]
  services := AList.insert "db" (Dependencies.processService "postgres" []) ∅

/-- A start of everything. -/
def startAll : Option (Dialogue Request Answer Unit) :=
  (StartSession.run (fun _ _ => 0) ∅ processConfig HashOrder.stored []).map
    (Dialogue.map fun _ => ())

/-- The steps of a start of a process, from the check to the entry. -/
def startSteps (i : Nat) (pid : UInt32) : List (NetEvent Response Request Response String Work Unit) :=
  [.work (.start i .nothing), .work (.start i (.launched (.ok (some pid)))),
    .work (.start i .nothing), .work (.start i .nothing), .work (.start i .nothing)]

/-- Two starts at once that both find the name free. One of the connections breaks. -/
def racingEvents (dialogue : Dialogue Request Answer Unit) :
    List (NetEvent Response Request Response String Work Unit) :=
  [.connect dialogue, .connect dialogue, .move 0 .ask, .move 1 .ask, .takeUp 0, .takeUp 1,
    .work (.start 0 .nothing), .work (.start 1 .nothing), .move 1 (.failRead "connection reset")] ++
  startSteps 0 11 ++ startSteps 1 12 ++
  [.work (.start 0 .nothing), .answer 0 .success true, .move 0 .receive]

/-- Both processes run in the end, and no name leads to the first one. -/
theorem connections_safe_racing : ∃ dialogue t calls, startAll = some dialogue ∧
    run (Net.step (wire fun _ => "") (daemon StartSession.plainRendering)) ⟨Calls.new, []⟩
      (racingEvents dialogue) = some t ∧
    t.server.manager.runningProcesses.keys = [1, 0] ∧
    run Calls.step Calls.new calls = some t.server ∧
    handles (Calls.moved .replaced calls) ≠ 0 := by
  have hresult : (Validate.run .stored .stored true ∅ processConfig).map
      Validate.Outcome.result = some (.ok ()) := by
    decide +kernel
  obtain ⟨outcome, haccepted, hok⟩ := Option.map_eq_some_iff.mp hresult
  have hends : startAll.bind (fun dialogue =>
      (run (Net.step (wire fun _ => "") (daemon StartSession.plainRendering)) ⟨Calls.new, []⟩
        (racingEvents dialogue)).map fun t => (t.server.manager.runningProcesses.keys,
          decide (0 ∈ handles (t.server.starting + t.server.active + t.server.stopping)))) =
      some ([1, 0], false) := by
    decide +kernel
  obtain ⟨dialogue, hdialogue, hmap⟩ := Option.bind_eq_some_iff.mp hends
  obtain ⟨t, hrun, hend⟩ := Option.map_eq_some_iff.mp hmap
  obtain ⟨hkeys, hnotOwned⟩ := Prod.mk.inj hend
  obtain ⟨started, hstarted, rfl⟩ := Option.map_eq_some_iff.mp hdialogue
  have hcommands : ∀ dialogue, .connect dialogue ∈ racingEvents (started.map fun _ => ()) →
      Commanded processConfig dialogue := by
    intro dialogue hmem
    have heq : dialogue = started.map fun _ => () := by
      simpa [racingEvents, startSteps] using hmem
    rw [heq]
    exact .start hstarted
  obtain ⟨calls, _, hcalls, _, _, _, hiff⟩ :=
    connections_safe ⟨.stored, .stored, outcome, haccepted, hok⟩ StartSession.plainRendering
      (fun _ => "") hcommands hrun
  refine ⟨_, t, calls, hdialogue, hrun, hkeys, hcalls, ?_⟩
  intro hnone
  have hzero : 0 ∈ t.server.manager.runningProcesses :=
    AList.mem_keys.mpr (by simp [hkeys])
  exact of_decide_eq_false hnotOwned (hiff.mpr hnone 0 hzero)
end Net

end GraphHarness.Connections
