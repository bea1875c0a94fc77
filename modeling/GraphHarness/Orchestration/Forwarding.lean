import GraphHarness.Executor.Events
import GraphHarness.Trace.Steps

/-!
# Streams that share a stream (`executors/stream_utils.rs`, `ProcessExecutor::stream_events`)

An executor stores the event stream of a service behind a mutex, and every stream that is
asked of it takes its events from there. What one of them takes the others do not see.

> `everyoneSees_iff` — every one of the streams yields all events **exactly if there is
> only one**.

A stream holds the lock while it waits for an event, so nobody else gets on until then.

A turn is one stream that is polled while it has the lock or may take it. `create` makes all
streams of one service, and none is made later; the executor hands out each of them with the
same mutex inside. The events are those of `Executor.Events`, and by whom the event of the
start is taken is decided by who comes first (`StartedOnce`).

A single stream follows the process exactly (`Follows`), and this is the one case in which
everyone sees everything, as an event that is taken is gone for all others.
-/

namespace GraphHarness.Orchestration

open Executor (LogSource LogFilter ProcessEvent ProcessEventStream Poll Reader Readiness
  Interleaves Yields)
open Executor.ProcessEventStream (pollNext launched streamed Finished)
open Trace (after)

/-- `n` forwarding streams of one service: the stream they share, which of them holds the
lock, which have ended, and what each has yielded. -/
structure Forwarding (n : Nat) where
  eventStream : ProcessEventStream Reader
  lock : Option (Fin n)
  ended : Fin n → Bool
  yielded : Fin n → List ProcessEvent

namespace Forwarding

variable {n : Nat}

/-- `create_forwarding_stream`, `n` times. -/
def create (n : Nat) (eventStream : ProcessEventStream Reader) : Forwarding n where
  eventStream := eventStream
  lock := none
  ended := fun _ => false
  yielded := fun _ => []

/-- A poll of one of the streams. A stream that has ended must not be polled. -/
def poll (s : Forwarding n) (turn : Fin n × Readiness) : Option (Forwarding n) :=
  if s.ended turn.1 then none
  else if s.lock = none ∨ s.lock = some turn.1 then
    match s.eventStream.pollNext turn.2 with
    | (eventStream, .ready (some event)) =>
      some { s with
        eventStream := eventStream
        lock := none
        yielded := Function.update s.yielded turn.1 (s.yielded turn.1 ++ [event]) }
    | (eventStream, .ready none) =>
      some { s with
        eventStream := eventStream
        lock := none
        ended := Function.update s.ended turn.1 true }
    -- the guard of the mutex lives on in the future
    | (eventStream, .pending) => some { s with eventStream := eventStream, lock := some turn.1 }
  else some s

/-- A poll waits for the lock, or it polls the shared stream. -/
theorem poll_cases {s s' : Forwarding n} {turn : Fin n × Readiness} (h : s.poll turn = some s') :
    s' = s ∨
    (s.ended turn.1 = false ∧ s'.eventStream = (s.eventStream.pollNext turn.2).1 ∧
      s'.yielded = Function.update s.yielded turn.1
        (s.yielded turn.1 ++ (s.eventStream.pollNext turn.2).2.events) ∧
      ∀ i, s'.ended i = true → s.ended i = true ∨
        (s.eventStream.pollNext turn.2).2 = .ready none) := by
  unfold poll at h
  split at h
  next => cases h
  next hended =>
    split at h
    next =>
      refine .inr ⟨Bool.eq_false_iff.mpr hended, ?_⟩
      cases hpoll : s.eventStream.pollNext turn.2 with
      | mk eventStream result =>
        rw [hpoll] at h
        cases result with
        | pending =>
          cases h
          refine ⟨rfl, ?_, fun i hi => .inl hi⟩
          show s.yielded = Function.update s.yielded turn.1 (s.yielded turn.1 ++ [])
          rw [List.append_nil, Function.update_eq_self]
        | ready value =>
          cases value with
          | some event =>
            cases h
            exact ⟨rfl, rfl, fun i hi => .inl hi⟩
          | none =>
            cases h
            refine ⟨rfl, ?_, fun i _ => .inr rfl⟩
            show s.yielded = Function.update s.yielded turn.1 (s.yielded turn.1 ++ [])
            rw [List.append_nil, Function.update_eq_self]
    next => exact .inl (Option.some.inj h).symm

/-! ## Who is told of the start -/

/-- At most one of the streams has been told that the process was started. -/
structure StartedOnce (s : Forwarding n) : Prop where
  fresh : s.eventStream.startedSent = false → ∀ i, s.yielded i = []
  once : ∀ i j pid pid', .new (.started pid) ∈ s.yielded i →
    .new (.started pid') ∈ s.yielded j → i = j

/-- At the start the event of the start is still to come. -/
theorem startedOnce_create (eventStream : ProcessEventStream Reader) :
    (create n eventStream).StartedOnce := by
  refine ⟨fun _ _ => rfl, ?_⟩
  intro i j pid pid' hi
  cases hi

/-- One poll hands it out once. -/
theorem StartedOnce.poll {s s' : Forwarding n} {turn : Fin n × Readiness} (h : s.StartedOnce)
    (hpoll : s.poll turn = some s') : s'.StartedOnce := by
  rcases poll_cases hpoll with rfl | ⟨_, hstream, hyielded, _⟩
  · exact h
  cases hstarted : s.eventStream.startedSent with
  | true =>
    -- from then on there are lines only
    have hyields := s.eventStream.pollNext_yields turn.2 hstarted
    have hbefore : ∀ i pid, .new (.started pid) ∈ s'.yielded i →
        .new (.started pid) ∈ s.yielded i := by
      intro i pid hi
      rw [hyielded] at hi
      by_cases hturn : i = turn.1
      · rw [hturn, Function.update_self] at hi
        rcases List.mem_append.mp hi with hold | hnew
        · rw [hturn]
          exact hold
        · obtain ⟨source, line, hline⟩ := hyields.outputs _ hnew
          cases source with
          | stdout => cases hline
          | stderr => cases hline
      · rwa [Function.update_of_ne hturn] at hi
    refine ⟨?_, ?_⟩
    · intro hfresh
      rw [hstream, hyields.started, hstarted] at hfresh
      cases hfresh
    · intro i j pid pid' hi hj
      exact h.once i j pid pid' (hbefore i pid hi) (hbefore j pid' hj)
  | false =>
    -- nobody has anything yet, and this stream is told
    have hself : ∀ i event, event ∈ s'.yielded i → i = turn.1 := by
      intro i event hi
      by_contra hturn
      rw [hyielded, Function.update_of_ne hturn, h.fresh hstarted i] at hi
      cases hi
    refine ⟨?_, ?_⟩
    · intro hfresh
      rw [hstream, ProcessEventStream.pollNext_first hstarted] at hfresh
      cases hfresh
    · intro i j pid pid' hi hj
      rw [hself i _ hi, hself j _ hj]

/-! ## A single stream -/

/-- The only stream has yielded what the shared one has. -/
structure Follows (eventStream : ProcessEventStream Reader) (s : Forwarding 1) : Prop where
  polls : ∃ polls, s.eventStream = after pollNext eventStream polls ∧
    s.yielded 0 = streamed eventStream polls
  ended : s.ended 0 = true → ∃ polls ready,
    ((after pollNext eventStream polls).pollNext ready).2 = .ready none ∧
      s.yielded 0 = streamed eventStream polls

/-- At the start the only stream follows the process. -/
theorem follows_create (eventStream : ProcessEventStream Reader) :
    (create 1 eventStream).Follows eventStream := by
  refine ⟨⟨[], rfl, rfl⟩, ?_⟩
  intro hended
  cases hended

/-- One poll keeps that. -/
theorem Follows.poll {eventStream : ProcessEventStream Reader} {s s' : Forwarding 1}
    {turn : Fin 1 × Readiness} (h : s.Follows eventStream) (hpoll : s.poll turn = some s') :
    s'.Follows eventStream := by
  rcases poll_cases hpoll with rfl | ⟨hopen, hstream, hyielded, hended⟩
  · exact h
  obtain ⟨i, ready⟩ := turn
  obtain rfl : i = 0 := Subsingleton.elim i 0
  obtain ⟨polls, hafter, hstreamed⟩ := h.polls
  have hyielded0 : s'.yielded 0 = streamed eventStream (polls ++ [ready]) := by
    rw [hyielded, Function.update_self, ProcessEventStream.streamed_concat, hstreamed, hafter]
  refine ⟨⟨polls ++ [ready], ?_, hyielded0⟩, ?_⟩
  · rw [hstream, ProcessEventStream.after_concat, hafter]
  · intro hnow
    rcases hended 0 hnow with hbefore | hnone
    · rw [hopen] at hbefore
      cases hbefore
    · rw [hafter] at hnone
      refine ⟨polls, ready, hnone, ?_⟩
      rw [hyielded0, ProcessEventStream.streamed_concat, hnone]
      exact List.append_nil _

/-! ## Who sees what -/

/-- Each stream has yielded all events of the process: that it was started, and what it
has printed. -/
def EveryoneSees (s : Forwarding n) (filter : LogFilter) (childId : UInt32)
    (lines : LogSource → List String) : Prop :=
  ∃ events, Interleaves filter lines events ∧
    ∀ i, s.yielded i = .new (.started childId) :: events

/-- If every stream sees all, there is one stream. -/
theorem eq_one_of_everyoneSees {eventStream : ProcessEventStream Reader}
    {turns : List (Fin n × Readiness)} {s : Forwarding n} (hn : 0 < n)
    (hrun : Trace.run poll (create n eventStream) turns = some s) {filter : LogFilter}
    {childId : UInt32} {lines : LogSource → List String}
    (h : s.EveryoneSees filter childId lines) : n = 1 := by
  have honce : s.StartedOnce :=
    Trace.run_preserves (fun _ _ _ hs hpoll => hs.poll hpoll) (startedOnce_create eventStream) hrun
  obtain ⟨events, _, hall⟩ := h
  have htold : ∀ i, .new (.started childId) ∈ s.yielded i := by
    intro i
    rw [hall i]
    exact List.mem_cons_self
  by_contra hne
  have hsame := honce.once ⟨0, hn⟩ ⟨1, by omega⟩ childId childId (htold _) (htold _)
  cases hsame

/-- In every run, however the polls of the streams are interleaved: once all of them have
ended, each has yielded all events exactly if there is one stream. -/
theorem everyoneSees_iff (n : Nat) (hn : 0 < n) (serviceName : String) (filter : LogFilter)
    (childId : UInt32) (readers : LogSource → Reader) (turns : List (Fin n × Readiness))
    (s : Forwarding n)
    (hrun : Trace.run poll (create n (launched serviceName filter childId readers)) turns = some s)
    (hended : ∀ i, s.ended i = true) :
    s.EveryoneSees filter childId (fun source => (readers source).lines) ↔ n = 1 := by
  constructor
  · exact eq_one_of_everyoneSees hn hrun
  · rintro rfl
    have hfollows : s.Follows (launched serviceName filter childId readers) :=
      Trace.run_preserves (fun _ _ _ hs hpoll => hs.poll hpoll) (follows_create _) hrun
    obtain ⟨polls, ready, hnone, hyielded⟩ := hfollows.ended (hended 0)
    obtain ⟨events, hstreamed, hinterleaves⟩ :=
      ProcessEventStream.streamed_of_ready_none serviceName filter childId readers hnone
    refine ⟨events, hinterleaves, ?_⟩
    intro i
    rw [Subsingleton.elim i 0, hyielded, hstreamed]

/-- A service that says one thing and ends. -/
def listening : LogSource → Reader
  | .stdout => ⟨["listening"], false⟩
  | .stderr => ⟨[], false⟩

/-- Everything is there at once. -/
def allReady : Readiness := fun _ _ => true

/-- The polls come to the end of all the streams. -/
theorem exists_run (s : Forwarding n) (turns : List (Fin n × Readiness))
    (h : ((Trace.run poll s turns).any fun s' => decide (∀ i, s'.ended i = true)) = true) :
    ∃ s', Trace.run poll s turns = some s' ∧ ∀ i, s'.ended i = true := by
  obtain ⟨s', hrun, hended⟩ := (Option.any_eq_true _ _).mp h
  exact ⟨s', hrun, of_decide_eq_true hended⟩

/-- The only stream of a service yields both of its events. -/
theorem listening_everyoneSees :
    ∃ s, Trace.run poll (create 1 (launched "api" Executor.noOpFilter 7 listening))
        [(0, allReady), (0, allReady), (0, allReady)] = some s ∧
      s.EveryoneSees Executor.noOpFilter 7 fun source => (listening source).lines := by
  obtain ⟨s, hrun, hended⟩ := exists_run
    (create 1 (launched "api" Executor.noOpFilter 7 listening))
    [(0, allReady), (0, allReady), (0, allReady)] (by decide +kernel)
  exact ⟨s, hrun, (everyoneSees_iff 1 (by decide) "api" Executor.noOpFilter 7 listening _ s hrun
    hended).mpr rfl⟩

/-- Of two streams one takes both events. -/
theorem two_streams_not_everyoneSees :
    ¬ ∀ (n : Nat), 0 < n → ∀ (serviceName : String) (filter : LogFilter) (childId : UInt32)
      (readers : LogSource → Reader) (turns : List (Fin n × Readiness)) (s : Forwarding n),
      Trace.run poll (create n (launched serviceName filter childId readers)) turns = some s →
      (∀ i, s.ended i = true) →
      s.EveryoneSees filter childId fun source => (readers source).lines := by
  intro h
  obtain ⟨s, hrun, hended⟩ := exists_run
    (create 2 (launched "api" Executor.noOpFilter 7 listening))
    [(0, allReady), (0, allReady), (0, allReady), (1, allReady)] (by decide +kernel)
  have htwo := eq_one_of_everyoneSees (by decide) hrun
    (h 2 (by decide) "api" Executor.noOpFilter 7 listening _ s hrun hended)
  cases htwo

end Forwarding

end GraphHarness.Orchestration
