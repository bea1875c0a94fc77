import GraphHarness.Executor.Stdin
import GraphHarness.Trace.Simulation

/-!
# The events of a process (`event.rs`, `ProcessEventStream` of `backends/launcher.rs`)

The stream is polled. A poll reads from the standard output if a line is there, and from
the standard error if not; a line that the filter drops makes it start again. Which of
the two readers has something is decided anew at every pass, by a schedule that the
theorems leave arbitrary.

`Yields` is what any stretch of polls keeps: the events are those of the lines that were read,
filtered, each source in its order. One poll has it (`pollNext_yields`), and by induction any
number of polls. A poll ends because each of its passes takes a read away, and a fair schedule
gets to the end because each poll that can read does (`launched_exists_ready_none`).

The readers are lists of the lines still to come, with a mark whether one fails at the end, as
a line that is no UTF-8 does; the source treats that as the end of the stream. Wakers are left
out: a poll that returns nothing is polled again when the schedule says so. The times of the
events are left out too.
-/

namespace GraphHarness.Executor

open Trace

/-- `ProcessEventType`. -/
inductive ProcessEventType where
  | started (pid : UInt32)
  | exited (code : Option Int) (signal : Option Int)
  | stdout
  | stderr
  deriving DecidableEq, Repr

/-- An event, without the time it occurred at. -/
structure ProcessEvent where
  eventType : ProcessEventType
  data : Option String
  deriving DecidableEq, Repr

/-- `ProcessEvent::new`. -/
def ProcessEvent.new (eventType : ProcessEventType) : ProcessEvent := ⟨eventType, none⟩

/-- `ProcessEvent::new_with_data`. -/
def ProcessEvent.newWithData (eventType : ProcessEventType) (data : String) : ProcessEvent :=
  ⟨eventType, some data⟩

/-- The type of the events a source's lines are put into. -/
def LogSource.eventType : LogSource → ProcessEventType
  | .stdout => .stdout
  | .stderr => .stderr

/-- `std::task::Poll`. -/
inductive Poll (α : Type) where
  | ready (value : α)
  | pending
  deriving DecidableEq, Repr

/-- The `Lines` of a pipe: what is still to come, and whether an error comes after it or
the end. -/
structure Reader where
  lines : List String
  failed : Bool
  deriving DecidableEq, Repr

/-- `poll_next` of `Lines`. -/
def Reader.pollNext (reader : Reader) (ready : Bool) :
    Poll (Option (Except Unit String)) × Reader :=
  if ready then
    match reader.lines with
    | line :: lines => (.ready (some (.ok line)), { reader with lines := lines })
    | [] => (.ready (if reader.failed then some (.error ()) else none), reader)
  else (.pending, reader)

/-- What trying one reader comes to. -/
inductive Attempt where
  | event (event : ProcessEvent)
  | dropped
  | nothing

/-- The block of `poll_next` for one reader. -/
def tryRead (filter : LogFilter) (source : LogSource) (reader : Option Reader) (ready : Bool) :
    Attempt × Option Reader :=
  match reader with
  | none => (.nothing, none)
  | some reader =>
    match reader.pollNext ready with
    | (.ready (some (.ok line)), reader) =>
      match filter line source with
      | some filtered => (.event (.newWithData source.eventType filtered), some reader)
      | none => (.dropped, some reader)
    -- an error is like the end
    | (.ready (some (.error _)), _) => (.nothing, none)
    | (.ready none, _) => (.nothing, none)
    | (.pending, reader) => (.nothing, some reader)

/-- Which readers have something, at each pass of a poll. -/
abbrev Readiness := Nat → LogSource → Bool

/-- The lines a reader has still to give. -/
def linesLeft : Option Reader → List String
  | some reader => reader.lines
  | none => []

/-- A block reads a line or none, and closes a reader only where there is none to come. -/
theorem tryRead_cases (filter : LogFilter) (source : LogSource) (reader : Option Reader)
    (ready : Bool) :
    (∃ line filtered rest, linesLeft reader = line :: linesLeft (some rest) ∧
      filter line source = some filtered ∧
      tryRead filter source reader ready =
        (.event (.newWithData source.eventType filtered), some rest)) ∨
    (∃ line rest, linesLeft reader = line :: linesLeft (some rest) ∧ filter line source = none ∧
      tryRead filter source reader ready = (.dropped, some rest)) ∨
    (linesLeft reader = [] ∧ tryRead filter source reader ready = (.nothing, none)) ∨
    (ready = false ∧ tryRead filter source reader ready = (.nothing, reader)) := by
  cases reader with
  | none => exact .inr (.inr (.inl ⟨rfl, rfl⟩))
  | some reader =>
    obtain ⟨lines, failed⟩ := reader
    cases ready with
    | false => exact .inr (.inr (.inr ⟨rfl, rfl⟩))
    | true =>
      cases lines with
      | nil =>
        refine .inr (.inr (.inl ⟨rfl, ?_⟩))
        cases failed with
        | false => rfl
        | true => rfl
      | cons line lines =>
        cases hfilter : filter line source with
        | some filtered =>
          refine .inl ⟨line, filtered, ⟨lines, failed⟩, rfl, hfilter, ?_⟩
          simp [tryRead, Reader.pollNext, hfilter]
        | none =>
          refine .inr (.inl ⟨line, ⟨lines, failed⟩, rfl, hfilter, ?_⟩)
          simp [tryRead, Reader.pollNext, hfilter]

/-- How often something can be read: each line, and the end. -/
def readsLeft : Option Reader → Nat
  | some reader => reader.lines.length + 1
  | none => 0

/-- A line read is one read less to come. -/
theorem readsLeft_of_linesLeft {reader : Option Reader} {line : String} {rest : Reader}
    (h : linesLeft reader = line :: linesLeft (some rest)) :
    readsLeft (some rest) < readsLeft reader := by
  cases reader with
  | none => cases h
  | some reader =>
    have hlength := congrArg List.length h
    simp only [linesLeft, List.length_cons] at hlength
    simp only [readsLeft]
    omega

/-- No block adds a read, and one that does anything takes one away. -/
theorem readsLeft_tryRead {filter : LogFilter} {source : LogSource} {reader reader' : Option Reader}
    {ready : Bool} {attempt : Attempt}
    (h : tryRead filter source reader ready = (attempt, reader')) :
    readsLeft reader' ≤ readsLeft reader ∧
      (attempt ≠ .nothing ∨ ready = true ∧ reader ≠ none → readsLeft reader' < readsLeft reader) := by
  rcases tryRead_cases filter source reader ready with
    ⟨line, filtered, rest, hleft, _, htry⟩ | ⟨line, rest, hleft, _, htry⟩ | ⟨_, htry⟩ |
    ⟨hready, htry⟩
  · obtain ⟨rfl, rfl⟩ := Prod.mk.inj (htry.symm.trans h)
    have hdrop := readsLeft_of_linesLeft hleft
    exact ⟨Nat.le_of_lt hdrop, fun _ => hdrop⟩
  · obtain ⟨rfl, rfl⟩ := Prod.mk.inj (htry.symm.trans h)
    have hdrop := readsLeft_of_linesLeft hleft
    exact ⟨Nat.le_of_lt hdrop, fun _ => hdrop⟩
  · obtain ⟨rfl, rfl⟩ := Prod.mk.inj (htry.symm.trans h)
    refine ⟨Nat.zero_le _, ?_⟩
    rintro (hnothing | ⟨_, hopen⟩)
    · exact absurd rfl hnothing
    · cases reader with
      | none => exact absurd rfl hopen
      | some reader => exact Nat.succ_pos _
  · obtain ⟨rfl, rfl⟩ := Prod.mk.inj (htry.symm.trans h)
    refine ⟨Nat.le_refl _, ?_⟩
    rintro (hnothing | ⟨hready', _⟩)
    · exact absurd rfl hnothing
    · rw [hready] at hready'
      cases hready'

namespace ProcessEventStream

/-- The reads of both pipes together. -/
def remaining (stream : ProcessEventStream Reader) : Nat :=
  readsLeft stream.stdout + readsLeft stream.stderr

/-- `poll_next`. A pass that drops a line is followed by another one. -/
def pollNext (stream : ProcessEventStream Reader) (ready : Readiness) :
    ProcessEventStream Reader × Poll (Option ProcessEvent) :=
  if stream.startedSent then
    match hout : tryRead stream.filter .stdout stream.stdout (ready 0 .stdout) with
    | (.event event, stdout) => ({ stream with stdout := stdout }, .ready (some event))
    | (.dropped, stdout) =>
      pollNext { stream with stdout := stdout } fun pass => ready (pass + 1)
    | (.nothing, stdout) =>
      match herr : tryRead stream.filter .stderr stream.stderr (ready 0 .stderr) with
      | (.event event, stderr) =>
        ({ stream with stdout := stdout, stderr := stderr }, .ready (some event))
      | (.dropped, stderr) =>
        pollNext { stream with stdout := stdout, stderr := stderr } fun pass => ready (pass + 1)
      | (.nothing, stderr) =>
        ({ stream with stdout := stdout, stderr := stderr },
          if stdout.isNone && stderr.isNone then .ready none else .pending)
  else ({ stream with startedSent := true }, .ready (some (.new (.started stream.childId))))
termination_by stream.remaining
decreasing_by
  · have hless := (readsLeft_tryRead hout).2 (.inl Attempt.noConfusion)
    simp only [remaining]
    omega
  · have hle := (readsLeft_tryRead hout).1
    have hless := (readsLeft_tryRead herr).2 (.inl Attempt.noConfusion)
    simp only [remaining]
    omega

/-! ## What a poll does -/

/-- The reader of a source. -/
def reader (stream : ProcessEventStream Reader) : LogSource → Option Reader
  | .stdout => stream.stdout
  | .stderr => stream.stderr

/-- Both readers are finished. -/
def Finished (stream : ProcessEventStream Reader) : Prop := ∀ source, stream.reader source = none

end ProcessEventStream

/-- The lines that events carry for a source. -/
def printed (source : LogSource) (events : List ProcessEvent) : List String :=
  events.filterMap fun event => if event.eventType = source.eventType then event.data else none

/-- What is printed in two stretches. -/
theorem printed_append (source : LogSource) (events events' : List ProcessEvent) :
    printed source (events ++ events') = printed source events ++ printed source events' :=
  List.filterMap_append

/-- The event that one attempt makes. -/
def Attempt.events : Attempt → List ProcessEvent
  | .event e => [e]
  | _ => []

/-- The event that one poll yields. -/
def Poll.events : Poll (Option ProcessEvent) → List ProcessEvent
  | .ready (some event) => [event]
  | _ => []

/-- Between two states of the stream, events were yielded: each carries a line, and the
lines of a source are those that were read from it, filtered. -/
structure Yields (stream stream' : ProcessEventStream Reader) (events : List ProcessEvent) :
    Prop where
  filter : stream'.filter = stream.filter
  started : stream'.startedSent = stream.startedSent
  outputs : ∀ event ∈ events, ∃ (source : LogSource) (line : String),
    event = .newWithData source.eventType line
  lines : ∀ source, ∃ read,
    linesLeft (stream.reader source) = read ++ linesLeft (stream'.reader source) ∧
      printed source events = read.filterMap fun line => stream.filter line source
  closed : ∀ source, stream.reader source = none → stream'.reader source = none

namespace Yields

/-- No poll, no events. -/
theorem refl (stream : ProcessEventStream Reader) : Yields stream stream [] :=
  ⟨rfl, rfl, fun _ h => (by cases h), fun _ => ⟨[], rfl, rfl⟩, fun _ h => h⟩

/-- Two stretches of polls make one. -/
theorem trans {stream stream' stream'' : ProcessEventStream Reader}
    {events events' : List ProcessEvent} (h : Yields stream stream' events)
    (h' : Yields stream' stream'' events') : Yields stream stream'' (events ++ events') := by
  refine ⟨h'.filter.trans h.filter, h'.started.trans h.started, ?_, ?_, ?_⟩
  · intro event hevent
    rcases List.mem_append.mp hevent with hfirst | hsecond
    · exact h.outputs event hfirst
    · exact h'.outputs event hsecond
  · intro source
    obtain ⟨read, hleft, hprinted⟩ := h.lines source
    obtain ⟨read', hleft', hprinted'⟩ := h'.lines source
    refine ⟨read ++ read', ?_, ?_⟩
    · rw [hleft, hleft', List.append_assoc]
    · rw [printed_append, hprinted, hprinted', h.filter, List.filterMap_append]
  · intro source hclosed
    exact h'.closed source (h.closed source hclosed)

end Yields

/-- What a block reads is what it makes an event of, or drops. -/
theorem tryRead_lines {filter : LogFilter} {source : LogSource} {reader reader' : Option Reader}
    {ready : Bool} {attempt : Attempt}
    (h : tryRead filter source reader ready = (attempt, reader')) :
    (∀ event ∈ attempt.events, ∃ line, event = .newWithData source.eventType line) ∧
    (∃ read, linesLeft reader = read ++ linesLeft reader' ∧
      printed source attempt.events = read.filterMap fun line => filter line source) ∧
    (reader = none → reader' = none) := by
  rcases tryRead_cases filter source reader ready with
    ⟨line, filtered, rest, hleft, hfilter, htry⟩ | ⟨line, rest, hleft, hfilter, htry⟩ |
    ⟨hleft, htry⟩ | ⟨_, htry⟩
  · obtain ⟨rfl, rfl⟩ := Prod.mk.inj (htry.symm.trans h)
    refine ⟨?_, ⟨[line], hleft, ?_⟩, ?_⟩
    · intro event hevent
      exact ⟨filtered, List.mem_singleton.mp hevent⟩
    · simp [Attempt.events, printed, ProcessEvent.newWithData, hfilter]
    · rintro rfl
      cases hleft
  · obtain ⟨rfl, rfl⟩ := Prod.mk.inj (htry.symm.trans h)
    refine ⟨fun _ hevent => (by cases hevent), ⟨[line], hleft, ?_⟩, ?_⟩
    · simp [Attempt.events, printed, hfilter]
    · rintro rfl
      cases hleft
  · obtain ⟨rfl, rfl⟩ := Prod.mk.inj (htry.symm.trans h)
    exact ⟨fun _ hevent => (by cases hevent), ⟨[], hleft, rfl⟩, fun _ => rfl⟩
  · obtain ⟨rfl, rfl⟩ := Prod.mk.inj (htry.symm.trans h)
    exact ⟨fun _ hevent => (by cases hevent), ⟨[], rfl, rfl⟩, fun hclosed => hclosed⟩

/-- The events of one source carry no lines for the other. -/
theorem printed_other {source other : LogSource} (hne : source ≠ other) {attempt : Attempt}
    (h : ∀ event ∈ attempt.events, ∃ line, event = .newWithData source.eventType line) :
    printed other attempt.events = [] := by
  rw [printed, List.filterMap_eq_nil_iff]
  intro event hevent
  obtain ⟨line, rfl⟩ := h event hevent
  rw [if_neg]
  intro htype
  cases source with
  | stdout =>
    cases other with
    | stdout => exact hne rfl
    | stderr => cases htype
  | stderr =>
    cases other with
    | stdout => cases htype
    | stderr => exact hne rfl

section Blocks

variable (stream : ProcessEventStream Reader) {reader : Option Reader} {ready : Bool}
variable {attempt : Attempt}

/-- The block of the standard output. -/
theorem yields_stdout (h : tryRead stream.filter .stdout stream.stdout ready = (attempt, reader)) :
    Yields stream { stream with stdout := reader } attempt.events := by
  obtain ⟨houtputs, hlines, hclosed⟩ := tryRead_lines h
  refine ⟨rfl, rfl, ?_, ?_, ?_⟩
  · intro event hevent
    exact ⟨.stdout, houtputs event hevent⟩
  · intro source
    cases source with
    | stdout => exact hlines
    | stderr => exact ⟨[], rfl, printed_other (by decide) houtputs⟩
  · intro source hnone
    cases source with
    | stdout => exact hclosed hnone
    | stderr => exact hnone

/-- The block of the standard error. -/
theorem yields_stderr (h : tryRead stream.filter .stderr stream.stderr ready = (attempt, reader)) :
    Yields stream { stream with stderr := reader } attempt.events := by
  obtain ⟨houtputs, hlines, hclosed⟩ := tryRead_lines h
  refine ⟨rfl, rfl, ?_, ?_, ?_⟩
  · intro event hevent
    exact ⟨.stderr, houtputs event hevent⟩
  · intro source
    cases source with
    | stdout => exact ⟨[], rfl, printed_other (by decide) houtputs⟩
    | stderr => exact hlines
  · intro source hnone
    cases source with
    | stdout => exact hnone
    | stderr => exact hclosed hnone

end Blocks

namespace ProcessEventStream

/-- A poll of a stream that has started yields what it has read. -/
theorem pollNext_yields (stream : ProcessEventStream Reader) (ready : Readiness)
    (hstarted : stream.startedSent = true) :
    Yields stream (stream.pollNext ready).1 (stream.pollNext ready).2.events := by
  fun_induction pollNext stream ready with
  | case1 stream ready _ event stdout hout => exact yields_stdout stream hout
  | case2 stream ready _ stdout hout ih => exact (yields_stdout stream hout).trans (ih hstarted)
  | case3 stream ready _ stdout hout event stderr herr =>
    exact (yields_stdout stream hout).trans
      (yields_stderr { stream with stdout := stdout } herr)
  | case4 stream ready _ stdout hout stderr herr ih =>
    exact (yields_stdout stream hout).trans
      ((yields_stderr { stream with stdout := stdout } herr).trans (ih hstarted))
  | case5 stream ready _ stdout hout stderr herr =>
    have hevents : (if stdout.isNone && stderr.isNone then Poll.ready none else .pending :
        Poll (Option ProcessEvent)).events = [] := by
      split
      next => rfl
      next => rfl
    rw [hevents]
    exact (yields_stdout stream hout).trans
      (yields_stderr { stream with stdout := stdout } herr)
  | case6 stream ready hnot => exact absurd hstarted hnot

/-- A poll never puts anything back, and where an open reader has something, it takes it. -/
theorem remaining_pollNext (stream : ProcessEventStream Reader) (ready : Readiness)
    (hstarted : stream.startedSent = true) :
    (stream.pollNext ready).1.remaining ≤ stream.remaining ∧
      ∀ source, ready 0 source = true → stream.reader source ≠ none →
        (stream.pollNext ready).1.remaining < stream.remaining := by
  fun_induction pollNext stream ready with
  | case1 stream ready _ event stdout hout =>
    have hless := (readsLeft_tryRead hout).2 (.inl Attempt.noConfusion)
    simp only [remaining]
    exact ⟨by omega, fun _ _ _ => by omega⟩
  | case2 stream ready _ stdout hout ih =>
    have hless := (readsLeft_tryRead hout).2 (.inl Attempt.noConfusion)
    have hrest := (ih hstarted).1
    simp only [remaining] at hrest ⊢
    exact ⟨by omega, fun _ _ _ => by omega⟩
  | case3 stream ready _ stdout hout event stderr herr =>
    have hle := (readsLeft_tryRead hout).1
    have hless := (readsLeft_tryRead herr).2 (.inl Attempt.noConfusion)
    simp only [remaining]
    exact ⟨by omega, fun _ _ _ => by omega⟩
  | case4 stream ready _ stdout hout stderr herr ih =>
    have hle := (readsLeft_tryRead hout).1
    have hless := (readsLeft_tryRead herr).2 (.inl Attempt.noConfusion)
    have hrest := (ih hstarted).1
    simp only [remaining] at hrest ⊢
    exact ⟨by omega, fun _ _ _ => by omega⟩
  | case5 stream ready _ stdout hout stderr herr =>
    obtain ⟨houtLe, houtLess⟩ := readsLeft_tryRead hout
    obtain ⟨herrLe, herrLess⟩ := readsLeft_tryRead herr
    simp only [remaining]
    refine ⟨by omega, ?_⟩
    intro source hready hopen
    cases source with
    | stdout =>
      have hless := houtLess (.inr ⟨hready, hopen⟩)
      omega
    | stderr =>
      have hless := herrLess (.inr ⟨hready, hopen⟩)
      omega
  | case6 stream ready hnot => exact absurd hstarted hnot

/-- The stream ends where both readers are finished. -/
theorem finished_of_ready_none {stream : ProcessEventStream Reader} {ready : Readiness}
    (h : (stream.pollNext ready).2 = .ready none) : (stream.pollNext ready).1.Finished := by
  fun_induction pollNext stream ready with
  | case1 stream ready _ event stdout hout => cases h
  | case2 stream ready _ stdout hout ih => exact ih h
  | case3 stream ready _ stdout hout event stderr herr => cases h
  | case4 stream ready _ stdout hout stderr herr ih => exact ih h
  | case5 stream ready _ stdout hout stderr herr =>
    have hboth : stdout = none ∧ stderr = none := by
      split at h
      next hnone => simpa using hnone
      next => cases h
    intro source
    cases source with
    | stdout => exact hboth.1
    | stderr => exact hboth.2
  | case6 stream ready hnot => cases h

/-- A stream that has ended stays so. -/
theorem pollNext_finished {stream : ProcessEventStream Reader} (h : stream.Finished)
    (hstarted : stream.startedSent = true) (ready : Readiness) :
    stream.pollNext ready = (stream, .ready none) := by
  obtain ⟨serviceName, stdout, stderr, filter, startedSent, childId⟩ := stream
  obtain rfl : stdout = none := h .stdout
  obtain rfl : stderr = none := h .stderr
  rw [pollNext, if_pos hstarted]
  rfl

/-! ## Runs -/

/-- The events that polls yield. -/
def streamed (stream : ProcessEventStream Reader) (polls : List Readiness) : List ProcessEvent :=
  (history pollNext stream polls).flatMap fun poll => poll.2.events

/-- The events of one poll more. -/
theorem streamed_concat (stream : ProcessEventStream Reader) (polls : List Readiness)
    (ready : Readiness) : streamed stream (polls ++ [ready]) =
      streamed stream polls ++ ((after pollNext stream polls).pollNext ready).2.events := by
  unfold streamed
  rw [history_append, List.flatMap_append]
  exact congrArg _ (List.append_nil _)

/-- The stream after one poll more. -/
theorem after_concat (stream : ProcessEventStream Reader) (polls : List Readiness)
    (ready : Readiness) : after pollNext stream (polls ++ [ready]) =
      ((after pollNext stream polls).pollNext ready).1 := by
  rw [after_append]
  rfl

/-- Any polls yield what they stream. -/
theorem after_yields (stream : ProcessEventStream Reader) (hstarted : stream.startedSent = true)
    (polls : List Readiness) :
    Yields stream (after pollNext stream polls) (streamed stream polls) := by
  induction polls generalizing stream with
  | nil => exact .refl stream
  | cons ready polls ih =>
    have hpoll := stream.pollNext_yields ready hstarted
    exact hpoll.trans (ih _ (hpoll.started.trans hstarted))

end ProcessEventStream

/-- The events are an interleaving of the filtered lines of the two sources: each carries a
line, and those of one source are its lines, in their order. -/
structure Interleaves (filter : LogFilter) (lines : LogSource → List String)
    (events : List ProcessEvent) : Prop where
  outputs : ∀ event ∈ events, ∃ (source : LogSource) (line : String),
    event = .newWithData source.eventType line
  lines : ∀ source, printed source events = (lines source).filterMap fun line => filter line source

namespace ProcessEventStream

/-- The first poll reads nothing. -/
theorem pollNext_first {stream : ProcessEventStream Reader} (h : stream.startedSent = false)
    (ready : Readiness) : stream.pollNext ready =
      ({ stream with startedSent := true }, .ready (some (.new (.started stream.childId)))) := by
  rw [pollNext, if_neg (Bool.eq_false_iff.mp h)]

/-- The stream of a process that was just launched, with the filter. -/
def launched (serviceName : String) (filter : LogFilter) (childId : UInt32)
    (readers : LogSource → Reader) : ProcessEventStream Reader :=
  ⟨serviceName, some (readers .stdout), some (readers .stderr), filter, false, childId⟩

section Launched

variable (serviceName : String) (filter : LogFilter) (childId : UInt32)
variable (readers : LogSource → Reader)

/-- After any polls, what was read is streamed, and what was not is still to come. -/
theorem streamed_launched (first : Readiness) (polls : List Readiness) : ∃ events read,
    streamed (launched serviceName filter childId readers) (first :: polls) =
      .new (.started childId) :: events ∧
    Interleaves filter read events ∧
    ∀ source, (readers source).lines = read source ++ linesLeft
      ((after pollNext (launched serviceName filter childId readers) (first :: polls)).reader
        source) := by
  have hyields := after_yields
    { launched serviceName filter childId readers with startedSent := true } rfl polls
  choose read hleft hprinted using hyields.lines
  refine ⟨_, read, ?_, ⟨hyields.outputs, hprinted⟩, ?_⟩
  · rw [streamed, history, pollNext_first rfl]
    rfl
  · intro source
    rw [after, pollNext_first rfl, ← hleft source]
    cases source with
    | stdout => rfl
    | stderr => rfl

/-- The first poll sends the event of the start. -/
theorem startedSent_after (first : Readiness) (polls : List Readiness) :
    (after pollNext (launched serviceName filter childId readers) (first :: polls)).startedSent =
      true := by
  rw [after, pollNext_first rfl]
  exact (after_yields _ rfl polls).started

/-- Once a poll has found the end, everything was streamed. -/
theorem streamed_of_ready_none {polls : List Readiness} {ready : Readiness}
    (hnone : ((after pollNext (launched serviceName filter childId readers) polls).pollNext
      ready).2 = .ready none) :
    ∃ events, streamed (launched serviceName filter childId readers) polls =
      .new (.started childId) :: events ∧
      Interleaves filter (fun source => (readers source).lines) events := by
  have hfinished := finished_of_ready_none hnone
  cases polls with
  | nil =>
    -- the first poll does not find the end
    rw [after, pollNext_first rfl] at hnone
    cases hnone
  | cons first polls =>
    obtain ⟨events, read, hstreamed, hinterleaves, hleft⟩ :=
      streamed_launched serviceName filter childId readers first (polls ++ [ready])
    have hall : ∀ source, (readers source).lines = read source := by
      intro source
      rw [hleft source, ← List.cons_append, after_concat, hfinished source]
      exact List.append_nil _
    refine ⟨events, ?_, ⟨hinterleaves.outputs, ?_⟩⟩
    · rw [← hstreamed, ← List.cons_append, streamed_concat, hnone]
      exact (List.append_nil _).symm
    · intro source
      rw [hall source]
      exact hinterleaves.lines source

/-- A stream that has ended yields nothing more. -/
theorem history_finished {stream : ProcessEventStream Reader} (h : stream.Finished)
    (hstarted : stream.startedSent = true) (polls : List Readiness) :
    ∀ poll ∈ history pollNext stream polls, poll.2 = .ready none := by
  induction polls with
  | nil =>
    intro poll hpoll
    cases hpoll
  | cons ready polls ih =>
    intro poll hpoll
    rw [history, pollNext_finished h hstarted ready] at hpoll
    rcases List.mem_cons.mp hpoll with rfl | hlater
    · rfl
    · exact ih poll hlater

end Launched

/-! ## Schedules that let everything be read -/

/-- Each reader has something at the first pass of a poll, again and again. -/
def Fair (schedule : Nat → Readiness) : Prop :=
  ∀ n source, ∃ m, n ≤ m ∧ schedule m 0 source = true

end ProcessEventStream

/-- No stretch of polls adds a read. -/
theorem Yields.readsLeft_le {stream stream' : ProcessEventStream Reader}
    {events : List ProcessEvent} (h : Yields stream stream' events) (source : LogSource) :
    readsLeft (stream'.reader source) ≤ readsLeft (stream.reader source) := by
  obtain ⟨read, hleft, _⟩ := h.lines source
  cases hreader : stream'.reader source with
  | none => exact Nat.zero_le _
  | some reader' =>
    cases hbefore : stream.reader source with
    | none =>
      rw [h.closed source hbefore] at hreader
      cases hreader
    | some reader =>
      rw [hbefore, hreader] at hleft
      have hlength := congrArg List.length hleft
      simp only [linesLeft, List.length_append] at hlength
      simp only [readsLeft]
      omega

namespace ProcessEventStream

/-- The reads that remain, by source. -/
theorem remaining_eq (stream : ProcessEventStream Reader) : stream.remaining =
    readsLeft (stream.reader .stdout) + readsLeft (stream.reader .stderr) := rfl

section Schedule

variable {stream : ProcessEventStream Reader} (schedule : Nat → Readiness)

/-- What lies between two moments of a schedule is yielded there. -/
theorem afterFirst_yields (hstarted : stream.startedSent = true) {n m : Nat} (hle : n ≤ m) :
    ∃ events, Yields (afterFirst pollNext stream schedule n)
      (afterFirst pollNext stream schedule m) events := by
  induction m, hle using Nat.le_induction with
  | base => exact ⟨[], .refl _⟩
  | succ m hle ih =>
    obtain ⟨events, hevents⟩ := ih
    rw [afterFirst_succ]
    have hstarted' : (afterFirst pollNext stream schedule m).startedSent = true :=
      (after_yields stream hstarted _).started.trans hstarted
    exact ⟨_, hevents.trans (pollNext_yields _ (schedule m) hstarted')⟩

/-- A fair schedule gets a stream that has started to its end. -/
theorem exists_ready_none (hfair : Fair schedule) (hstarted : stream.startedSent = true) :
    ∃ n, (pollNext (afterFirst pollNext stream schedule n) (schedule n)).2 = .ready none := by
  have hall : ∀ n, (afterFirst pollNext stream schedule n).startedSent = true :=
    fun n => (after_yields stream hstarted _).started.trans hstarted
  -- as long as a read is left, a later poll has one less
  have hdrops : ∀ n, 0 < (afterFirst pollNext stream schedule n).remaining →
      ∃ m, (afterFirst pollNext stream schedule m).remaining <
        (afterFirst pollNext stream schedule n).remaining := by
    intro n hpos
    -- a reader that is open now will have something at a later poll
    obtain ⟨source, hopen⟩ : ∃ source,
        0 < readsLeft ((afterFirst pollNext stream schedule n).reader source) := by
      rw [remaining_eq] at hpos
      by_cases hstdout :
        0 < readsLeft ((afterFirst pollNext stream schedule n).reader .stdout)
      · exact ⟨.stdout, hstdout⟩
      · exact ⟨.stderr, by omega⟩
    obtain ⟨m, hle, hready⟩ := hfair n source
    obtain ⟨events, hyields⟩ := afterFirst_yields schedule hstarted hle
    have hout := hyields.readsLeft_le .stdout
    have herr := hyields.readsLeft_le .stderr
    by_cases hclosed : (afterFirst pollNext stream schedule m).reader source = none
    · -- it was read to its end before
      refine ⟨m, ?_⟩
      have hless : readsLeft ((afterFirst pollNext stream schedule m).reader source) <
          readsLeft ((afterFirst pollNext stream schedule n).reader source) := by
        rw [hclosed]
        exact hopen
      simp only [remaining_eq]
      cases source with
      | stdout => omega
      | stderr => omega
    · refine ⟨m + 1, ?_⟩
      have hless := (remaining_pollNext _ (schedule m) (hall m)).2 source hready hclosed
      rw [← afterFirst_succ] at hless
      simp only [remaining_eq] at hless ⊢
      omega
  -- so at some time none is left
  obtain ⟨n, hzero⟩ := exists_eq_zero hdrops
  refine ⟨n, ?_⟩
  have hfinished : (afterFirst pollNext stream schedule n).Finished := by
    intro source
    rw [remaining_eq] at hzero
    cases hreader : (afterFirst pollNext stream schedule n).reader source with
    | none => rfl
    | some reader =>
      cases source with
      | stdout =>
        rw [hreader, readsLeft] at hzero
        omega
      | stderr =>
        rw [hreader, readsLeft] at hzero
        omega
  rw [pollNext_finished hfinished (hall n)]

end Schedule

/-- A fair schedule gets the stream of a launched process to its end. -/
theorem launched_exists_ready_none (serviceName : String) (filter : LogFilter) (childId : UInt32)
    (readers : LogSource → Reader) (schedule : Nat → Readiness) (hfair : Fair schedule) :
    ∃ n, (pollNext (afterFirst pollNext (launched serviceName filter childId readers) schedule n)
      (schedule n)).2 = .ready none := by
  have hfair' : Fair fun m => schedule (m + 1) := by
    intro n source
    obtain ⟨m, hle, hready⟩ := hfair (n + 1) source
    cases m with
    | zero => omega
    | succ m => exact ⟨m, by omega, hready⟩
  obtain ⟨n, hnone⟩ := exists_ready_none (fun m => schedule (m + 1)) hfair'
    (startedSent_after serviceName filter childId readers (schedule 0) [])
  refine ⟨n + 1, ?_⟩
  rw [afterFirst_tail]
  exact hnone

/-- For every filter, all lines of the two sources, an end or an error after them, and every
schedule: after any polls the stream has yielded that the process was started and then an
interleaving of the filtered lines that were read, and all others are still to come. Where a
poll finds the end, both readers are finished, all lines were read, and every later poll
finds the end again. A schedule that lets everything be read comes to such a poll. -/
theorem pollNext_streams (serviceName : String) (filter : LogFilter) (childId : UInt32)
    (readers : LogSource → Reader) :
    let stream := launched serviceName filter childId readers
    (∀ first polls, ∃ events read,
      streamed stream (first :: polls) = .new (.started childId) :: events ∧
      Interleaves filter read events ∧
      ∀ source, (readers source).lines =
        read source ++ linesLeft ((after pollNext stream (first :: polls)).reader source)) ∧
    (∀ polls ready, ((after pollNext stream polls).pollNext ready).2 = .ready none →
      (∃ events, streamed stream polls = .new (.started childId) :: events ∧
        Interleaves filter (fun source => (readers source).lines) events) ∧
      ((after pollNext stream polls).pollNext ready).1.Finished ∧
      ∀ later, ∀ poll ∈ history pollNext ((after pollNext stream polls).pollNext ready).1 later,
        poll.2 = .ready none) ∧
    ∀ schedule, Fair schedule →
      ∃ n, (pollNext (afterFirst pollNext stream schedule n) (schedule n)).2 = .ready none := by
  intro stream
  refine ⟨streamed_launched serviceName filter childId readers, ?_, ?_⟩
  · intro polls ready hnone
    have hfinished := finished_of_ready_none hnone
    refine ⟨streamed_of_ready_none serviceName filter childId readers hnone, hfinished, ?_⟩
    intro later
    refine history_finished hfinished ?_ later
    rw [← after_concat]
    cases polls with
    | nil => exact startedSent_after serviceName filter childId readers ready []
    | cons first polls =>
      exact startedSent_after serviceName filter childId readers first (polls ++ [ready])
  · intro schedule hfair
    exact launched_exists_ready_none serviceName filter childId readers schedule hfair

end ProcessEventStream

end GraphHarness.Executor
