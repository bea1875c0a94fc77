import GraphHarness.GraphTestDaemon.Tasks

/-!
# The end of a deployment (`GraphContractsTask::execute`)

The stream of a local process ends with its output; it never yields an `Exited` event,
and the loop waits for nothing else. So `DeploymentCompleted` follows however the
process has ended, and the branch of `process_hardhat_event` for an exit code other than
0 is never reached.

The process is not let to its end either. `execute` returns while the loop runs, its
handle is dropped there, and the launcher's handles kill: hardhat deploys to its end only
where it is done before `execute` is. A killed process closes its pipes, which is to the
loop as if it had printed all it has to print.

> `deployAll_truthful_iff`: what is sent is true of the process exactly if its output
> has not ended or it had exited with code 0 when its handle was dropped.
> `error_sent_iff`: an `Error` is sent for a line of the standard error that mentions
> one, whatever the exit code is.

The forwarding loop is `forward`, over the polls of the stream as `Executor.Events` has them.
A run of it sends what `processAll` makes of the events, and `DeploymentCompleted` behind them
once the stream has ended (`forward_end`, `completed_last`), with the map of that moment.

What the stream knows of the process and what is true of it are two different things, and are
kept apart here: the lines are those of the readers, and the exit code is that of the `Course`
after the handle was dropped.
-/

namespace GraphHarness.GraphTestDaemon

open Executor ProcessEventStream
open Orchestration (ExitStatus)
open Trace (after history afterFirst)

/-- A poll has found the end of the stream. -/
def Ended (stream : ProcessEventStream Reader) (polls : List Readiness) : Prop :=
  ∃ before ready later, polls = before ++ ready :: later ∧
    ((after pollNext stream before).pollNext ready).2 = .ready none

/-- Without a poll the stream has not ended. -/
theorem not_ended_nil (stream : ProcessEventStream Reader) : ¬ Ended stream [] := by
  rintro ⟨before, ready, later, hpolls, _⟩
  simp at hpolls

/-- The first poll apart. -/
theorem ended_cons {stream : ProcessEventStream Reader} {ready : Readiness}
    {polls : List Readiness} (h : (stream.pollNext ready).2 ≠ .ready none) :
    Ended stream (ready :: polls) ↔ Ended (stream.pollNext ready).1 polls := by
  constructor
  · rintro ⟨before, ready', later, hpolls, hnone⟩
    cases before with
    | nil =>
      obtain ⟨rfl, _⟩ := List.cons.inj hpolls
      exact absurd hnone h
    | cons first before =>
      obtain ⟨rfl, rfl⟩ := List.cons.inj hpolls
      exact ⟨before, ready', later, rfl, hnone⟩
  · rintro ⟨before, ready', later, rfl, hnone⟩
    exact ⟨ready :: before, ready', later, rfl, hnone⟩

/-- The events of the first poll come first. -/
theorem streamed_cons (stream : ProcessEventStream Reader) (ready : Readiness)
    (polls : List Readiness) : streamed stream (ready :: polls) =
      (stream.pollNext ready).2.events ++ streamed (stream.pollNext ready).1 polls := rfl

/-- A poll that does not find the end sends what is translated of its event. -/
theorem forward_cons {stream : ProcessEventStream Reader} {ready : Readiness}
    (h : (stream.pollNext ready).2 ≠ .ready none) (books : Bookkeeping) (polls : List Readiness) :
    forward stream books (ready :: polls) =
      (processAll (stream.pollNext ready).2.events books).1 ++
        forward (stream.pollNext ready).1 (processAll (stream.pollNext ready).2.events books).2
          polls := by
  rw [forward]
  cases hpoll : stream.pollNext ready with
  | mk stream' poll =>
    rw [hpoll] at h
    cases poll with
    | pending => rfl
    | ready value =>
      cases value with
      | none => exact absurd rfl h
      | some event => simp [Poll.events, processAll]

/-- At the end of the stream the deployment is reported as completed. -/
theorem forward_end {stream : ProcessEventStream Reader} {ready : Readiness}
    (h : (stream.pollNext ready).2 = .ready none) (books : Bookkeeping) (polls : List Readiness) :
    forward stream books (ready :: polls) = [.deploymentCompleted books.deployedContracts] := by
  rw [forward]
  split
  next hpoll => simp [hpoll] at h
  next => rfl
  next hpoll => simp [hpoll] at h

/-- The loop sends what is translated of the events up to the end of the stream, and the
completion at the end. -/
theorem forward_spec (stream : ProcessEventStream Reader) (books : Bookkeeping)
    (polls : List Readiness) :
    (∃ before ready later, polls = before ++ ready :: later ∧
        ((after pollNext stream before).pollNext ready).2 = .ready none ∧
        forward stream books polls = (processAll (streamed stream before) books).1 ++
          [.deploymentCompleted (processAll (streamed stream before) books).2.deployedContracts]) ∨
      (¬ Ended stream polls ∧
        forward stream books polls = (processAll (streamed stream polls) books).1) := by
  induction polls generalizing stream books with
  | nil => exact .inr ⟨not_ended_nil stream, rfl⟩
  | cons ready polls ih =>
    by_cases hend : (stream.pollNext ready).2 = .ready none
    · exact .inl ⟨[], ready, polls, rfl, hend, forward_end hend books polls⟩
    · rw [forward_cons hend, ended_cons hend]
      rcases ih (stream.pollNext ready).1 (processAll (stream.pollNext ready).2.events books).2 with
        ⟨before, ready', later, rfl, hnone, hforward⟩ | ⟨hnot, hforward⟩
      · refine .inl ⟨ready :: before, ready', later, rfl, hnone, ?_⟩
        rw [hforward, streamed_cons, processAll_append, List.append_assoc]
      · refine .inr ⟨hnot, ?_⟩
        rw [hforward, streamed_cons, processAll_append]

/-- No line is reported as a completion. -/
theorem completed_not_mem_processAll (events : List ProcessEvent) (books : Bookkeeping)
    (addresses : HashMap String String) :
    .deploymentCompleted addresses ∉ (processAll events books).1 := by
  induction events generalizing books with
  | nil => simp [processAll]
  | cons event events ih =>
    rw [processAll, List.mem_append, Option.mem_toList]
    rintro (hevent | hlater)
    · exact processHardhatEvent_not_completed hevent
    · exact ih _ hlater

/-- `DeploymentCompleted` is sent when the stream has ended, and nothing after it. -/
theorem forward_completed (stream : ProcessEventStream Reader) (books : Bookkeeping)
    (polls : List Readiness) :
    ((∃ addresses, .deploymentCompleted addresses ∈ forward stream books polls) ↔
      Ended stream polls) ∧
    ∀ before addresses later,
      forward stream books polls = before ++ .deploymentCompleted addresses :: later →
        later = [] := by
  rcases forward_spec stream books polls with ⟨before, ready, later, hpolls, hnone, hforward⟩ |
    ⟨hnot, hforward⟩
  · rw [hforward]
    have hended : Ended stream polls := ⟨before, ready, later, hpolls, hnone⟩
    constructor
    · exact iff_of_true ⟨_, List.mem_append_right _ (List.mem_singleton_self _)⟩ hended
    · intro before' addresses later' hsplit
      rcases List.eq_nil_or_concat later' with rfl | ⟨rest, last, rfl⟩
      · rfl
      · -- then the first completion would be among the translated events
        rw [List.concat_eq_append, ← List.cons_append, ← List.append_assoc] at hsplit
        have htranslated := (List.append_inj' hsplit rfl).1
        refine absurd ?_ (completed_not_mem_processAll (streamed stream before) books addresses)
        rw [htranslated]
        simp
  · rw [hforward]
    constructor
    · constructor
      · rintro ⟨addresses, hmem⟩
        exact absurd hmem (completed_not_mem_processAll _ books addresses)
      · intro hended
        exact absurd hended hnot
    · intro before addresses later hsplit
      refine absurd ?_ (completed_not_mem_processAll (streamed stream polls) books addresses)
      rw [hsplit]
      simp

/-! ## What is true of the process -/

/-- Success is reported of a process that exits with code 0 only, once, and last; once
its output has ended, the failure of one that exits with another code is reported. -/
structure Truthful (exit : ExitStatus) (ended : Prop) (sent : List GraphContractsEvent) :
    Prop where
  completed : ∀ addresses, .deploymentCompleted addresses ∈ sent → exit.code = some 0
  last : ∀ before addresses later, sent = before ++ .deploymentCompleted addresses :: later →
    later = [] ∧ ∀ other, .deploymentCompleted other ∉ before
  failed : ended → ∀ code, exit.code = some code → code ≠ 0 → ∃ message, .error message ∈ sent

/-- What the task reports, the command once launched. -/
theorem execute_deployAll {task : GraphContractsTask}
    {spawn : AsyncCommand → Except String (Child Reader)} {stream : ProcessEventStream Reader}
    {handle : LocalProcessHandle Reader Unit}
    (hlaunch : launch spawn .command task.hardhat = .ok (stream, handle)) (course : Course)
    (contractsFileExists : Bool) (polls : List Readiness) :
    task.execute spawn course contractsFileExists polls .deployAll =
      .ok (.deploymentStarted 12 :: forward stream .empty polls, some (handle.drop course)) := by
  rw [GraphContractsTask.execute, hlaunch]

/-- What follows the start is what the loop sends. -/
theorem completed_mem_sent {stream : ProcessEventStream Reader} {polls : List Readiness} :
    (∃ addresses, .deploymentCompleted addresses ∈
      (.deploymentStarted 12 :: forward stream .empty polls : List GraphContractsEvent)) ↔
      Ended stream polls := by
  rw [← (forward_completed stream .empty polls).1]
  simp

/-- A completion is the last of the reports. -/
theorem completed_last {stream : ProcessEventStream Reader} {polls : List Readiness}
    {before later : List GraphContractsEvent} {addresses : HashMap String String}
    (h : .deploymentStarted 12 :: forward stream .empty polls =
      before ++ .deploymentCompleted addresses :: later) :
    later = [] ∧ ∀ other, .deploymentCompleted other ∉ before := by
  have hlast : ∀ {before' later' : List GraphContractsEvent} {addresses' : HashMap String String},
      .deploymentStarted 12 :: forward stream .empty polls =
        before' ++ .deploymentCompleted addresses' :: later' → later' = [] := by
    intro before' later' addresses' hsplit
    cases before' with
    | nil => cases (List.cons.inj hsplit).1
    | cons first before' =>
      exact (forward_completed stream .empty polls).2 before' addresses' later'
        (List.cons.inj hsplit).2
  refine ⟨hlast h, ?_⟩
  intro other hother
  -- a completion before this one would have this one behind it
  obtain ⟨first, second, rfl⟩ := List.append_of_mem hother
  rw [List.append_assoc, List.cons_append] at h
  simpa using hlast h

/-- **The events are true of the process exactly if the output goes on or the process was
done, with code 0, before its handle was dropped**: the exit code is not looked at, and a
process that still runs is killed. -/
theorem deployAll_truthful_iff (task : GraphContractsTask)
    (spawn : AsyncCommand → Except String (Child Reader)) (course : Course)
    (contractsFileExists : Bool) (polls : List Readiness) (stream : ProcessEventStream Reader)
    (handle : LocalProcessHandle Reader Unit)
    (hlaunch : launch spawn .command task.hardhat = .ok (stream, handle)) :
    ∃ sent exit,
      task.execute spawn course contractsFileExists polls .deployAll = .ok (sent, some exit) ∧
      (Truthful exit (Ended stream polls) sent ↔
        (Ended stream polls → ∃ signal, course = .exited ⟨some 0, signal⟩)) := by
  refine ⟨_, _, execute_deployAll hlaunch course contractsFileExists polls, ?_⟩
  rw [← LocalProcessHandle.drop_code_zero_iff (launch_killOnDrop hlaunch)]
  constructor
  · intro h hended
    obtain ⟨addresses, hmem⟩ := completed_mem_sent.mpr hended
    exact h.completed addresses hmem
  · intro hzero
    refine ⟨?_, fun before addresses later hsplit => completed_last hsplit, ?_⟩
    · intro addresses hmem
      exact hzero (completed_mem_sent.mp ⟨addresses, hmem⟩)
    · intro hended code hcode hfailed
      exact absurd (Option.some.inj (hcode.symm.trans (hzero hended))) hfailed

/-- The pipes of a process that prints nothing. -/
def silent (_ : LogSource) : Reader := ⟨[], false⟩

/-- A process that prints nothing. -/
def spawnSilent (asyncCmd : AsyncCommand) : Except String (Child Reader) :=
  let pipe (stdio : Stdio) (reader : Reader) : Option Reader :=
    if stdio = .piped then some reader else none
  .ok ⟨1, pipe asyncCmd.stdin ⟨[], false⟩, pipe asyncCmd.stdout (silent .stdout),
    pipe asyncCmd.stderr (silent .stderr)⟩

/-- The start, and at the next poll the end. -/
theorem forward_silent (books : Bookkeeping) :
    forward (launched "local_process" noOpFilter 1 silent) books
      (List.replicate 2 fun _ _ => true) = [.deploymentCompleted books.deployedContracts] := by
  have hstart : ((launched "local_process" noOpFilter 1 silent).pollNext fun _ _ => true).2 =
      .ready (some (.new (.started 1))) := by simp [launched, pollNext]
  rw [List.replicate_succ, forward_cons (by rw [hstart]; simp), hstart]
  have hend : (((launched "local_process" noOpFilter 1 silent).pollNext fun _ _ => true).1.pollNext
      fun _ _ => true).2 = .ready none := by
    simp [launched, silent, pollNext, tryRead, Reader.pollNext]
  rw [List.replicate_succ, forward_end hend]
  rfl

/-- A process that is done when the handle is dropped, and one that is killed while the
loop has seen no more of it than its start. -/
theorem deployAll_truthful_printing :
    (∃ stream handle sent exit,
      launch (spawnPrinting "Deploying GNS") .command
        (GraphContractsTask.mk "http://localhost:8545" "./contracts").hardhat =
          .ok (stream, handle) ∧
      (GraphContractsTask.mk "http://localhost:8545" "./contracts").execute
        (spawnPrinting "Deploying GNS") (.exited ⟨some 0, none⟩) false
        (List.replicate 3 fun _ _ => true) .deployAll = .ok (sent, some exit) ∧
      Truthful exit (Ended stream (List.replicate 3 fun _ _ => true)) sent) ∧
    ∃ stream handle sent exit,
      launch spawnSilent .command
        (GraphContractsTask.mk "http://localhost:8545" "./contracts").hardhat =
          .ok (stream, handle) ∧
      (GraphContractsTask.mk "http://localhost:8545" "./contracts").execute
        spawnSilent (.running ⟨some 0, none⟩) false [fun _ _ => true] .deployAll =
          .ok (sent, some exit) ∧
      Truthful exit (Ended stream [fun _ _ => true]) sent := by
  constructor
  · obtain ⟨sent, exit, hsent, hiff⟩ := deployAll_truthful_iff
      (GraphContractsTask.mk "http://localhost:8545" "./contracts") (spawnPrinting "Deploying GNS")
      (.exited ⟨some 0, none⟩) false (List.replicate 3 fun _ _ => true) _ _ rfl
    exact ⟨_, _, sent, exit, rfl, hsent, hiff.mpr fun _ => ⟨none, rfl⟩⟩
  · obtain ⟨sent, exit, hsent, hiff⟩ := deployAll_truthful_iff
      (GraphContractsTask.mk "http://localhost:8545" "./contracts") spawnSilent
      (.running ⟨some 0, none⟩) false [fun _ _ => true] _ _ rfl
    refine ⟨_, _, sent, exit, rfl, hsent, hiff.mpr ?_⟩
    intro hended
    rw [ended_cons (by simp [pollNext])] at hended
    exact absurd hended (not_ended_nil _)

/-- **A process that is killed is reported as a deployment**: it still runs when `execute`
returns, has printed nothing, and its pipes are closed. -/
theorem failed_deployment_completed :
    ∃ stream handle sent exit,
      launch spawnSilent .command
        (GraphContractsTask.mk "http://localhost:8545" "./contracts").hardhat =
          .ok (stream, handle) ∧
      (GraphContractsTask.mk "http://localhost:8545" "./contracts").execute
        spawnSilent (.running ⟨some 0, none⟩) false (List.replicate 2 fun _ _ => true)
        .deployAll = .ok (sent, some exit) ∧
      exit = ⟨none, some 9⟩ ∧ sent = [.deploymentStarted 12, .deploymentCompleted ∅] ∧
      ¬ Truthful exit (Ended stream (List.replicate 2 fun _ _ => true)) sent := by
  refine ⟨launched "local_process" noOpFilter 1 silent, _, _, _, rfl, rfl, rfl,
    congrArg _ (forward_silent .empty), ?_⟩
  intro h
  have hzero := h.completed ∅ (List.mem_cons_of_mem _ ?_)
  · cases hzero
  · exact (forward_silent .empty).symm ▸ List.mem_singleton_self _

/-! ## Errors -/

/-- The message that is sent for an event that tells of an error. -/
def reportedError (event : ProcessEvent) : Option String :=
  match event.eventType with
  | .stderr => event.data.filter mentionsError
  | .exited code _ => (code.filter fun code => code ≠ 0).map fun code =>
      "Deployment failed with exit code " ++ toString code
  | _ => none

/-- Which event is reported as an error. -/
theorem processHardhatEvent_error_iff {event : ProcessEvent} {books : Bookkeeping}
    {message : String} :
    (processHardhatEvent event books).1 = some (.error message) ↔
      reportedError event = some message := by
  obtain ⟨eventType, data⟩ := event
  cases eventType with
  | started pid => simp [processHardhatEvent, reportedError]
  | exited code signal =>
    cases code with
    | none => simp [processHardhatEvent, reportedError]
    | some code => by_cases hzero : code = 0 <;> simp [processHardhatEvent, reportedError, hzero]
  | stderr =>
    cases data with
    | none => simp [processHardhatEvent, reportedError]
    | some line =>
      by_cases herror : mentionsError line
      · simp [processHardhatEvent, reportedError, herror, Option.filter]
      · simp [processHardhatEvent, reportedError, herror, Option.filter]
  | stdout =>
    cases data with
    | none => simp [processHardhatEvent, reportedError]
    | some line =>
      by_cases hcompile : isCompilation line
      · simp [processHardhatEvent, reportedError, hcompile]
      · cases hinfo : extractDeploymentInfo line with
        | some info => simp [processHardhatEvent, reportedError, hcompile, hinfo]
        | none =>
          by_cases hprogress : isProgress line <;>
            simp [processHardhatEvent, reportedError, hcompile, hinfo, hprogress]

/-- The errors reported are those of the events. -/
theorem error_mem_processAll {message : String} (events : List ProcessEvent) (books : Bookkeeping) :
    .error message ∈ (processAll events books).1 ↔
      ∃ event ∈ events, reportedError event = some message := by
  induction events generalizing books with
  | nil => simp [processAll]
  | cons event events ih =>
    rw [processAll, List.mem_append, Option.mem_toList, processHardhatEvent_error_iff, ih]
    simp

/-- Of the lines of a process, those on the standard error tell of an error. -/
theorem reportedError_iff {lines : LogSource → List String} {events : List ProcessEvent}
    (h : Interleaves noOpFilter lines events) {message : String} :
    (∃ event ∈ events, reportedError event = some message) ↔
      message ∈ lines .stderr ∧ mentionsError message = true := by
  have hlines : lines .stderr = printed .stderr events := by
    rw [h.lines .stderr]
    exact List.filterMap_some.symm
  rw [hlines, printed, List.mem_filterMap]
  constructor
  · rintro ⟨event, hevent, herror⟩
    obtain ⟨source, line, rfl⟩ := h.outputs event hevent
    cases source with
    | stdout => cases herror
    | stderr =>
      have herror : (some line).filter mentionsError = some message := herror
      obtain ⟨hline, hmentions⟩ := Option.filter_eq_some_iff.mp herror
      exact ⟨⟨_, hevent, hline⟩, hmentions⟩
  · rintro ⟨⟨event, hevent, hprinted⟩, hmentions⟩
    obtain ⟨source, line, rfl⟩ := h.outputs event hevent
    refine ⟨_, hevent, ?_⟩
    cases source with
    | stdout => cases hprinted
    | stderr => exact Option.filter_eq_some_iff.mpr ⟨hprinted, hmentions⟩

/-- Once the output has ended, an `Error` was sent exactly if a line of the standard error
mentions one. -/
theorem error_sent_iff {task : GraphContractsTask}
    {spawn : AsyncCommand → Except String (Child Reader)} {readers : LogSource → Reader}
    (hprints : Prints spawn readers) {contractsFileExists : Bool} {polls : List Readiness}
    {stream : ProcessEventStream Reader} {handle : LocalProcessHandle Reader Unit}
    (hlaunch : launch spawn .command task.hardhat = .ok (stream, handle)) {course : Course}
    (hended : Ended stream polls) {sent : List GraphContractsEvent} {exit : Option ExitStatus}
    (hsent : task.execute spawn course contractsFileExists polls .deployAll = .ok (sent, exit))
    (message : String) :
    .error message ∈ sent ↔
      message ∈ (readers .stderr).lines ∧ mentionsError message = true := by
  obtain ⟨childId, rfl⟩ := launch_launched hprints hlaunch
  rw [execute_deployAll hlaunch] at hsent
  obtain ⟨rfl, rfl⟩ := Prod.mk.inj (Except.ok.inj hsent)
  rcases forward_spec _ .empty polls with ⟨before, ready, later, _, hnone, hforward⟩ | ⟨hnot, _⟩
  · obtain ⟨events, hstreamed, hinterleaves⟩ :=
      streamed_of_ready_none "local_process" noOpFilter childId readers hnone
    rw [hforward, hstreamed, List.mem_cons, List.mem_append, error_mem_processAll]
    simp only [List.mem_cons, exists_eq_or_imp]
    rw [reportedError_iff hinterleaves]
    simp [reportedError, ProcessEvent.new]
  · exact absurd hended hnot

/-- Where everything gets read, completion is sent, killed or not. -/
theorem fair_completed {task : GraphContractsTask}
    {spawn : AsyncCommand → Except String (Child Reader)} {readers : LogSource → Reader}
    (hprints : Prints spawn readers) (contractsFileExists : Bool) {schedule : Nat → Readiness}
    (hfair : Fair schedule) {stream : ProcessEventStream Reader}
    {handle : LocalProcessHandle Reader Unit}
    (hlaunch : launch spawn .command task.hardhat = .ok (stream, handle)) (course : Course) :
    ∃ n sent exit,
      task.execute spawn course contractsFileExists ((List.range n).map schedule) .deployAll =
        .ok (sent, exit) ∧ ∃ addresses, .deploymentCompleted addresses ∈ sent := by
  obtain ⟨childId, rfl⟩ := launch_launched hprints hlaunch
  obtain ⟨n, hnone⟩ :=
    launched_exists_ready_none "local_process" noOpFilter childId readers schedule hfair
  refine ⟨n + 1, _, _, execute_deployAll hlaunch _ _ _, completed_mem_sent.mpr ?_⟩
  refine ⟨(List.range n).map schedule, schedule n, [], ?_, hnone⟩
  rw [List.range_succ, List.map_append]
  rfl

end GraphHarness.GraphTestDaemon
