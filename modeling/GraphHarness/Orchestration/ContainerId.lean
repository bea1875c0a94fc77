import GraphHarness.Executor.Output
import GraphHarness.Orchestration.Docker

/-!
# The identifier of a container

`docker run -d` prints the identifier of the new container, and `start` takes all of its
output for it. But the output of a command is what it writes to both of its pipes.

> `recordsContainer_iff` — the identifier is recorded, and the commands after it are
> issued for it, **exactly if nothing but white space is written to the standard error**.

The output is collected from the events of the process, in whatever order its two pipes are
read; `carried_split` cuts it into what came from each. White space at both ends is trimmed
off, so a line of the standard error that is blank does no harm, and any other one ends up in
the identifier.

The dialogue of `Orchestration.Docker` says which commands come after `docker run` and that
each of them names the container by what was recorded. `IsWord` is what docker prints as an
identifier: some characters, none of them white space.
-/

namespace GraphHarness.Orchestration.DockerExecutor

open Executor (LogSource ProcessEvent Interleaves noOpFilter printed pushEvent collect Reader
  Readiness)
open Executor.ProcessEventStream (launched)
open Trace (Dialogue)

/-! ## The output of a command -/

/-- Lines, with a line break after each. -/
def text (lines : List String) : List Char := lines.flatMap fun line => line.toList ++ ['\n']

/-- Nothing of the output is visible if and only if each line is blank. -/
theorem visible_text_eq_nil_iff {lines : List String} :
    visible (text lines) = [] ↔ ∀ line ∈ lines, isBlank line = true := by
  rw [visible_eq_nil_iff]
  constructor
  · intro h line hline
    rw [isBlank_iff]
    intro c hc
    exact h c (List.mem_flatMap.mpr ⟨line, hline, List.mem_append_left _ hc⟩)
  · intro h c hc
    obtain ⟨line, hline, hc⟩ := List.mem_flatMap.mp hc
    rcases List.mem_append.mp hc with hinside | hbreak
    · exact (isBlank_iff line).mp (h line hline) c hinside
    · rw [List.mem_singleton.mp hbreak]
      rfl

/-- What the events carry, whatever they are. -/
def carried (events : List ProcessEvent) : List String := events.filterMap fun event => event.data

/-- The output is the text of the lines that the events carry. -/
theorem toList_foldl_pushEvent (events : List ProcessEvent) (output : String) :
    (events.foldl pushEvent output).toList = output.toList ++ text (carried events) := by
  induction events generalizing output with
  | nil => exact (List.append_nil _).symm
  | cons event events ih =>
    rw [List.foldl_cons, ih]
    obtain ⟨eventType, data⟩ := event
    cases data with
    | none => rfl
    | some line =>
      show (output ++ line ++ "\n").toList ++ _ = _ ++ text (line :: carried events)
      rw [String.toList_append, String.toList_append, text, text, List.flatMap_cons]
      simp

/-- Without a filter each line is printed. -/
theorem interleaves_noOpFilter {lines : LogSource → List String} {events : List ProcessEvent}
    (h : Interleaves noOpFilter lines events) (source : LogSource) :
    printed source events = lines source := (h.lines source).trans List.filterMap_some

/-- Events of the standard error only. -/
theorem printed_stderr_eq {events : List ProcessEvent}
    (houtputs : ∀ event ∈ events, ∃ (source : LogSource) (line : String),
      event = .newWithData source.eventType line)
    (hnone : printed .stdout events = []) : printed .stderr events = carried events := by
  rw [printed, List.filterMap_eq_nil_iff] at hnone
  refine List.filterMap_congr ?_
  intro event hevent
  obtain ⟨source, line, rfl⟩ := houtputs event hevent
  cases source with
  | stdout => cases hnone _ hevent
  | stderr => rfl

/-- Where the standard output is a single line, all that is around it is from the standard
error. -/
theorem carried_split {lines : LogSource → List String} {containerId : String}
    (hstdout : lines .stdout = [containerId]) {events : List ProcessEvent}
    (h : Interleaves noOpFilter lines events) :
    ∃ before after, carried events = before ++ containerId :: after ∧
      ∀ line, line ∈ lines .stderr ↔ line ∈ before ∨ line ∈ after := by
  have hout := interleaves_noOpFilter h .stdout
  rw [hstdout, printed, List.filterMap_eq_cons_iff] at hout
  obtain ⟨before, event, after, rfl, hbefore, hevent, hafter⟩ := hout
  have hstderrBefore : printed .stderr before = carried before :=
    printed_stderr_eq (fun e he => h.outputs e (List.mem_append_left _ he))
      (List.filterMap_eq_nil_iff.mpr hbefore)
  have hstderrAfter : printed .stderr after = carried after :=
    printed_stderr_eq
      (fun e he => h.outputs e (List.mem_append_right _ (List.mem_cons_of_mem _ he))) hafter
  obtain ⟨source, line, rfl⟩ :=
    h.outputs event (List.mem_append_right _ List.mem_cons_self)
  cases source with
  | stderr => cases hevent
  | stdout =>
    obtain rfl : line = containerId := Option.some.inj hevent
    refine ⟨carried before, carried after, ?_, ?_⟩
    · rw [carried, List.filterMap_append]
      rfl
    · intro other
      rw [← interleaves_noOpFilter h .stderr, Executor.printed_append, List.mem_append,
        hstderrBefore, ← hstderrAfter]
      exact Iff.rfl

/-- The identifier is a word. -/
structure IsWord (containerId : String) : Prop where
  nonempty : containerId.toList ≠ []
  visible : ∀ c ∈ containerId.toList, isWhitespace c = false

/-- The output of a command, trimmed, is the line it prints exactly if all lines of the
standard error are blank, in whichever order the lines were read. -/
theorem trim_output_iff {lines : LogSource → List String} {containerId : String}
    (hword : IsWord containerId) (hstdout : lines .stdout = [containerId])
    {events : List ProcessEvent} (h : Interleaves noOpFilter lines events) :
    trim (events.foldl pushEvent "") = containerId ↔
      ∀ line ∈ lines .stderr, isBlank line = true := by
  obtain ⟨before, after, hcarried, hstderr⟩ := carried_split hstdout h
  have htext : (events.foldl pushEvent "").toList =
      text before ++ containerId.toList ++ ('\n' :: text after) := by
    rw [toList_foldl_pushEvent, hcarried, text, List.flatMap_append, List.flatMap_cons]
    simp [text]
  have hbreak : (∀ c ∈ '\n' :: text after, isWhitespace c = true) ↔
      visible (text after) = [] := by
    rw [List.forall_mem_cons, visible_eq_nil_iff]
    exact and_iff_right rfl
  rw [trim, ← String.toList_inj, String.toList_ofList, htext,
    trimChars_eq_iff hword.nonempty hword.visible, hbreak, ← visible_eq_nil_iff,
    visible_text_eq_nil_iff, visible_text_eq_nil_iff]
  constructor
  · rintro ⟨hbefore, hafter⟩ line hline
    rcases (hstderr line).mp hline with hin | hin
    · exact hbefore line hin
    · exact hafter line hin
  · intro hall
    exact ⟨fun line hin => hall line ((hstderr line).mpr (.inl hin)),
      fun line hin => hall line ((hstderr line).mpr (.inr hin))⟩

/-! ## The commands for a container -/

/-- The command is one of those for the container. -/
def IssuedFor (containerId : String) (command : List String) : Prop :=
  command ∈ [addressCommand containerId, portCommand containerId, statusCommand containerId,
    stopCommand containerId, removeCommand containerId, forceRemoveCommand containerId]

/-- The questions about the network name the container. -/
theorem issuedFor_inspecting (containerId : String) :
    (inspecting containerId).Asks (IssuedFor containerId) := by
  refine (asks_inspecting containerId).imp ?_
  intro command hcommand
  exact List.mem_append_left [statusCommand containerId, stopCommand containerId,
    removeCommand containerId, forceRemoveCommand containerId] hcommand

/-- The commands of a stop name the container. -/
theorem asks_stopping {service : RunningService} {containerId : String}
    (h : service.containerId = some containerId) :
    (stopping service).Asks (IssuedFor containerId) := by
  unfold stopping
  rw [h]
  refine Dialogue.asks_ask (by simp [IssuedFor]) (fun e => trivial) ?_
  intro inspected
  refine Dialogue.asks_ite ?_ trivial
  generalize trim inspected.output = status
  refine Dialogue.asks_ite ?_ ?_
  · exact Dialogue.asks_ask (by simp [IssuedFor]) (fun e => trivial) (fun result => trivial)
  · refine Dialogue.asks_ask (by simp [IssuedFor]) (fun e => trivial) ?_
    intro result
    refine Dialogue.asks_ite ?_ trivial
    exact Dialogue.asks_ask (by simp [IssuedFor]) (fun e => trivial) (fun removed => trivial)

/-- A stop depends on nothing but what the commands for its container answer. -/
theorem stop_congr {service : RunningService} {containerId : String}
    (h : service.containerId = some containerId) {run run' : Commands}
    (hsame : ∀ command, IssuedFor containerId command → run command = run' command) :
    stop run service = stop run' service := by
  rw [← eval_stopping, ← eval_stopping]
  exact Dialogue.eval_congr hsame (asks_stopping h)

/-- The address is asked of the container that the command names. -/
theorem eq_of_issuedFor {containerId other : String}
    (h : IssuedFor containerId (addressCommand other)) : other = containerId := by
  simpa [IssuedFor, addressCommand, portCommand, statusCommand, stopCommand, removeCommand,
    forceRemoveCommand] using h

/-! ## From `docker run` on -/

/-- `docker run` names no container by its id. -/
theorem not_issuedFor_runCommand (containerId name image : String) (env : HashMap String String)
    (ports : List UInt16) (volumes : List String) :
    ¬ IssuedFor containerId (runCommand name image env ports volumes) := by
  simp [IssuedFor, runCommand, addressCommand, portCommand, statusCommand, stopCommand,
    removeCommand, forceRemoveCommand]

section Start

variable {run : Commands} {id : Nat} {config : ServiceConfig} {result : ExitResult}

/-- What is asked after the container was run: about the id that was printed, trimmed. -/
theorem asked_running {line : List String} (hrun : run line = .ok result)
    (hsuccess : result.success = true) : (running id config line).asked run =
      line :: (inspecting (trim result.output)).asked run := by
  unfold running
  rw [Dialogue.asked, hrun]
  dsimp only
  rw [if_pos hsuccess, Dialogue.asked_map]

/-- The id that is kept is the output, trimmed. -/
theorem recorded_running {line : List String} (hrun : run line = .ok result)
    (hsuccess : result.success = true) {service : RunningService}
    (h : ((running id config line).eval run).2 = .ok service) :
    service.containerId = some (trim result.output) := by
  unfold running at h
  rw [Dialogue.eval, hrun] at h
  dsimp only at h
  rw [if_pos hsuccess, Dialogue.eval_map, Result.map_eq_ok] at h
  obtain ⟨networkInfo, _, rfl⟩ := h
  rfl

variable {image : String} {env : HashMap String String} {ports : List UInt16}
variable {volumes : List String}

/-- A start that gets to `docker run` goes on with what it prints. -/
theorem starting_reached (htarget : config.target = .docker image env ports volumes)
    (hreached : runCommand config.name image env ports volumes ∈ (starting id config).asked run)
    (hrun : run (runCommand config.name image env ports volumes) = .ok result)
    (hsuccess : result.success = true) :
    (∃ before, runCommand config.name image env ports volumes ∉ before ∧
      (starting id config).asked run = before ++ runCommand config.name image env ports volumes ::
        (inspecting (trim result.output)).asked run) ∧
    ∀ service, (start run id config).2 = .ok service →
      service.containerId = some (trim result.output) := by
  rw [← eval_starting]
  revert hreached
  unfold starting
  rw [htarget]
  dsimp only
  rw [Dialogue.asked_bind, Dialogue.eval_bind, asked_detecting, eval_detecting]
  -- neither the detection nor the removal of what it finds issues the `docker run`
  have hps := psCommand_ne_runCommand config.name config.name image env ports volumes
  have hrm := fun id' => not_issuedFor_runCommand id' config.name image env ports volumes
  cases detectExistingContainer run config.name with
  | error e =>
    intro hreached
    exact absurd (List.mem_singleton.mp hreached).symm hps
  | ok found =>
    cases found with
    | none =>
      intro _
      refine ⟨⟨[psCommand config.name], ?_, ?_⟩, ?_⟩
      · rw [List.mem_singleton]
        exact hps.symm
      · dsimp only
        rw [asked_running hrun hsuccess]
      · intro service hservice
        exact recorded_running hrun hsuccess hservice
    | some existing =>
      dsimp only
      by_cases hisRunning : existing.isRunning = true
      · -- the container is adopted, and none is run
        rw [if_pos hisRunning, Dialogue.asked_map, adopting, Dialogue.asked_map]
        intro hreached
        rcases List.mem_append.mp hreached with hfirst | hlater
        · exact absurd (List.mem_singleton.mp hfirst).symm hps
        · exact absurd (Dialogue.asks_imp (issuedFor_inspecting existing.id) _ hlater) (hrm _)
      · rw [if_neg hisRunning, Dialogue.asked, Dialogue.eval]
        have hne : forceRemoveCommand existing.id ≠
            runCommand config.name image env ports volumes := by
          intro heq
          exact hrm existing.id (heq ▸ by simp [IssuedFor])
        cases run (forceRemoveCommand existing.id) with
        | error e =>
          intro hreached
          rcases List.mem_append.mp hreached with hfirst | hlater
          · exact absurd (List.mem_singleton.mp hfirst).symm hps
          · exact absurd (List.mem_singleton.mp hlater).symm hne
        | ok removed =>
          intro _
          dsimp only
          rw [Dialogue.asked_map, Dialogue.eval_map, asked_running hrun hsuccess]
          refine ⟨⟨[psCommand config.name, forceRemoveCommand existing.id], ?_, rfl⟩, ?_⟩
          · intro hmem
            rcases List.mem_cons.mp hmem with heq | hmem
            · exact hps heq.symm
            · exact hne (List.mem_singleton.mp hmem).symm
          · intro service hservice
            exact recorded_running hrun hsuccess hservice

/-! ## Recorded -/

/-- After `docker run`, every command of the start is for the container, the service has
its identifier, and every command of a stop is for it. -/
structure RecordsContainer (containerId : String) (run : Commands) (id : Nat)
    (config : ServiceConfig) (line : List String) : Prop where
  later : ∀ before after, (starting id config).asked run = before ++ line :: after →
    ∀ command ∈ after, IssuedFor containerId command
  recorded : ∀ service, (start run id config).2 = .ok service →
    service.containerId = some containerId
  stopped : ∀ service, (start run id config).2 = .ok service →
    ∀ run', ∀ command ∈ (stopping service).asked run', IssuedFor containerId command

/-- The first command after `docker run` asks for the address of what it printed. -/
theorem RecordsContainer.trim_eq {containerId : String}
    (htarget : config.target = .docker image env ports volumes)
    (hreached : runCommand config.name image env ports volumes ∈ (starting id config).asked run)
    (hrun : run (runCommand config.name image env ports volumes) = .ok result)
    (hsuccess : result.success = true)
    (h : RecordsContainer containerId run id config
      (runCommand config.name image env ports volumes)) :
    trim result.output = containerId := by
  obtain ⟨⟨before, _, hasked⟩, _⟩ := starting_reached htarget hreached hrun hsuccess
  exact eq_of_issuedFor (h.later before _ hasked _ List.mem_cons_self)

/-- If the trimmed output is the id, the service is recorded under it. -/
theorem recordsContainer_of_trim_eq
    (htarget : config.target = .docker image env ports volumes)
    (hreached : runCommand config.name image env ports volumes ∈ (starting id config).asked run)
    (hrun : run (runCommand config.name image env ports volumes) = .ok result)
    (hsuccess : result.success = true) :
    RecordsContainer (trim result.output) run id config
      (runCommand config.name image env ports volumes) := by
  obtain ⟨⟨before, hbefore, hasked⟩, hrecorded⟩ :=
    starting_reached htarget hreached hrun hsuccess
  have hissued : ∀ command ∈ (inspecting (trim result.output)).asked run,
      IssuedFor (trim result.output) command := Dialogue.asks_imp (issuedFor_inspecting _)
  refine ⟨?_, hrecorded, ?_⟩
  · intro before' after hasked' command hcommand
    rw [hasked] at hasked'
    have hlater : runCommand config.name image env ports volumes ∉
        (inspecting (trim result.output)).asked run :=
      fun hmem => not_issuedFor_runCommand _ _ _ _ _ _ (hissued _ hmem)
    obtain ⟨_, _, rfl⟩ := (List.append_cons_inj_of_notMem hbefore hlater).mp hasked'
    exact hissued command hcommand
  · intro service hservice run'
    exact Dialogue.asks_imp (asks_stopping (hrecorded service hservice))

end Start

/-- For every successful `docker run` that prints the identifier on its standard output,
whatever it writes to its standard error and in whichever order the lines are read: the
identifier is recorded and used exactly if every line of the standard error is blank. -/
theorem recordsContainer_iff (run : Commands) (id : Nat) (config : ServiceConfig)
    (image : String) (env : HashMap String String) (ports : List UInt16) (volumes : List String)
    (htarget : config.target = .docker image env ports volumes)
    (hreached : runCommand config.name image env ports volumes ∈ (starting id config).asked run)
    (result : ExitResult)
    (hrun : run (runCommand config.name image env ports volumes) = .ok result)
    (hsuccess : result.success = true) (containerId : String) (hword : IsWord containerId)
    (childId : UInt32) (readers : LogSource → Reader)
    (hstdout : (readers .stdout).lines = [containerId]) (polls : List Readiness)
    (hcollect : collect (launched "local_process" noOpFilter childId readers) "" polls =
      some result.output) :
    RecordsContainer containerId run id config
        (runCommand config.name image env ports volumes) ↔
      ∀ line ∈ (readers .stderr).lines, isBlank line = true := by
  obtain ⟨events, hevents, houtput⟩ := Executor.collect_launched hcollect
  have htrim := trim_output_iff hword hstdout hevents
  rw [← houtput] at htrim
  rw [← htrim]
  constructor
  · exact RecordsContainer.trim_eq htarget hreached hrun hsuccess
  · rintro rfl
    exact recordsContainer_of_trim_eq htarget hreached hrun hsuccess

/-- A service `web` in a container of `httpd`. -/
def webService : ServiceConfig where
  name := "web"
  target := .docker "httpd" ∅ [] []
  dependencies := []
  healthCheck := none

/-- There is no container yet, and `docker run` shows the output. -/
def showing (output : String) : Commands
  | "docker" :: "ps" :: _ => .ok ⟨⟨some 0, none⟩, ""⟩
  | "docker" :: "run" :: _ => .ok ⟨⟨some 0, none⟩, output⟩
  | _ => .ok ⟨⟨some 0, none⟩, "172.17.0.2\n"⟩

/-- `docker run` prints an identifier, and lines to its standard error. -/
def dockerRun (stderr : List String) : LogSource → Reader
  | .stdout => ⟨["0123456789abcdef"], false⟩
  | .stderr => ⟨stderr, false⟩

/-- Everything is there at once. -/
def alwaysReady : Readiness := fun _ _ => true

/-- An id is one word. -/
theorem isWord_containerId : IsWord "0123456789abcdef" where
  nonempty := by decide
  visible := by
    have hall : "0123456789abcdef".toList.all (fun c => !isWhitespace c) = true := by decide
    intro c hc
    simpa using List.all_eq_true.mp hall c hc

/-- The image is there, and docker has nothing to say of it. -/
theorem quiet_recordsContainer :
    RecordsContainer "0123456789abcdef" (showing "0123456789abcdef\n") 1 webService
      (runCommand "web" "httpd" ∅ [] []) :=
  (recordsContainer_iff (showing "0123456789abcdef\n") 1 webService "httpd" ∅ [] [] rfl
    (by decide +kernel) ⟨⟨some 0, none⟩, "0123456789abcdef\n"⟩ rfl rfl "0123456789abcdef"
    isWord_containerId 7 (dockerRun []) rfl [alwaysReady, alwaysReady, alwaysReady]
    (by decide +kernel)).mpr (fun line hline => by cases hline)

/-- The image has to be pulled first, and the message of it is taken for the identifier. -/
theorem pull_not_recordsContainer :
    ¬ ∀ (run : Commands) (id : Nat) (config : ServiceConfig) (image : String)
      (env : HashMap String String) (ports : List UInt16) (volumes : List String),
      config.target = .docker image env ports volumes →
      runCommand config.name image env ports volumes ∈ (starting id config).asked run →
      ∀ result : ExitResult, run (runCommand config.name image env ports volumes) = .ok result →
      result.success = true → ∀ containerId : String, IsWord containerId →
      ∀ (childId : UInt32) (readers : LogSource → Reader),
      (readers .stdout).lines = [containerId] → ∀ polls : List Readiness,
      collect (launched "local_process" noOpFilter childId readers) "" polls =
        some result.output →
      RecordsContainer containerId run id config
        (runCommand config.name image env ports volumes) := by
  intro h
  have hreached : runCommand "web" "httpd" ∅ [] [] ∈ (starting 1 webService).asked
      (showing "0123456789abcdef\nUnable to find image 'httpd:latest' locally\n") := by
    decide +kernel
  have hrecords := h _ 1 webService "httpd" ∅ [] [] rfl hreached
    ⟨⟨some 0, none⟩, "0123456789abcdef\nUnable to find image 'httpd:latest' locally\n"⟩ rfl rfl
    "0123456789abcdef" isWord_containerId 7
    (dockerRun ["Unable to find image 'httpd:latest' locally"]) rfl
    [alwaysReady, alwaysReady, alwaysReady, alwaysReady] (by decide +kernel)
  have htrim := hrecords.trim_eq rfl hreached rfl rfl
  exact absurd htrim (by decide +kernel)

end GraphHarness.Orchestration.DockerExecutor
