import GraphHarness.Executor.Events

/-!
# What the executor returns (`executor.rs`, `launcher.rs`)

An executor can be given a filter for the logs, and hands every command to its launcher.
The launcher makes the stream, and makes it with a filter that drops nothing.

> `filterGoverns_iff` — the filter decides what the executor returns **exactly if it
> keeps every line that the process prints, as it is**.

The two ways to get at the output, the stream and the text that `execute` collects, are run
over the same polls; `collect_launched` says that the text is that of the events of the stream.
A filter governs neither of them, because the launcher is built with `NoOpFilter` and the
executor's own filter is handed to nobody.

The launcher is a parameter, as is the waiting for the process at the end. `KeepsAll` compares
with the lines that the process prints, not with every filter there is: a filter that would
drop a line which is never printed is obeyed as well as any other.
-/

namespace GraphHarness.Executor

open Trace ProcessEventStream

variable {χ ω : Type}

/-- `Launcher::launch` of a launcher whose processes have readers for pipes. -/
abbrev Launcher (χ : Type) :=
  Target → Command χ → Except String (ProcessEventStream Reader × LocalProcessHandle Reader χ)

/-- `output.push_str(data); output.push('\n')`, for an event with data. -/
def pushEvent (output : String) (event : ProcessEvent) : String :=
  match event.data with
  | some data => output ++ data ++ "\n"
  | none => output

/-- The loop `while let Some(event) = events.next().await` with the polls it makes, or
`none` where they have not come to the end. -/
def collect : ProcessEventStream Reader → String → List Readiness → Option String
  | _, _, [] => none
  | events, output, ready :: polls =>
    match events.pollNext ready with
    | (events, .ready (some event)) => collect events (pushEvent output event) polls
    | (_, .ready none) => some output
    | (events, .pending) => collect events output polls

/-- `Launcher::execute`: how the process has ended, which `wait` tells, and its output. -/
def Launcher.execute (launcher : Launcher χ)
    (wait : LocalProcessHandle Reader χ → Except String ω) (target : Target)
    (command : Command χ) (polls : List Readiness) : Except String (Option (ω × String)) :=
  match launcher target command with
  | .error e => .error e
  | .ok (events, handle) =>
    match collect events "" polls with
    | none => .ok none
    | some output =>
      match wait handle with
      | .error e => .error e
      | .ok status => .ok (some (status, output))

/-- `Executor`. -/
structure CommandExecutor (χ : Type) where
  serviceName : String
  launcher : Launcher χ
  logFilter : Option LogFilter

namespace CommandExecutor

/-- `Executor::new`. -/
def new (serviceName : String) (launcher : Launcher χ) : CommandExecutor χ where
  serviceName := serviceName
  launcher := launcher
  logFilter := none

/-- `with_log_filter`. -/
def withLogFilter (executor : CommandExecutor χ) (filter : LogFilter) : CommandExecutor χ :=
  { executor with logFilter := some filter }

/-- `Executor::launch`. The filter of the executor is not passed on. -/
def launch (executor : CommandExecutor χ) (target : Target) (command : Command χ) :
    Except String (ProcessEventStream Reader × LocalProcessHandle Reader χ) :=
  executor.launcher target command

/-- `Executor::execute`. The filter of the executor is not passed on. -/
def execute (executor : CommandExecutor χ)
    (wait : LocalProcessHandle Reader χ → Except String ω) (target : Target)
    (command : Command χ) (polls : List Readiness) : Except String (Option (ω × String)) :=
  executor.launcher.execute wait target command polls

end CommandExecutor

/-! ## The output -/

/-- The loop ends with the stream, with what the stream has yielded. -/
theorem collect_some : ∀ {polls : List Readiness} {stream : ProcessEventStream Reader}
    {output result : String}, collect stream output polls = some result →
    ∃ before ready, ((after pollNext stream before).pollNext ready).2 = .ready none ∧
      result = (streamed stream before).foldl pushEvent output := by
  intro polls
  induction polls with
  | nil =>
    intro stream output result h
    cases h
  | cons first polls ih =>
    intro stream output result h
    rw [collect] at h
    cases hpoll : stream.pollNext first with
    | mk stream' poll =>
      rw [hpoll] at h
      have hstreamed : ∀ before, streamed stream (first :: before) =
          poll.events ++ streamed stream' before := by
        intro before
        rw [streamed, history, hpoll]
        rfl
      have hafter : ∀ before, after pollNext stream (first :: before) =
          after pollNext stream' before := by
        intro before
        rw [after, hpoll]
      cases poll with
      | pending =>
        obtain ⟨before, ready, hnone, rfl⟩ := ih h
        exact ⟨first :: before, ready, by rw [hafter, hnone], by rw [hstreamed]; rfl⟩
      | ready value =>
        cases value with
        | some event =>
          obtain ⟨before, ready, hnone, rfl⟩ := ih h
          exact ⟨first :: before, ready, by rw [hafter, hnone], by rw [hstreamed]; rfl⟩
        | none =>
          cases h
          exact ⟨[], first, by rw [after, hpoll], rfl⟩

/-- What is executed is what was launched, read to its end. -/
theorem execute_ok {launcher : Launcher χ}
    {wait : LocalProcessHandle Reader χ → Except String ω} {target : Target}
    {command : Command χ} {polls : List Readiness} {result : ω × String}
    (h : launcher.execute wait target command polls = .ok (some result)) :
    ∃ events handle, launcher target command = .ok (events, handle) ∧
      collect events "" polls = some result.2 := by
  unfold Launcher.execute at h
  cases hlaunch : launcher target command with
  | error e =>
    rw [hlaunch] at h
    cases h
  | ok launched =>
    obtain ⟨events, handle⟩ := launched
    rw [hlaunch] at h
    cases hcollect : collect events "" polls with
    | none => simp [hcollect] at h
    | some output =>
      cases hwait : wait handle with
      | error e => simp [hcollect, hwait] at h
      | ok status =>
        obtain rfl : (status, output) = result := by simpa [hcollect, hwait] using h
        exact ⟨events, handle, rfl, hcollect⟩

/-- The output of a process holds its lines, as they were read. -/
theorem collect_launched {serviceName : String} {filter : LogFilter} {childId : UInt32}
    {readers : LogSource → Reader} {polls : List Readiness} {output : String}
    (h : collect (launched serviceName filter childId readers) "" polls = some output) :
    ∃ events, Interleaves filter (fun source => (readers source).lines) events ∧
      output = events.foldl pushEvent "" := by
  obtain ⟨before, ready, hnone, houtput⟩ := collect_some h
  obtain ⟨events, hstreamed, hinterleaves⟩ :=
    streamed_of_ready_none serviceName filter childId readers hnone
  refine ⟨events, hinterleaves, ?_⟩
  rw [houtput, hstreamed]
  rfl

/-- With polls enough the loop ends. -/
theorem exists_collect (serviceName : String) (filter : LogFilter) (childId : UInt32)
    (readers : LogSource → Reader) : ∃ before ready,
      ((after pollNext (launched serviceName filter childId readers) before).pollNext ready).2 =
        .ready none := by
  obtain ⟨n, hnone⟩ := launched_exists_ready_none serviceName filter childId readers
    (fun _ _ _ => true) (fun n _ => ⟨n, Nat.le_refl n, rfl⟩)
  exact ⟨_, _, hnone⟩

/-! ## The filter -/

/-- A filter keeps the lines exactly if it keeps each of them as it is. -/
theorem filterMap_eq_self_iff {α : Type} {f : α → Option α} : ∀ {xs : List α},
    xs.filterMap f = xs ↔ ∀ x ∈ xs, f x = some x := by
  intro xs
  induction xs with
  | nil => simp
  | cons x xs ih =>
    rw [List.forall_mem_cons]
    cases hfx : f x with
    | none =>
      rw [List.filterMap_cons_none hfx]
      constructor
      · intro h
        -- the list would have become longer
        have hlength := List.length_filterMap_le f xs
        rw [h, List.length_cons] at hlength
        omega
      · rintro ⟨hkeep, _⟩
        cases hkeep
    | some y =>
      rw [List.filterMap_cons_some hfx, List.cons.injEq, ih, Option.some.injEq]

/-- The stream of a launch and the output of an execution consist of the lines that the
filter leaves of those that are printed. -/
structure FilterGoverns (executor : CommandExecutor χ) (filter : LogFilter) (target : Target)
    (command : Command χ) (lines : LogSource → List String) : Prop where
  launch : ∀ events handle, executor.launch target command = .ok (events, handle) →
    ∀ polls ready, ((after pollNext events polls).pollNext ready).2 = .ready none →
      ∃ pid outputs, streamed events polls = .new (.started pid) :: outputs ∧
        Interleaves filter lines outputs
  execute : ∀ (ω : Type) (wait : LocalProcessHandle Reader χ → Except String ω) polls result,
    executor.execute wait target command polls = .ok (some result) →
    ∃ outputs, Interleaves filter lines outputs ∧ result.2 = outputs.foldl pushEvent ""

/-- Every line is kept, and nothing is cut off it. -/
def KeepsAll (filter : LogFilter) (lines : LogSource → List String) : Prop :=
  ∀ source, ∀ line ∈ lines source, filter line source = some line

/-- A filter that keeps all lines yields what no filter yields. -/
theorem KeepsAll.interleaves {filter : LogFilter} {lines : LogSource → List String}
    (h : KeepsAll filter lines) {events : List ProcessEvent}
    (hevents : Interleaves noOpFilter lines events) : Interleaves filter lines events := by
  refine ⟨hevents.outputs, ?_⟩
  intro source
  rw [hevents.lines source, filterMap_eq_self_iff.mpr (h source)]
  exact List.filterMap_some

/-- A filter that yields what no filter yields keeps all lines. -/
theorem keepsAll_of_interleaves {filter : LogFilter} {lines : LogSource → List String}
    {events : List ProcessEvent} (hevents : Interleaves noOpFilter lines events)
    (h : Interleaves filter lines events) : KeepsAll filter lines := by
  intro source
  rw [← filterMap_eq_self_iff, ← h.lines source, hevents.lines source]
  exact List.filterMap_some

/-- A process that prints the lines, where it is launched with pipes. -/
def Prints (spawn : AsyncCommand → Except String (Child Reader)) (readers : LogSource → Reader) :
    Prop :=
  ∀ asyncCmd child, asyncCmd.stdout = .piped → asyncCmd.stderr = .piped →
    spawn asyncCmd = .ok child →
    child.stdout = some (readers .stdout) ∧ child.stderr = some (readers .stderr)

/-- The stream that the local launcher makes drops nothing. -/
theorem launch_launched {spawn : AsyncCommand → Except String (Child Reader)}
    {readers : LogSource → Reader} (hprints : Prints spawn readers) {target : Target}
    {command : Command χ} {events : ProcessEventStream Reader}
    {handle : LocalProcessHandle Reader χ} (h : launch spawn target command = .ok (events, handle)) :
    ∃ childId, events = launched "local_process" noOpFilter childId readers := by
  cases target with
  | command | managedProcess =>
    simp only [launch] at h
    split at h
    next child hspawn =>
      obtain ⟨rfl, _⟩ := Prod.mk.inj (Except.ok.inj h)
      obtain ⟨hstdout, hstderr⟩ := hprints _ child rfl rfl hspawn
      exact ⟨child.id, by rw [launched, hstdout, hstderr]⟩
    next => cases h
  | systemdService | systemdPortable | dockerContainer | composeService => cases h

/-- Every line is streamed, so a filter that governs keeps it. -/
theorem FilterGoverns.keepsAll {spawn : AsyncCommand → Except String (Child Reader)}
    {readers : LogSource → Reader} (hprints : Prints spawn readers) {serviceName : String}
    {filter : LogFilter} {target : Target} {command : Command χ}
    (hlaunch : ∃ launched, Executor.launch spawn target command = .ok launched)
    (h : FilterGoverns
      ((CommandExecutor.new serviceName (Executor.launch spawn)).withLogFilter filter)
      filter target command fun source => (readers source).lines) :
    KeepsAll filter fun source => (readers source).lines := by
  obtain ⟨⟨events, handle⟩, hlaunch⟩ := hlaunch
  obtain ⟨childId, rfl⟩ := launch_launched hprints hlaunch
  obtain ⟨polls, ready, hnone⟩ := exists_collect "local_process" noOpFilter childId readers
  obtain ⟨outputs, hstreamed, hprinted⟩ :=
    streamed_of_ready_none "local_process" noOpFilter childId readers hnone
  obtain ⟨pid, outputs', hstreamed', hfiltered⟩ := h.launch _ handle hlaunch polls ready hnone
  obtain ⟨_, rfl⟩ := List.cons.inj (hstreamed.symm.trans hstreamed')
  exact keepsAll_of_interleaves hprinted hfiltered

/-- For every command that the local launcher launches and all lines of its process, what
the executor returns is what the filter leaves exactly if the filter keeps all lines. -/
theorem filterGoverns_iff (spawn : AsyncCommand → Except String (Child Reader))
    (readers : LogSource → Reader) (hprints : Prints spawn readers) (serviceName : String)
    (filter : LogFilter) (target : Target) (command : Command χ)
    (hlaunch : ∃ launched, Executor.launch spawn target command = .ok launched) :
    FilterGoverns ((CommandExecutor.new serviceName (Executor.launch spawn)).withLogFilter filter)
        filter target command (fun source => (readers source).lines) ↔
      KeepsAll filter fun source => (readers source).lines := by
  constructor
  · exact fun h => h.keepsAll hprints hlaunch
  · intro hkeeps
    obtain ⟨⟨events, handle⟩, hlaunch⟩ := hlaunch
    obtain ⟨childId, rfl⟩ := launch_launched hprints hlaunch
    constructor
    · intro events' handle' hlaunch' polls ready hnone
      obtain ⟨rfl, _⟩ := Prod.mk.inj (Except.ok.inj (hlaunch.symm.trans hlaunch'))
      obtain ⟨outputs, hstreamed, hprinted⟩ :=
        streamed_of_ready_none "local_process" noOpFilter childId readers hnone
      exact ⟨childId, outputs, hstreamed, hkeeps.interleaves hprinted⟩
    · intro ω wait polls result hexecute
      obtain ⟨events', handle', hlaunch', hcollect⟩ := execute_ok hexecute
      obtain ⟨rfl, _⟩ := Prod.mk.inj (Except.ok.inj (hlaunch.symm.trans hlaunch'))
      obtain ⟨outputs, hprinted, houtput⟩ := collect_launched hcollect
      exact ⟨outputs, hkeeps.interleaves hprinted, houtput⟩

/-- A process that prints one line and ends. -/
def printing (line : String) : LogSource → Reader
  | .stdout => ⟨[line], false⟩
  | .stderr => ⟨[], false⟩

/-- A process that is started with the pipes it is configured for. -/
def spawnPrinting (line : String) (asyncCmd : AsyncCommand) : Except String (Child Reader) :=
  let pipe (stdio : Stdio) (reader : Reader) : Option Reader :=
    if stdio = .piped then some reader else none
  .ok ⟨1, pipe asyncCmd.stdin ⟨[], false⟩, pipe asyncCmd.stdout (printing line .stdout),
    pipe asyncCmd.stderr (printing line .stderr)⟩

/-- A process that prints one line. -/
theorem prints_spawnPrinting (line : String) : Prints (spawnPrinting line) (printing line) := by
  intro asyncCmd child hstdout hstderr hspawn
  obtain rfl := Except.ok.inj hspawn
  simp [hstdout, hstderr]

/-- Without the lines that are empty. -/
def dropEmpty : LogFilter := fun line _ => if line = "" then none else some line

/-- A process that prints no empty line. -/
theorem listening_filterGoverns :
    FilterGoverns
      ((CommandExecutor.new "api" (Executor.launch (spawnPrinting "listening"))).withLogFilter
        dropEmpty) dropEmpty .command (Command.new "api" : Command Nat)
      (fun source => (printing "listening" source).lines) := by
  refine (filterGoverns_iff (spawnPrinting "listening") (printing "listening")
    (prints_spawnPrinting "listening") "api" dropEmpty .command (Command.new "api")
    ⟨_, rfl⟩).mpr ?_
  intro source line hline
  cases source with
  | stdout =>
    obtain rfl := List.mem_singleton.mp hline
    rfl
  | stderr => cases hline

/-- The empty line is there, although the filter drops it. -/
theorem empty_line_not_filterGoverns :
    ¬ ∀ (spawn : AsyncCommand → Except String (Child Reader)) (readers : LogSource → Reader),
      Prints spawn readers → ∀ (serviceName : String) (filter : LogFilter) (target : Target)
        (command : Command Nat), FilterGoverns
          ((CommandExecutor.new serviceName (Executor.launch spawn)).withLogFilter filter)
          filter target command (fun source => (readers source).lines) := by
  intro h
  have hgoverns := h (spawnPrinting "") (printing "") (prints_spawnPrinting "") "api" dropEmpty
    .command (Command.new "api")
  have hkeep := hgoverns.keepsAll (prints_spawnPrinting "") ⟨_, rfl⟩ .stdout ""
    (List.mem_singleton_self "")
  cases hkeep

end GraphHarness.Executor
