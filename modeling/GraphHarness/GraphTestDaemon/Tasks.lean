import GraphHarness.Executor.Output
import GraphHarness.Orchestration.Health
import GraphHarness.Parse.Nom
import GraphHarness.Text

/-!
# The contracts task (`graph-test-daemon/src/tasks.rs`)

`DeployAll` runs hardhat and translates the events of its process, one by one, into
events of the task. The name and the address of a deployed contract are read from the
line that hardhat prints; the task keeps them in a map and counts them.

The channel has no bound and is read by nobody here, so what is sent is a list. Whether
`contracts.json` exists, how a process is started and when its readers have something is
told from outside.

The process itself outlives the arm of `DeployAll` only if it has ended by then: the arm
holds the handle as `_handle`, and a `LocalProcessHandle` that is dropped kills what it is
the handle of. How far the process has come at that moment is no matter of the code, so a
`Course` says it; what the process has ended with follows from the course by `drop`. The
lines of the readers are those that come out of the pipes up to their end, with the kill
and without.

`process_hardhat_event` asks its questions of a line in the order of the source: a compilation
first, then a deployment, then progress. `processHardhatEvent_cases` says what can come of one
event, and the statements about runs use nothing else. The words of a line are split at white
space, as `split_whitespace` does, and a name is taken as it stands.
-/

namespace GraphHarness.Executor

open Orchestration (ExitStatus)

/-- How far a process has come when its handle is dropped. -/
inductive Course where
  /-- It has ended by itself. -/
  | exited (status : ExitStatus)
  /-- It still runs, and would end like this if it were let. -/
  | running (status : ExitStatus)
  deriving DecidableEq, Repr

/-- `Drop for LocalProcessHandle`: how the process has ended. `Child::kill` sends
`SIGKILL`, which does nothing to a process that has ended already. -/
def LocalProcessHandle.drop {π χ : Type} (handle : LocalProcessHandle π χ) : Course → ExitStatus
  | .exited status => status
  | .running status => if handle.killOnDrop then ⟨none, some 9⟩ else status

/-- Every handle that the launcher makes kills its process. -/
theorem launch_killOnDrop {π χ : Type} {spawn : AsyncCommand → Except String (Child π)}
    {target : Target} {command : Command χ} {events : ProcessEventStream π}
    {handle : LocalProcessHandle π χ} (h : launch spawn target command = .ok (events, handle)) :
    handle.killOnDrop = true := by
  cases target with
  | command | managedProcess =>
    simp only [launch] at h
    split at h
    next child hspawn =>
      obtain ⟨_, rfl⟩ := Prod.mk.inj (Except.ok.inj h)
      rfl
    next => cases h
  | systemdService | systemdPortable | dockerContainer | composeService => cases h

/-- A process whose handle is dropped has exited with code 0 only if it was done before. -/
theorem LocalProcessHandle.drop_code_zero_iff {π χ : Type} {handle : LocalProcessHandle π χ}
    (h : handle.killOnDrop = true) (course : Course) :
    (handle.drop course).code = some 0 ↔ ∃ signal, course = .exited ⟨some 0, signal⟩ := by
  cases course with
  | exited status =>
    obtain ⟨code, signal⟩ := status
    simp [LocalProcessHandle.drop]
  | running status => simp [LocalProcessHandle.drop, h]

end GraphHarness.Executor

namespace GraphHarness.GraphTestDaemon

open Executor ProcessEventStream
open Orchestration (ExitStatus)

/-- `GraphContractsTask`. -/
structure GraphContractsTask where
  ethereumUrl : String
  workingDir : String
  deriving DecidableEq, Repr

/-- `GraphContractsAction`. -/
inductive GraphContractsAction where
  | deployAll
  | deployContract (name : String)
  | verifyDeployment
  deriving DecidableEq, Repr

/-- `GraphContractsEvent`. -/
inductive GraphContractsEvent where
  | deploymentStarted (totalContracts : Nat)
  | contractCompiling (name : String)
  | contractDeployed (name address : String)
  | deploymentProgress (completed total : Nat)
  | deploymentCompleted (addresses : HashMap String String)
  | verificationResult (success : Bool) (message : String)
  | error (message : String)
  deriving DecidableEq

/-- What `process_hardhat_event` is given to change. -/
structure Bookkeeping where
  deployedContracts : HashMap String String
  completed : Nat
  deriving DecidableEq

/-- No contract yet. -/
def Bookkeeping.empty : Bookkeeping := ⟨∅, 0⟩

/-- The first ten characters of what is found are `contracts/`: they have no dot. -/
def extractContractName (line : String) : String :=
  match Nom.find "contracts/".toList line.toList with
  | some (_, found) =>
    match Nom.find ".sol".toList found with
    | some (path, _) => String.ofList (path.drop 10)
    | none => line
  | none => line

/-- The first word and the fourth, wherever in the line `deployed at` is. -/
def extractDeploymentInfo (line : String) : Option (String × String) :=
  if contains line "deployed at" then
    match splitWhitespace line with
    | name :: _ :: _ :: address :: _ => some (name, address)
    | _ => none
  else none

/-- A line that tells of a contract being compiled. -/
def isCompilation (line : String) : Bool := contains line "Compiling" && contains line ".sol"

/-- A line that tells of a deployment under way. -/
def isProgress (line : String) : Bool := contains line "deploying" || contains line "Deploying"

/-- A line with `Error` or `error` anywhere in it. -/
def mentionsError (line : String) : Bool := contains line "Error" || contains line "error"

/-- `process_hardhat_event`: the event it returns, and the map and the counter after it. -/
def processHardhatEvent (event : ProcessEvent) (books : Bookkeeping) :
    Option GraphContractsEvent × Bookkeeping :=
  match event.eventType with
  | .stdout =>
    match event.data with
    | some data =>
      if isCompilation data then (some (.contractCompiling (extractContractName data)), books)
      else
        match extractDeploymentInfo data with
        | some (name, address) =>
          (some (.contractDeployed name address),
            ⟨books.deployedContracts.insert name address, books.completed + 1⟩)
        | none =>
          if isProgress data then (some (.deploymentProgress books.completed 12), books)
          else (none, books)
    | none => (none, books)
  | .stderr =>
    match event.data with
    | some data => if mentionsError data then (some (.error data), books) else (none, books)
    | none => (none, books)
  | .exited code _ =>
    match code with
    | some code =>
      if code ≠ 0 then
        (some (.error ("Deployment failed with exit code " ++ toString code)), books)
      else (none, books)
    | none => (none, books)
  | .started _ => (none, books)

/-- A finite sequence of events: what is returned for them, and what the last leaves. -/
def processAll : List ProcessEvent → Bookkeeping → List GraphContractsEvent × Bookkeeping
  | [], books => ([], books)
  | event :: events, books =>
    let (translated, books) := processHardhatEvent event books
    let (later, books) := processAll events books
    (translated.toList ++ later, books)

/-- The loop over the events of the process, with the polls it makes, and the event
behind the loop. -/
def forward : ProcessEventStream Reader → Bookkeeping → List Readiness → List GraphContractsEvent
  | _, _, [] => []
  | events, books, ready :: polls =>
    match events.pollNext ready with
    | (events, .ready (some event)) =>
      let (translated, books) := processHardhatEvent event books
      translated.toList ++ forward events books polls
    | (_, .ready none) => [.deploymentCompleted books.deployedContracts]
    | (events, .pending) => forward events books polls

namespace GraphContractsTask

/-- The command that deploys. -/
def hardhat (task : GraphContractsTask) : Command Unit :=
  (((Command.new "npx").addArgs ["hardhat", "deploy", "--network", "localhost"]).setCurrentDir
    task.workingDir).setEnv "ETHEREUM_URL" task.ethereumUrl

/-- `execute`, with what is sent by the polls of the detached loop, and how the process
has ended, if one was started. `_handle` goes out of scope at the end of the arm, with the
loop only just begun; nobody looks at the status that is left. -/
def execute (task : GraphContractsTask) (spawn : AsyncCommand → Except String (Child Reader))
    (course : Course) (contractsFileExists : Bool) (polls : List Readiness) :
    GraphContractsAction → Except String (List GraphContractsEvent × Option ExitStatus)
  | .deployAll =>
    match launch spawn .command task.hardhat with
    | .error reason =>
      .error ("Failed to launch hardhat: failed to spawn process: " ++ reason)
    | .ok (events, _handle) =>
      .ok (.deploymentStarted 12 :: forward events .empty polls, some (_handle.drop course))
  | .deployContract _ => .ok ([.error "Single contract deployment not yet implemented"], none)
  | .verifyDeployment =>
    if contractsFileExists then
      .ok ([.verificationResult true "Contracts deployed successfully"], none)
    else .ok ([.verificationResult false "No contracts.json found"], none)

end GraphContractsTask

/-! ## What one event does -/

/-- The contract that the line of an event says was deployed. -/
def deployment (event : ProcessEvent) : Option (String × String) :=
  match event.eventType with
  | .stdout => event.data.bind fun line =>
      if isCompilation line then none else extractDeploymentInfo line
  | _ => none

/-- The map and the counter change with a deployment, and only with one. -/
theorem processHardhatEvent_cases (event : ProcessEvent) (books : Bookkeeping) :
    (∃ name address, deployment event = some (name, address) ∧
      processHardhatEvent event books = (some (.contractDeployed name address),
        ⟨books.deployedContracts.insert name address, books.completed + 1⟩)) ∨
    (deployment event = none ∧ (processHardhatEvent event books).2 = books ∧
      ∀ sent, (processHardhatEvent event books).1 = some sent →
        (∃ name, sent = .contractCompiling name) ∨
        (∃ completed, sent = .deploymentProgress completed 12) ∨
        ∃ message, sent = .error message) := by
  obtain ⟨eventType, data⟩ := event
  cases eventType with
  | started pid => exact .inr ⟨rfl, rfl, by simp [processHardhatEvent]⟩
  | exited code signal =>
    right
    cases code with
    | none => exact ⟨rfl, rfl, by simp [processHardhatEvent]⟩
    | some code =>
      by_cases hzero : code = 0 <;> simp [processHardhatEvent, deployment, hzero]
  | stderr =>
    right
    cases data with
    | none => exact ⟨rfl, rfl, by simp [processHardhatEvent]⟩
    | some line =>
      by_cases herror : mentionsError line <;> simp [processHardhatEvent, deployment, herror]
  | stdout =>
    cases data with
    | none => exact .inr ⟨rfl, rfl, by simp [processHardhatEvent]⟩
    | some line =>
      by_cases hcompile : isCompilation line
      · right
        simp [processHardhatEvent, deployment, hcompile]
      · cases hinfo : extractDeploymentInfo line with
        | some info =>
          left
          exact ⟨info.1, info.2, by simp [deployment, hcompile, hinfo],
            by simp [processHardhatEvent, hcompile, hinfo]⟩
        | none =>
          right
          by_cases hprogress : isProgress line <;>
            simp [processHardhatEvent, deployment, hcompile, hinfo, hprogress]

/-- No event of the process is reported as a completion. -/
theorem processHardhatEvent_not_completed {event : ProcessEvent} {books : Bookkeeping}
    {addresses : HashMap String String} :
    (processHardhatEvent event books).1 ≠ some (.deploymentCompleted addresses) := by
  intro h
  rcases processHardhatEvent_cases event books with ⟨name, address, _, hevent⟩ | ⟨_, _, hkinds⟩
  · rw [hevent] at h
    cases h
  · rcases hkinds _ h with ⟨_, hkind⟩ | ⟨_, hkind⟩ | ⟨_, hkind⟩
    · cases hkind
    · cases hkind
    · cases hkind

/-- Which event is reported as a deployment. -/
theorem processHardhatEvent_deployed_iff {event : ProcessEvent} {books : Bookkeeping}
    {name address : String} :
    (processHardhatEvent event books).1 = some (.contractDeployed name address) ↔
      deployment event = some (name, address) := by
  rcases processHardhatEvent_cases event books with ⟨n, a, hdeployment, hevent⟩ |
    ⟨hdeployment, _, hkinds⟩
  · simp [hevent, hdeployment]
  · rw [hdeployment]
    constructor
    · intro h
      rcases hkinds _ h with ⟨_, hkind⟩ | ⟨_, hkind⟩ | ⟨_, hkind⟩
      · cases hkind
      · cases hkind
      · cases hkind
    · intro h
      cases h

/-! ## A run of events -/

/-- Two stretches of events. -/
theorem processAll_append (events events' : List ProcessEvent) (books : Bookkeeping) :
    processAll (events ++ events') books =
      ((processAll events books).1 ++ (processAll events' (processAll events books).2).1,
        (processAll events' (processAll events books).2).2) := by
  induction events generalizing books with
  | nil => rfl
  | cons event events ih => simp [processAll, ih]

end GraphHarness.GraphTestDaemon
