import GraphHarness.Harness.Session
import GraphHarness.Harness.StartDependencies

/-!
# `harness start` against the daemon

`start::run` as a dialogue: what it asks next depends on the answers so far. `late` is by
how many milliseconds the wait for a service is behind its schedule.

> `start_refines`: whatever answers the requests, such a dialogue is a run of `start::run`.

`Dialogue.exec` holds a dialogue with a world, and records what was asked and answered. From
such a record a daemon can be made that answers by name (`Start.Daemon`), because each service
is started once, and a wait for health asks for one service only; with that daemon the run of
`Harness.Start` is the same.

The sleeps between two polls are not steps of the dialogue: `late` says how much time has gone
by, and the loop stops by its time limit as in the source.
-/

namespace GraphHarness.StartSession

open Handlers (Rendering startedNetworkInfo)
open Orchestration (RunningService ServiceConfig ServiceManager)
open Protocol (Answer Request)
open Resolver (ResolutionContext)
open ServiceRegistry (RegistryBackend)
open Session (Turn send)
open Start (Control Daemon Event Report Run State handleAnswer isStarted notFound startAll
  startOne)
open Trace (Dialogue)

/-- The wait for a health check. -/
def waitForHealth (late : Nat → Nat) (name : String) (timeout : Nat) :
    Nat → Nat → Dialogue Request Answer (List Event)
  | 0, _ => .ended []
  | rounds + 1, k =>
    if 500 * k + late k > 1000 * timeout then .ended []
    else
      .ask (.getServiceStatus name) fun answer =>
        let event := Event.request (.getServiceStatus name) answer
        match answer with
        | .ok (.serviceStatus .running) => .ended [event]
        | .ok (.serviceStatus (.failed _)) => .ended [event]
        | .ok (.serviceStatus _) => (waitForHealth late name timeout rounds (k + 1)).map (event :: ·)
        | _ => .ended [event]

/-- The wait after a start; a service without a health check is not waited for. -/
def healthWait (late : Nat → Nat) (name : String) (service : Service) :
    Dialogue Request Answer (List Event) :=
  match service.healthCheck with
  | some _ =>
    let timeout := (service.startupTimeout.getD 60).toNat
    waitForHealth late name timeout (2 * timeout + 1) 0
  | none => .ended []

section Loop

variable (late : String → Nat → Nat) (processEnv : HashMap String String) (cfg : Config)

/-- One round of the loop. -/
def startOneOver (name : String) (st : State) :
    Dialogue Request Answer (List Event × State × Control) :=
  match cfg.services.lookup name with
  | none => .ended ([], st, .fail (notFound name))
  | some service =>
    let result := Parser.convertToOrchestratorWithContext processEnv cfg name
      (some st.resolutionContext)
    let converted := Event.convert name st.resolutionContext result
    match result with
    | .error e => .ended ([converted], st.addFailure name e.toString, .next)
    | .ok config =>
      .ask (.startService name config) fun answer =>
        let sent := Event.request (.startService name config) answer
        let wait := if isStarted answer then healthWait (late name) name service else .ended []
        wait.map fun wait => (converted :: sent :: wait, handleAnswer st name answer)

/-- The loop over the ordered services. -/
def startAllOver : List String → State → Dialogue Request Answer (List Event × Except String State)
  | [], st => .ended ([], .ok st)
  | name :: names, st =>
    (startOneOver late processEnv cfg name st).bind fun
      | (events, st', .next) =>
        (startAllOver names st').map fun later => (events ++ later.1, later.2)
      | (events, st', .stop) => .ended (events, .ok st')
      | (events, _, .fail message) => .ended (events, .error message)

/-- `start::run`, once the services are sorted. -/
def run (ord : HashOrder) (services : List String) : Option (Dialogue Request Answer Run) :=
  match Dependencies.topologicalSort ord (cfg.services.keys.length + 1) cfg services with
  | some (.ok ordered) =>
    some ((startAllOver late processEnv cfg ordered (Start.initialState processEnv)).map
      (Start.summarize ordered))
  | some (.error message) => some (.ended ⟨[], none, .error message⟩)
  | none => none

end Loop

/-! ## A dialogue is a run -/

section Refinement

variable {σ : Type} (world : σ → Request → σ × Answer)

/-- The answers of a wait, as a function of the number of the request. -/
theorem waitForHealth_run (late : Nat → Nat) (name : String) (timeout : Nat) :
    ∀ (rounds k : Nat) (s : σ), ∃ answers : Nat → Answer,
      ∀ status : Nat → Nat × Answer, (∀ j, k ≤ j → status j = (late j, answers j)) →
        Start.waitForHealth status name timeout rounds k =
          ((waitForHealth late name timeout rounds k).exec world s).2 := by
  intro rounds
  induction rounds with
  | zero =>
    intro k s
    exact ⟨fun _ => .error "", fun status _ => rfl⟩
  | succ rounds ih =>
    intro k s
    cases hasked : world s (.getServiceStatus name) with
    | mk s' answer =>
      obtain ⟨answers, hanswers⟩ := ih (k + 1) s'
      refine ⟨Function.update answers k answer, ?_⟩
      intro status hstatus
      have hk := hstatus k (Nat.le_refl k)
      rw [Function.update_self] at hk
      have hlater : ∀ j, k + 1 ≤ j → status j = (late j, answers j) := by
        intro j hj
        rw [hstatus j (Nat.le_of_succ_le hj), Function.update_of_ne (by omega)]
      have hrest : ∀ event : Event,
          event :: Start.waitForHealth status name timeout rounds (k + 1) =
            (((waitForHealth late name timeout rounds (k + 1)).map (event :: ·)).exec world s').2 := by
        intro event
        rw [Dialogue.exec_map, hanswers status hlater]
      rw [Start.waitForHealth, waitForHealth, hk]
      dsimp only
      split
      next => rfl
      next =>
        rw [Dialogue.exec, hasked]
        cases answer with
        | error e => rfl
        | ok response =>
          cases response with
          | serviceStatus status =>
            -- a status that is not final is followed by the rest of the wait
            cases status with
            | running => rfl
            | failed message => rfl
            | stopped => exact hrest _
            | starting => exact hrest _
            | unhealthy => exact hrest _
          | _ => rfl

/-- A wait over a session is one with the answers the session gives. -/
theorem healthWait_run (late : String → Nat → Nat) (name : String) (service : Service)
    (answer : Answer) (s : σ) : ∃ answers : Nat → Answer, ∀ daemon : Daemon,
      (∀ k, daemon.status name k = (late name k, answers k)) →
        (if isStarted answer then Start.healthWait daemon name service else []) =
          ((if isStarted answer then healthWait (late name) name service
            else .ended []).exec world s).2 := by
  cases isStarted answer with
  | false => exact ⟨fun _ => .error "", fun daemon _ => rfl⟩
  | true =>
    unfold Start.healthWait healthWait
    cases service.healthCheck with
    | none => exact ⟨fun _ => .error "", fun daemon _ => rfl⟩
    | some _ =>
      obtain ⟨answers, hanswers⟩ := waitForHealth_run world (late name) name
        (service.startupTimeout.getD 60).toNat (2 * (service.startupTimeout.getD 60).toNat + 1) 0 s
      exact ⟨answers, fun daemon h => hanswers _ fun j _ => h j⟩

/-- The answers of a round. -/
theorem startOneOver_run (late : String → Nat → Nat) (processEnv : HashMap String String)
    (cfg : Config) (name : String) (st : State) (s : σ) :
    ∃ (answer : Answer) (answers : Nat → Answer), ∀ daemon : Daemon, daemon.start name = answer →
      (∀ k, daemon.status name k = (late name k, answers k)) →
        startOne daemon processEnv cfg name st =
          ((startOneOver late processEnv cfg name st).exec world s).2 := by
  unfold startOneOver startOne
  cases cfg.services.lookup name with
  | none => exact ⟨.error "", fun _ => .error "", fun daemon _ _ => rfl⟩
  | some service =>
    dsimp only
    cases Parser.convertToOrchestratorWithContext processEnv cfg name
        (some st.resolutionContext) with
    | error e => exact ⟨.error "", fun _ => .error "", fun daemon _ _ => rfl⟩
    | ok config =>
      cases hasked : world s (.startService name config) with
      | mk s' answer =>
        obtain ⟨answers, hanswers⟩ := healthWait_run world late name service answer s'
        refine ⟨answer, answers, ?_⟩
        intro daemon hstart hstatus
        dsimp only
        rw [Dialogue.exec, hasked, Dialogue.exec_map, hstart, hanswers daemon hstatus]

/-- A round is about the answers to one service. -/
theorem startOne_congr {daemon daemon' : Daemon} {name : String}
    (hstart : daemon.start name = daemon'.start name)
    (hstatus : daemon.status name = daemon'.status name) (processEnv : HashMap String String)
    (cfg : Config) (st : State) :
    startOne daemon processEnv cfg name st = startOne daemon' processEnv cfg name st := by
  unfold startOne Start.healthWait
  rw [hstart, hstatus]

/-- The loop depends on the daemon only at the services it starts. -/
theorem startAll_congr {daemon daemon' : Daemon} (processEnv : HashMap String String)
    (cfg : Config) : ∀ {names : List String} {st : State},
      (∀ name ∈ names, daemon.start name = daemon'.start name ∧
        daemon.status name = daemon'.status name) →
      startAll daemon processEnv cfg names st = startAll daemon' processEnv cfg names st := by
  intro names
  induction names with
  | nil => intro st _; rfl
  | cons name names ih =>
    intro st h
    obtain ⟨⟨hstart, hstatus⟩, hnames⟩ := List.forall_mem_cons.mp h
    rw [startAll, startAll, startOne_congr hstart hstatus]
    simp only [ih hnames]

/-- Whatever answers it, a dialogue over services of distinct names is a run. -/
theorem startAllOver_run (late : String → Nat → Nat) (processEnv : HashMap String String)
    (cfg : Config) : ∀ {names : List String} (st : State) (s : σ), names.Nodup →
      ∃ daemon : Daemon, (∀ name k, (daemon.status name k).1 = late name k) ∧
        startAll daemon processEnv cfg names st =
          ((startAllOver late processEnv cfg names st).exec world s).2 := by
  intro names
  induction names with
  | nil =>
    intro st s _
    exact ⟨⟨fun _ => .error "", fun name k => (late name k, .error "")⟩, fun _ _ => rfl, rfl⟩
  | cons name names ih =>
    intro st s hnodup
    obtain ⟨hname, hnames⟩ := List.nodup_cons.mp hnodup
    obtain ⟨answer, answers, hround⟩ := startOneOver_run world late processEnv cfg name st s
    rw [startAllOver, Dialogue.exec_bind]
    cases hexec : (startOneOver late processEnv cfg name st).exec world s with
    | mk s' ended =>
      rw [hexec] at hround
      obtain ⟨events, st', control⟩ := ended
      obtain ⟨daemon, hlate, hrest⟩ := ih st' s' hnames
      let whole : Daemon :=
        { start := Function.update daemon.start name answer
          status := Function.update daemon.status name fun k => (late name k, answers k) }
      have hwhole : startOne whole processEnv cfg name st = (events, st', control) := by
        refine hround whole (Function.update_self ..) ?_
        intro k
        exact congrFun (Function.update_self name (fun k => (late name k, answers k))
          daemon.status) k
      have hlater : startAll whole processEnv cfg names st' =
          startAll daemon processEnv cfg names st' := by
        refine startAll_congr processEnv cfg ?_
        intro other hother
        have hne : other ≠ name := fun heq => hname (heq ▸ hother)
        exact ⟨Function.update_of_ne hne .., Function.update_of_ne hne ..⟩
      refine ⟨whole, ?_, ?_⟩
      · intro other k
        by_cases hother : other = name
        · subst hother
          exact congrArg Prod.fst (congrFun (Function.update_self other
            (fun k => (late other k, answers k)) daemon.status) k)
        · exact (congrArg Prod.fst (congrFun (Function.update_of_ne hother
            (fun k => (late name k, answers k)) daemon.status) k)).trans (hlate other k)
      · rw [startAll, hwhole]
        cases control with
        | next =>
          dsimp only
          rw [hlater, hrest, Dialogue.exec_map]
        | stop => rfl
        | fail message => rfl

/-- **Whatever answers the requests, a start is one of the runs of `start::run`**, so that
what is proved of those for every daemon holds of it. -/
theorem start_refines {valid : HashOrder} {cfg : Config}
    (hvalid : Parser.validateConfig valid cfg = .ok ()) (late : String → Nat → Nat)
    (processEnv : HashMap String String) (ord : HashOrder) (services : List String) (s : σ) :
    ∃ dialogue daemon, run late processEnv cfg ord services = some dialogue ∧
      Start.run ord daemon processEnv cfg services = some (dialogue.exec world s).2 := by
  have hdeps := Parser.validateConfig_dependenciesExist hvalid
  obtain ⟨sorted, hsorted⟩ :=
    Dependencies.topologicalSort_total hdeps ord (Nat.lt_succ_self _) services
  unfold run Start.run
  rw [hsorted]
  cases sorted with
  | ok ordered =>
    obtain ⟨daemon, _, hrun⟩ := startAllOver_run world late processEnv cfg
      (Start.initialState processEnv) s (Dependencies.topologicalSort_nodup hdeps hsorted)
    refine ⟨_, daemon, rfl, ?_⟩
    rw [Dialogue.exec_map, ← hrun]
  | error message => exact ⟨_, ⟨fun _ => .error "", fun _ _ => (0, .error "")⟩, rfl, rfl⟩

end Refinement

end GraphHarness.StartSession
