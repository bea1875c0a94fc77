import GraphHarness.Harness.Session
import GraphHarness.Harness.StopDependents

/-!
# `harness stop` against the daemon

`stop::run` as a dialogue, like `start::run`.

> `stop_refines`: whatever answers the requests, such a dialogue is a run of `stop::run`.

The command first asks for the list and then for one stop after the other, so its dialogue has
the list as its first question and the plan follows from the answer. As in
`Harness.StartSession`, the waits are dialogues of their own and a daemon by name is made from
the record.

An error, or an answer that is no list, ends the command with its first question, and so does
a user who does not confirm. A run that comes to its loop ends as `concluded`.
-/

namespace GraphHarness.StopSession

open Handlers (Rendering)
open Orchestration (ServiceManager)
open Protocol (Answer Request)
open Relation (TransGen)
open ServiceRegistry (RegistryBackend)
open Session (Lossy Turn send)
open Stop (AsksStatus Control Daemon Event Run handleAnswer plan stopAll stopOne)
open Trace (Dialogue)

/-- The wait for a service to stop. -/
def waitForStop (late : Nat → Nat) (name : String) (timeout : Nat) :
    Nat → Nat → Dialogue Request Answer (List Event)
  | 0, _ => .ended []
  | rounds + 1, k =>
    if (500 * k + late k) / 1000 > timeout then .ended []
    else
      .ask (.getServiceStatus name) fun answer =>
        let event : Event := (.getServiceStatus name, answer)
        match answer with
        | .ok (.serviceStatus .stopped) => .ended [event]
        | .ok (.serviceStatus _) => (waitForStop late name timeout rounds (k + 1)).map (event :: ·)
        | _ => .ended [event]

/-- The wait after a stop, which there is only with a timeout. -/
def stopWait (late : Nat → Nat) (name : String) (timeout : Option UInt64) :
    Answer → Dialogue Request Answer (List Event)
  | .ok .success =>
    match timeout with
    | some timeout => waitForStop late name timeout.toNat (2 * timeout.toNat + 3) 0
    | none => .ended []
  | _ => .ended []

section Loop

variable (late : String → Nat → Nat) (cfg : Config) (force : Bool) (timeout : Option UInt64)

/-- One round of the loop. -/
def stopOneOver (name : String) (failures : List (String × String)) :
    Dialogue Request Answer (List Event × List (String × String) × Control) :=
  if name ∈ cfg.services then
    .ask (.stopService name) fun answer =>
      (stopWait (late name) name timeout answer).map fun wait =>
        ((.stopService name, answer) :: wait, handleAnswer force failures name answer)
  else .ended ([], failures, .next)

/-- The loop, over a session. -/
def stopAllOver : List String → List (String × String) →
    Dialogue Request Answer (List Event × List (String × String))
  | [], failures => .ended ([], failures)
  | name :: names, failures =>
    (stopOneOver late cfg force timeout name failures).bind fun
      | (events, failures, .next) =>
        (stopAllOver names failures).map fun later => (events ++ later.1, later.2)
      | (events, failures, .stop) => .ended (events, failures)

/-- What the loop over the planned services comes to. -/
def concluded (list : Answer) (ordered : List String)
    (ended : List Event × List (String × String)) : Run where
  events := (.listServices, list) :: ended.1
  report := some (Stop.summarize ordered ended.2)
  result :=
    if ended.2 = [] then .ok ()
    else .error (Nat.repr ended.2.length ++ " services failed to stop")

/-- `stop::run`. -/
def run (ordAffected ordStop : HashOrder) (services : List String)
    (input : Except String String) : Dialogue Request Answer (Option Run) :=
  .ask .listServices fun list =>
    match plan ordAffected ordStop list cfg services force input with
    | none => .ended none
    | some (.error message) => .ended (some ⟨[(.listServices, list)], none, .error message⟩)
    | some (.ok none) => .ended (some ⟨[(.listServices, list)], none, .ok ()⟩)
    | some (.ok (some ordered)) =>
      (stopAllOver late cfg force timeout ordered []).map fun ended =>
        some (concluded list ordered ended)

end Loop

/-! ## A dialogue is a run -/

section Refinement

variable {σ : Type} (world : σ → Request → σ × Answer)

/-- A wait over a session is one with the answers the session gives. -/
theorem waitForStop_run (late : Nat → Nat) (name : String) (timeout : Nat) :
    ∀ (rounds k : Nat) (s : σ), ∃ answers : Nat → Answer,
      ∀ status : Nat → Nat × Answer, (∀ j, k ≤ j → status j = (late j, answers j)) →
        Stop.waitForStop status name timeout rounds k =
          ((waitForStop late name timeout rounds k).exec world s).2 := by
  intro rounds
  induction rounds with
  | zero =>
    intro k s
    exact ⟨fun _ => .error "", fun status _ => rfl⟩
  | succ rounds ih =>
    intro k s
    cases hasked : world s (.getServiceStatus name) with
    | mk s' answer =>
      obtain ⟨answers, hanswers⟩ := ih (k + 1) s'
      refine ⟨Function.update answers k answer, ?_⟩
      intro status hstatus
      have hk := hstatus k (Nat.le_refl k)
      rw [Function.update_self] at hk
      have hlater : ∀ j, k + 1 ≤ j → status j = (late j, answers j) := by
        intro j hj
        rw [hstatus j (Nat.le_of_succ_le hj), Function.update_of_ne (by omega)]
      have hrest : ∀ event : Event,
          event :: Stop.waitForStop status name timeout rounds (k + 1) =
            (((waitForStop late name timeout rounds (k + 1)).map (event :: ·)).exec world s').2 := by
        intro event
        rw [Dialogue.exec_map, hanswers status hlater]
      rw [Stop.waitForStop, waitForStop, hk]
      dsimp only
      split
      next => rfl
      next =>
        rw [Dialogue.exec, hasked]
        cases answer with
        | error e => rfl
        | ok response =>
          cases response with
          | serviceStatus status =>
            cases status with
            | stopped => rfl
            | starting => exact hrest _
            | running => exact hrest _
            | unhealthy => exact hrest _
            | failed message => exact hrest _
          | _ => rfl

/-- So is a wait that there may be none of. -/
theorem stopWait_run (late : String → Nat → Nat) (name : String) (timeout : Option UInt64)
    (answer : Answer) (s : σ) : ∃ answers : Nat → Answer, ∀ daemon : Daemon,
      (∀ k, daemon.status name k = (late name k, answers k)) →
        Stop.stopWait daemon name timeout answer =
          ((stopWait (late name) name timeout answer).exec world s).2 := by
  cases answer with
  | error e => exact ⟨fun _ => .error "", fun daemon _ => rfl⟩
  | ok response =>
    cases response with
    | success =>
      cases timeout with
      | none => exact ⟨fun _ => .error "", fun daemon _ => rfl⟩
      | some timeout =>
        obtain ⟨answers, hanswers⟩ := waitForStop_run world (late name) name timeout.toNat
          (2 * timeout.toNat + 3) 0 s
        exact ⟨answers, fun daemon h => hanswers _ fun j _ => h j⟩
    | _ => exact ⟨fun _ => .error "", fun daemon _ => rfl⟩

variable (late : String → Nat → Nat) (cfg : Config) (force : Bool) (timeout : Option UInt64)

/-- The answers of a round. -/
theorem stopOneOver_run (name : String) (failures : List (String × String)) (s : σ) :
    ∃ (answer : Answer) (answers : Nat → Answer), ∀ daemon : Daemon, daemon.stop name = answer →
      (∀ k, daemon.status name k = (late name k, answers k)) →
        stopOne daemon cfg force timeout name failures =
          ((stopOneOver late cfg force timeout name failures).exec world s).2 := by
  unfold stopOneOver stopOne
  by_cases hname : name ∈ cfg.services
  · rw [if_pos hname]
    cases hasked : world s (.stopService name) with
    | mk s' answer =>
      obtain ⟨answers, hanswers⟩ := stopWait_run world late name timeout answer s'
      refine ⟨answer, answers, ?_⟩
      intro daemon hstop hstatus
      rw [if_pos hname, Dialogue.exec, hasked, Dialogue.exec_map, hstop]
      dsimp only
      rw [hanswers daemon hstatus]
  · rw [if_neg hname]
    exact ⟨.error "", fun _ => .error "", fun daemon _ _ => if_neg hname⟩

/-- A round depends on the daemon only at its service. -/
theorem stopOne_congr {daemon daemon' : Daemon} {name : String}
    (hstop : daemon.stop name = daemon'.stop name)
    (hstatus : daemon.status name = daemon'.status name) (failures : List (String × String)) :
    stopOne daemon cfg force timeout name failures =
      stopOne daemon' cfg force timeout name failures := by
  unfold stopOne Stop.stopWait
  rw [hstop, hstatus]

/-- The loop depends on the daemon only at the services it stops. -/
theorem stopAll_congr {daemon daemon' : Daemon} : ∀ {names : List String}
    {failures : List (String × String)},
    (∀ name ∈ names, daemon.stop name = daemon'.stop name ∧
      daemon.status name = daemon'.status name) →
    stopAll daemon cfg force timeout names failures =
      stopAll daemon' cfg force timeout names failures := by
  intro names
  induction names with
  | nil => intro failures _; rfl
  | cons name names ih =>
    intro failures h
    obtain ⟨⟨hstop, hstatus⟩, hnames⟩ := List.forall_mem_cons.mp h
    rw [stopAll, stopAll, stopOne_congr cfg force timeout hstop hstatus]
    simp only [ih hnames]

/-- Whatever answers it, a dialogue over services of distinct names is a run. -/
theorem stopAllOver_run : ∀ {names : List String} (failures : List (String × String)) (s : σ),
    names.Nodup → ∀ list : Answer, ∃ daemon : Daemon, daemon.list = list ∧
      stopAll daemon cfg force timeout names failures =
        ((stopAllOver late cfg force timeout names failures).exec world s).2 := by
  intro names
  induction names with
  | nil =>
    intro failures s _ list
    exact ⟨⟨list, fun _ => .error "", fun _ _ => (0, .error "")⟩, rfl, rfl⟩
  | cons name names ih =>
    intro failures s hnodup list
    obtain ⟨hname, hnames⟩ := List.nodup_cons.mp hnodup
    obtain ⟨answer, answers, hround⟩ :=
      stopOneOver_run world late cfg force timeout name failures s
    rw [stopAllOver, Dialogue.exec_bind]
    cases hexec : (stopOneOver late cfg force timeout name failures).exec world s with
    | mk s' ended =>
      rw [hexec] at hround
      obtain ⟨events, failures', control⟩ := ended
      obtain ⟨daemon, hlist, hrest⟩ := ih failures' s' hnames list
      let whole : Daemon :=
        { list := list
          stop := Function.update daemon.stop name answer
          status := Function.update daemon.status name fun k => (late name k, answers k) }
      have hwhole : stopOne whole cfg force timeout name failures =
          (events, failures', control) := by
        refine hround whole (Function.update_self ..) ?_
        intro k
        exact congrFun (Function.update_self name (fun k => (late name k, answers k))
          daemon.status) k
      have hlater : stopAll whole cfg force timeout names failures' =
          stopAll daemon cfg force timeout names failures' := by
        refine stopAll_congr cfg force timeout ?_
        intro other hother
        have hne : other ≠ name := fun heq => hname (heq ▸ hother)
        exact ⟨Function.update_of_ne hne .., Function.update_of_ne hne ..⟩
      refine ⟨whole, rfl, ?_⟩
      rw [stopAll, hwhole]
      cases control with
      | next =>
        dsimp only
        rw [hlater, hrest, Dialogue.exec_map]
      | stop => rfl

/-- What is planned has distinct names. -/
theorem plan_nodup (hdeps : cfg.DependenciesExist) {ordAffected ordStop : HashOrder}
    {list : Answer} {services : List String} {input : Except String String}
    {ordered : List String}
    (h : plan ordAffected ordStop list cfg services force input = some (.ok (some ordered))) :
    ordered.Nodup := by
  obtain ⟨_, _, order, _, hsort, rfl⟩ := Stop.plan_ordered h
  exact (Dependencies.reverseTopologicalSort_spec hdeps hsort).1.filter _

/-- **Whatever answers the requests, a stop is one of the runs of `stop::run`.** -/
theorem stop_refines {valid : HashOrder} (hvalid : Parser.validateConfig valid cfg = .ok ())
    (ordAffected ordStop : HashOrder) (services : List String) (input : Except String String)
    (s : σ) : ∃ daemon, Stop.run ordAffected ordStop daemon cfg services force timeout input =
      ((run late cfg force timeout ordAffected ordStop services input).exec world s).2 := by
  have hdeps := Parser.validateConfig_dependenciesExist hvalid
  unfold run
  rw [Dialogue.exec]
  cases hasked : world s .listServices with
  | mk s' list =>
    dsimp only
    let quiet : Daemon := ⟨list, fun _ => .error "", fun _ _ => (0, .error "")⟩
    cases hplan : plan ordAffected ordStop list cfg services force input with
    | none =>
      refine ⟨quiet, ?_⟩
      rw [Stop.run, hplan]
      rfl
    | some planned =>
      cases planned with
      | error message =>
        refine ⟨quiet, ?_⟩
        rw [Stop.run, hplan]
        rfl
      | ok found =>
        cases found with
        | none =>
          refine ⟨quiet, ?_⟩
          rw [Stop.run, hplan]
          rfl
        | some ordered =>
          obtain ⟨daemon, rfl, hloop⟩ := stopAllOver_run world late cfg force timeout [] s'
            (plan_nodup cfg force hdeps hplan) list
          refine ⟨daemon, ?_⟩
          rw [Stop.run, hplan]
          dsimp only
          rw [Dialogue.exec_map, hloop]
          rfl

end Refinement

end GraphHarness.StopSession
