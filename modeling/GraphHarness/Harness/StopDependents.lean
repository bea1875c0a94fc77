import GraphHarness.Harness.Stop

/-!
# What still stands on a stopped service

A run of `harness stop` without `--force` goes through the running services, dependents
first, and an error ends the loop. An answer of an unexpected kind does not, and the loop
then stops services that the unstopped one depends on.

> `run_afterDependents_iff`: every `StopService` of a run follows a `Success` for each
> running dependent exactly if no service that the loop comes to has a running dependent
> with an answer of an unexpected kind.

The invariant is `Passed`: behind the current position nothing was answered by an error.

A dependent counts if the list that the daemon was asked for at the beginning shows it as
running (`Listed`); one that starts in the meantime is not known to the command. The order of
the loop has dependents first (`dependents_before`), so at each service the events behind it
hold its dependents.

The condition `NoneUnexpected` speaks of the services that the loop comes to, which is up to
the first one that the daemon answers with an error.
-/

namespace GraphHarness.Stop

open Protocol (Request Response Answer)
open Relation (TransGen)
open Trace (EachAfter)

/-- The service is running, according to the list. -/
def Listed (daemon : Daemon) (t : String) : Prop :=
  ∃ serviceStatus, daemon.list = .ok (.serviceList serviceStatus) ∧
    t ∈ runningServices serviceStatus

/-- A request to stop a service comes after a `Success` for each running service that
depends on it, directly or not. -/
def AfterDependents (cfg : Config) (daemon : Daemon) (past : List Event) (e : Event) : Prop :=
  ∀ s answer, e = (.stopService s, answer) → ∀ t, TransGen cfg.DependsOn t s → Listed daemon t →
    (.stopService t, .ok .success) ∈ past

/-- No service that the loop comes to, having met no error before, has a running
dependent with an answer of an unexpected kind. -/
def NoneUnexpected (cfg : Config) (daemon : Daemon) (ordered : List String) : Prop :=
  ∀ pre s post, ordered = pre ++ s :: post → s ∈ cfg.services →
    (∀ x ∈ pre, x ∈ cfg.services → isFailure (daemon.stop x) = false) →
    ∀ t, TransGen cfg.DependsOn t s → Listed daemon t → isUnexpected (daemon.stop t) = false

/-! ## One round -/

/-- An answer that is neither is a success. -/
theorem isUnexpected_eq_false_iff {answer : Answer} (h : isFailure answer = false) :
    isUnexpected answer = false ↔ answer = .ok .success := by
  cases answer with
  | error e => cases h
  | ok response =>
    cases response with
    | error message => cases h
    | success => simp [isUnexpected]
    | _ => simp [isUnexpected]

/-- The first of the services apart. -/
theorem noneUnexpected_cons {cfg : Config} {daemon : Daemon} {name : String} {names : List String} :
    NoneUnexpected cfg daemon (name :: names) ↔
      (name ∈ cfg.services → ∀ t, TransGen cfg.DependsOn t name → Listed daemon t →
        isUnexpected (daemon.stop t) = false) ∧
      ((name ∈ cfg.services → isFailure (daemon.stop name) = false) →
        NoneUnexpected cfg daemon names) := by
  constructor
  · intro h
    refine ⟨fun hname => h [] name names rfl hname (by simp), ?_⟩
    intro hpassed pre s post hsplit hs hpre
    refine h (name :: pre) s post (by rw [hsplit, List.cons_append]) hs ?_
    exact List.forall_mem_cons.mpr ⟨hpassed, hpre⟩
  · rintro ⟨hhead, htail⟩ pre s post hsplit hs hpre
    cases pre with
    | nil =>
      obtain ⟨rfl, _⟩ := List.cons.inj hsplit
      exact hhead hs
    | cons first pre =>
      obtain ⟨rfl, hnames⟩ := List.cons.inj hsplit
      obtain ⟨hfirst, hpre⟩ := List.forall_mem_cons.mp hpre
      exact htail hfirst pre s post hnames hs hpre

/-- Behind the current position every service of the configuration was asked to stop, and
none was answered by an error. -/
structure Passed (cfg : Config) (daemon : Daemon) (done : List String) (past : List Event) :
    Prop where
  answered : ∀ t answer, (.stopService t, answer) ∈ past → answer = daemon.stop t
  asked : ∀ t ∈ done, t ∈ cfg.services →
    (.stopService t, daemon.stop t) ∈ past ∧ isFailure (daemon.stop t) = false

section Round

variable {cfg : Config} {daemon : Daemon} {done : List String} {past : List Event} {name : String}

/-- A service that is passed over. -/
theorem Passed.skip (h : Passed cfg daemon done past) (hname : name ∉ cfg.services) :
    Passed cfg daemon (done ++ [name]) past := by
  refine ⟨h.answered, ?_⟩
  intro t ht hcfg
  rcases List.mem_append.mp ht with ht | ht
  · exact h.asked t ht hcfg
  · exact absurd (List.mem_singleton.mp ht ▸ hcfg) hname

/-- A service that was stopped, or whose stop was answered unexpectedly. -/
theorem Passed.step (h : Passed cfg daemon done past)
    (hnot : isFailure (daemon.stop name) = false) {wait : List Event}
    (hwait : ∀ e ∈ wait, AsksStatus e) :
    Passed cfg daemon (done ++ [name])
      (past ++ (.stopService name, daemon.stop name) :: wait) := by
  constructor
  · intro t answer hmem
    rcases List.mem_append.mp hmem with hmem | hmem
    · exact h.answered t answer hmem
    · rcases List.mem_cons.mp hmem with heq | hmem
      · obtain ⟨hname, rfl⟩ := Prod.mk.inj heq
        rw [Request.stopService.inj hname]
      · obtain ⟨_, _, heq⟩ := hwait _ hmem
        cases heq
  · intro t ht hcfg
    rcases List.mem_append.mp ht with ht | ht
    · obtain ⟨hasked, hpassed⟩ := h.asked t ht hcfg
      exact ⟨List.mem_append_left _ hasked, hpassed⟩
    · obtain rfl := List.mem_singleton.mp ht
      exact ⟨List.mem_append_right _ List.mem_cons_self, hnot⟩

/-- A running dependent was stopped exactly if its answer was not unexpected. -/
theorem Passed.stopped_iff (h : Passed cfg daemon done past) {t : String} (ht : t ∈ done)
    (hcfg : t ∈ cfg.services) :
    (.stopService t, .ok .success) ∈ past ↔ isUnexpected (daemon.stop t) = false := by
  obtain ⟨hasked, hpassed⟩ := h.asked t ht hcfg
  rw [isUnexpected_eq_false_iff hpassed]
  constructor
  · intro hmem
    exact (h.answered t _ hmem).symm
  · intro hsuccess
    rwa [hsuccess] at hasked

/-- The requests of a round that is not passed over: the one to stop is subject to the
property, the others only ask for the status. -/
theorem eachAfter_stopping (h : Passed cfg daemon done past) (answer : Answer) {wait : List Event}
    (hbefore : ∀ t, TransGen cfg.DependsOn t name → Listed daemon t → t ∈ done)
    (hwait : ∀ e ∈ wait, AsksStatus e) :
    EachAfter (AfterDependents cfg daemon) past ((.stopService name, answer) :: wait) ↔
      ∀ t, TransGen cfg.DependsOn t name → Listed daemon t →
        isUnexpected (daemon.stop t) = false := by
  have hstatus : ∀ past, EachAfter (AfterDependents cfg daemon) past wait := by
    intro past
    apply Trace.eachAfter_of_forall
    intro e he past s answer' heq
    obtain ⟨_, _, rfl⟩ := hwait e he
    cases heq
  have hdependent : ∀ t, TransGen cfg.DependsOn t name → Listed daemon t →
      ((.stopService t, .ok .success) ∈ past ↔ isUnexpected (daemon.stop t) = false) := by
    intro t ht hlisted
    obtain ⟨_, hedge, _⟩ := Relation.TransGen.head'_iff.mp ht
    exact h.stopped_iff (hbefore t ht hlisted) (Dependencies.mem_services_of_dependsOn hedge)
  rw [Trace.eachAfter_cons]
  constructor
  · rintro ⟨hrequest, _⟩ t ht hlisted
    exact (hdependent t ht hlisted).mp (hrequest name answer rfl t ht hlisted)
  · intro hall
    refine ⟨?_, hstatus _⟩
    intro s answer' heq t ht hlisted
    obtain rfl := Request.stopService.inj (Prod.mk.inj heq).1
    exact (hdependent t ht hlisted).mpr (hall t ht hlisted)

end Round

/-! ## The loop -/

/-- From any point of a run without `--force`, what follows stops each service after its
running dependents exactly if none of them has an unexpected answer. -/
theorem stopAll_afterDependents_iff {cfg : Config} {daemon : Daemon} (timeout : Option UInt64) :
    ∀ (names done : List String) (past : List Event) (failures : List (String × String)),
      (∀ pre s post, done ++ names = pre ++ s :: post →
        ∀ t, TransGen cfg.DependsOn t s → Listed daemon t → t ∈ pre) →
      Passed cfg daemon done past →
      (EachAfter (AfterDependents cfg daemon) past
          (stopAll daemon cfg false timeout names failures).1 ↔
        NoneUnexpected cfg daemon names) := by
  intro names
  induction names with
  | nil =>
    intro done past failures _ _
    refine iff_of_true (Trace.eachAfter_nil _ past) ?_
    intro pre s post hsplit
    simp at hsplit
  | cons name names ih =>
    intro done past failures hord hpassed
    have hsplit : done ++ name :: names = (done ++ [name]) ++ names := by simp
    have hbefore := hord done name names rfl
    rw [noneUnexpected_cons]
    by_cases hname : name ∈ cfg.services
    · have hwait : ∀ e ∈ stopWait daemon name timeout (daemon.stop name), AsksStatus e :=
        stopWait_asksStatus
      have hround := eachAfter_stopping hpassed (daemon.stop name) hbefore hwait
      rw [stopAll_asked hname]
      dsimp only
      cases hfailure : isFailure (daemon.stop name) with
      | true =>
        -- the error ends the loop
        simp [hround, hname]
      | false =>
        rw [Bool.false_and, if_neg Bool.false_ne_true, Trace.eachAfter_append, hround,
          ih (done ++ [name]) _ _ (hsplit ▸ hord) (hpassed.step hfailure hwait)]
        simp [hname]
    · rw [stopAll_passed_over hname, ih (done ++ [name]) past failures (hsplit ▸ hord)
        (hpassed.skip hname)]
      simp [hname]

/-! ## Whole runs -/

/-- What a run is about to stop: the running services of a stop order. -/
theorem plan_ordered {ordAffected ordStop : HashOrder} {list : Answer} {cfg : Config}
    {services : List String} {force : Bool} {input : Except String String} {ordered : List String}
    (h : plan ordAffected ordStop list cfg services force input = some (.ok (some ordered))) :
    ∃ serviceStatus servicesToStop order, list = .ok (.serviceList serviceStatus) ∧
      Dependencies.reverseTopologicalSort ordStop (cfg.services.keys.length + 1) cfg
        servicesToStop = some (.ok order) ∧
      ordered = order.filter fun s => s ∈ runningServices serviceStatus := by
  have hordered : ∀ serviceStatus servicesToStop,
      (orderedServices ordStop cfg (runningServices serviceStatus) servicesToStop).map
        (·.map some) = some (.ok (some ordered)) →
      ∃ order, Dependencies.reverseTopologicalSort ordStop (cfg.services.keys.length + 1) cfg
          servicesToStop = some (.ok order) ∧
        ordered = order.filter fun s => s ∈ runningServices serviceStatus := by
    intro serviceStatus servicesToStop hmap
    unfold orderedServices at hmap
    split at hmap
    next order hsort =>
      simp only [Option.map_some, Except.map, Option.some.injEq, Except.ok.injEq] at hmap
      exact ⟨order, hsort, hmap.symm⟩
    next => simp [Except.map] at hmap
    next => simp at hmap
  unfold plan at h
  split at h
  next => cases h
  next serviceStatus =>
    dsimp only at h
    generalize servicesToStop (runningServices serviceStatus) services = toStop at h
    split at h
    next => simp at h
    next =>
      split at h
      next => cases h
      next =>
        split at h
        next =>
          split at h
          next => cases h
          next =>
            split at h
            next =>
              obtain ⟨order, hsort, hfilter⟩ := hordered _ _ h
              exact ⟨serviceStatus, _, order, rfl, hsort, hfilter⟩
            next => cases h
        next =>
          obtain ⟨order, hsort, hfilter⟩ := hordered _ _ h
          exact ⟨serviceStatus, _, order, rfl, hsort, hfilter⟩
  next => cases h
  next => cases h

/-- The running services that depend on one are planned before it. -/
theorem dependents_before {cfg : Config} (hdeps : cfg.DependenciesExist)
    {ordAffected ordStop : HashOrder} {daemon : Daemon} {services : List String} {force : Bool}
    {input : Except String String} {ordered : List String}
    (h : plan ordAffected ordStop daemon.list cfg services force input =
      some (.ok (some ordered))) {pre post : List String} {s t : String}
    (hsplit : ordered = pre ++ s :: post) (ht : TransGen cfg.DependsOn t s)
    (hlisted : Listed daemon t) : t ∈ pre := by
  obtain ⟨serviceStatus, servicesToStop, order, hlist, hsort, hfilter⟩ := plan_ordered h
  obtain ⟨serviceStatus', hlist', hrunning⟩ := hlisted
  obtain rfl := Response.serviceList.inj (Except.ok.inj (hlist'.symm.trans hlist))
  obtain ⟨before, rest, rfl, rfl, hrest⟩ := List.filter_eq_append_iff.mp (hfilter.symm.trans hsplit)
  obtain ⟨between, after, rfl, hskipped, _, _⟩ := List.filter_eq_cons_iff.mp hrest
  have hbefore := Dependencies.mem_before_of_dependent hdeps hsort ht
    (List.append_assoc before between (s :: after)).symm
  rcases List.mem_append.mp hbefore with hmem | hmem
  · exact List.mem_filter.mpr ⟨hmem, by simpa using hrunning⟩
  · exact absurd (by simpa using hrunning) (hskipped t hmem)

/-- A service is stopped only after every running service that depends on it. -/
def DependentsStopped (cfg : Config) (daemon : Daemon) (events : List Event) : Prop :=
  EachAfter (AfterDependents cfg daemon) [] events

/-- The request for the list stops nothing. -/
theorem dependentsStopped_list (cfg : Config) (daemon : Daemon) (events : List Event) :
    DependentsStopped cfg daemon ((.listServices, daemon.list) :: events) ↔
      EachAfter (AfterDependents cfg daemon) [(.listServices, daemon.list)] events := by
  rw [DependentsStopped, Trace.eachAfter_cons]
  refine and_iff_right ?_
  intro s answer heq
  cases heq

/-- **Without `--force`, dependencies are stopped behind their dependents exactly as long as
no unexpected answer is passed over.** -/
theorem run_afterDependents_iff {valid : HashOrder} {cfg : Config}
    (hvalid : Parser.validateConfig valid cfg = .ok ()) (ordAffected ordStop : HashOrder)
    (daemon : Daemon) (services : List String) (timeout : Option UInt64)
    (input : Except String String) {r : Run}
    (hrun : run ordAffected ordStop daemon cfg services false timeout input = some r) :
    DependentsStopped cfg daemon r.events ↔
      ∀ ordered, plan ordAffected ordStop daemon.list cfg services false input =
          some (.ok (some ordered)) → NoneUnexpected cfg daemon ordered := by
  have hdeps := Parser.validateConfig_dependenciesExist hvalid
  have hlist : DependentsStopped cfg daemon [(.listServices, daemon.list)] :=
    (dependentsStopped_list cfg daemon []).mpr (Trace.eachAfter_nil _ _)
  unfold run at hrun
  split at hrun
  next => cases hrun
  next message hplan =>
    obtain rfl := Option.some.inj hrun
    refine iff_of_true hlist ?_
    intro ordered hordered
    simp [hplan] at hordered
  next hplan =>
    obtain rfl := Option.some.inj hrun
    refine iff_of_true hlist ?_
    intro ordered hordered
    simp [hplan] at hordered
  next ordered hplan =>
    obtain rfl := Option.some.inj hrun
    have hloop := @stopAll_afterDependents_iff cfg daemon timeout ordered []
      [(.listServices, daemon.list)] []
      (fun pre s post hsplit t ht hlisted => dependents_before hdeps hplan hsplit ht hlisted)
      ⟨by simp, by simp⟩
    refine (dependentsStopped_list cfg daemon _).trans (hloop.trans ?_)
    constructor
    · intro h ordered' hordered
      obtain rfl : ordered = ordered' := by simpa [hplan] using hordered
      exact h
    · intro h
      exact h ordered hplan

/-- `api` is not stopped, and `db`, which it depends on, is. -/
theorem run_stops_under_dependent :
    Parser.validateConfig HashOrder.stored apiConfig = .ok () ∧
      ∃ r, run HashOrder.stored HashOrder.stored (apiDaemon (.ok (.serviceStatus .running)))
          apiConfig [] false none (.ok "") = some r ∧
        ¬ DependentsStopped apiConfig (apiDaemon (.ok (.serviceStatus .running))) r.events := by
  refine ⟨by decide, ?_⟩
  have htail : (run HashOrder.stored HashOrder.stored
      (apiDaemon (.ok (.serviceStatus .running))) apiConfig [] false none (.ok "")).map
        (fun r => r.events.tail) =
      some [(.stopService "api", .ok (.serviceStatus .running)),
        (.stopService "db", .ok .success)] := by
    decide +kernel
  obtain ⟨r, hrun, htail⟩ := Option.map_eq_some_iff.mp htail
  refine ⟨r, hrun, ?_⟩
  rw [run_events hrun, htail]
  intro h
  have hdepends : apiConfig.DependsOn "api" "db" := ⟨_, rfl, by decide⟩
  have hlisted : Listed (apiDaemon (.ok (.serviceStatus .running))) "api" :=
    ⟨_, rfl, by decide⟩
  have hstopped := h [_, _] _ [] rfl "db" _ rfl "api" (.single hdepends) hlisted
  revert hstopped
  decide

/-- With a `Success` for `api`, `db` is stopped behind it. -/
theorem run_afterDependents_iff_api :
    ∃ r, run HashOrder.stored HashOrder.stored (apiDaemon (.ok .success)) apiConfig [] false none
        (.ok "") = some r ∧
      (DependentsStopped apiConfig (apiDaemon (.ok .success)) r.events ↔
        ∀ ordered, plan HashOrder.stored HashOrder.stored (apiDaemon (.ok .success)).list apiConfig
            [] false (.ok "") = some (.ok (some ordered)) →
          NoneUnexpected apiConfig (apiDaemon (.ok .success)) ordered) := by
  have hvalid : Parser.validateConfig HashOrder.stored apiConfig = .ok () := by decide
  have hsome : (run HashOrder.stored HashOrder.stored (apiDaemon (.ok .success)) apiConfig [] false
      none (.ok "")).isSome = true := by decide +kernel
  obtain ⟨r, hrun⟩ := Option.isSome_iff_exists.mp hsome
  exact ⟨r, hrun, run_afterDependents_iff hvalid HashOrder.stored HashOrder.stored
    (apiDaemon (.ok .success)) [] none (.ok "") hrun⟩

end GraphHarness.Stop
