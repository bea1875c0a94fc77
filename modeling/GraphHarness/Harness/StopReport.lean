import GraphHarness.Harness.Stop

/-!
# The summary of a stop

The number of stopped services is the length of the order without the failures. A service
that is passed over, or that the loop does not come to, is no failure, and counts.

> `run_counts_iff`: the summary counts what was stopped exactly if every service of the
> order is in the configuration and, without `--force`, none but the last is answered by
> an error.

The loop asks for `asked`, a sublist of the order: its stopped services and its failures
are together as many as these.

`counts_iff_noneMissed` is about the loop and any order; `run_planned` says which order it is.
An answer of an unexpected kind is no success, and is put on the list of the failures.
-/

namespace GraphHarness.Stop

open Protocol (Request Response Answer)

/-- The services of the order that a `StopService` is sent for. -/
def asked (daemon : Daemon) (cfg : Config) (force : Bool) : List String → List String
  | [] => []
  | name :: names =>
    if name ∈ cfg.services then
      if isFailure (daemon.stop name) && !force then [name]
      else name :: asked daemon cfg force names
    else asked daemon cfg force names

/-- The services that were answered `Success`, one for each request. -/
def stopped (events : List Event) : List String :=
  events.filterMap fun
    | (.stopService name, .ok .success) => some name
    | _ => none

/-- The daemon has stopped the service. -/
def isSuccess : Answer → Bool
  | .ok .success => true
  | _ => false

/-- What is stopped in two stretches. -/
theorem stopped_append (events events' : List Event) :
    stopped (events ++ events') = stopped events ++ stopped events' := List.filterMap_append

/-- What one round stops. -/
theorem stopped_stopping (name : String) (answer : Answer) {wait : List Event}
    (hwait : ∀ e ∈ wait, AsksStatus e) :
    stopped ((.stopService name, answer) :: wait) =
      if isSuccess answer then [name] else [] := by
  have hnone : stopped wait = [] := by
    rw [stopped, List.filterMap_eq_nil_iff]
    intro e he
    obtain ⟨_, _, rfl⟩ := hwait e he
    rfl
  have hcons : stopped ((.stopService name, answer) :: wait) =
      stopped [(.stopService name, answer)] ++ stopped wait := stopped_append [_] wait
  rw [hcons, hnone, List.append_nil]
  cases answer with
  | error e => rfl
  | ok response =>
    cases response with
    | success => rfl
    | _ => rfl

/-- The loop misses no service: each is in the configuration and, without `--force`, only
the last may be answered by an error. -/
structure NoneMissed (daemon : Daemon) (cfg : Config) (force : Bool) (ordered : List String) :
    Prop where
  configured : ∀ s ∈ ordered, s ∈ cfg.services
  lastFails : force = false → ∀ pre s post, ordered = pre ++ s :: post → post ≠ [] →
    isFailure (daemon.stop s) = false

/-- The first of the services apart. -/
theorem noneMissed_cons {daemon : Daemon} {cfg : Config} {force : Bool} {name : String}
    {names : List String} :
    NoneMissed daemon cfg force (name :: names) ↔
      name ∈ cfg.services ∧
      (force = false → names ≠ [] → isFailure (daemon.stop name) = false) ∧
      NoneMissed daemon cfg force names := by
  constructor
  · intro h
    obtain ⟨hname, hnames⟩ := List.forall_mem_cons.mp h.configured
    refine ⟨hname, fun hforce => h.lastFails hforce [] name names rfl, hnames, ?_⟩
    intro hforce pre s post hsplit
    exact h.lastFails hforce (name :: pre) s post (by rw [hsplit, List.cons_append])
  · rintro ⟨hname, hhead, hnames⟩
    refine ⟨List.forall_mem_cons.mpr ⟨hname, hnames.configured⟩, ?_⟩
    intro hforce pre s post hsplit
    cases pre with
    | nil =>
      obtain ⟨rfl, rfl⟩ := List.cons.inj hsplit
      exact hhead hforce
    | cons first pre =>
      exact hnames.lastFails hforce pre s post (List.cons.inj hsplit).2

/-- Every answer but a `Success` is recorded. -/
theorem length_handleAnswer (force : Bool) (failures : List (String × String)) (name : String)
    (answer : Answer) : (handleAnswer force failures name answer).1.length =
      failures.length + (if isSuccess answer then 0 else 1) := by
  rcases handleAnswer_cases force failures name answer with
    ⟨rfl, hanswer⟩ | ⟨hfailure, error, hanswer⟩ | ⟨hunexpected, error, hanswer⟩
  · rw [hanswer]
    rfl
  · have hsuccess : isSuccess answer = false := by
      cases answer with
      | error e => rfl
      | ok response => cases response <;> first | rfl | cases hfailure
    rw [hanswer, hsuccess]
    simp
  · have hsuccess : isSuccess answer = false := by
      cases answer with
      | error e => rfl
      | ok response => cases response <;> first | rfl | cases hunexpected
    rw [hanswer, hsuccess]
    simp

/-! ## The loop -/

section Loop

variable (daemon : Daemon) (cfg : Config) (force : Bool) (timeout : Option UInt64)

/-- The loop stops what it asks for and is answered so, and records the rest of it. -/
theorem stopAll_counts (names : List String) (failures : List (String × String)) :
    stopped (stopAll daemon cfg force timeout names failures).1 =
        (asked daemon cfg force names).filter (fun s => isSuccess (daemon.stop s)) ∧
      (stopped (stopAll daemon cfg force timeout names failures).1).length +
          (stopAll daemon cfg force timeout names failures).2.length =
        (asked daemon cfg force names).length + failures.length := by
  induction names generalizing failures with
  | nil => exact ⟨rfl, rfl⟩
  | cons name names ih =>
    by_cases hname : name ∈ cfg.services
    · have hlength := length_handleAnswer force failures name (daemon.stop name)
      have hwait : ∀ e ∈ stopWait daemon name timeout (daemon.stop name), AsksStatus e :=
        stopWait_asksStatus
      have hround := stopped_stopping name (daemon.stop name) hwait
      rw [stopAll_asked hname, asked, if_pos hname]
      dsimp only
      split
      next =>
        -- the loop ends with this request
        rw [hround, hlength]
        cases hsuccess : isSuccess (daemon.stop name) with
        | false => simp [hsuccess]; omega
        | true => simp [hsuccess]
      next =>
        obtain ⟨hlater, hmore⟩ := ih (handleAnswer force failures name (daemon.stop name)).1
        rw [stopped_append, hround, List.length_append]
        cases hsuccess : isSuccess (daemon.stop name) with
        | false =>
          rw [hsuccess] at hlength
          simp [hsuccess, hlater] at hlength hmore ⊢
          omega
        | true =>
          rw [hsuccess] at hlength
          simp [hsuccess, hlater] at hlength hmore ⊢
          omega
    · rw [stopAll_passed_over hname, asked, if_neg hname]
      exact ih failures

/-- The services asked for are some of the order. -/
theorem asked_sublist (names : List String) : (asked daemon cfg force names).Sublist names := by
  induction names with
  | nil => exact List.Sublist.slnil
  | cons name names ih =>
    rw [asked]
    split
    · split
      · exact (List.nil_sublist names).cons_cons name
      · exact ih.cons_cons name
    · exact ih.cons name

/-- Every service of the order is asked for exactly if all are configured and no error but
one for the last ends the loop. -/
theorem asked_eq_iff (names : List String) :
    asked daemon cfg force names = names ↔ NoneMissed daemon cfg force names := by
  induction names with
  | nil => exact iff_of_true rfl ⟨by simp, by simp⟩
  | cons name names ih =>
    rw [noneMissed_cons, asked]
    by_cases hname : name ∈ cfg.services
    · by_cases hstop : (isFailure (daemon.stop name) && !force) = true
      · rw [if_pos hname, if_pos hstop]
        obtain ⟨hfailure, hforce⟩ := Bool.and_eq_true_iff.mp hstop
        obtain rfl : force = false := by simpa using hforce
        constructor
        · intro h
          obtain rfl := (List.cons.inj h).2
          exact ⟨hname, fun _ h => absurd rfl h, by simp, by simp⟩
        · rintro ⟨_, hlast, _⟩
          by_contra hne
          have hnames : names ≠ [] := fun h => hne (by rw [h])
          exact absurd (hlast rfl hnames) (by simp [hfailure])
      · rw [if_pos hname, if_neg hstop, List.cons.injEq, ih]
        simp only [true_and, and_iff_right hname]
        refine (and_iff_right ?_).symm
        intro hforce _
        simpa [hforce] using hstop
    · rw [if_neg hname]
      refine iff_of_false ?_ (fun h => hname h.1)
      intro h
      have hlength := (asked_sublist daemon cfg force names).length_le
      rw [h, List.length_cons] at hlength
      omega

end Loop

/-! ## Whole runs -/

/-- The summary of a run over the services selected for stopping: its number is that of
the requests answered `Success`, and the run is a success if every service was. -/
structure Counts (r : Run) (ordered : List String) : Prop where
  count : r.report.map Report.stoppedCount = some (stopped r.events).length
  ok : r.result = .ok () ↔ ∀ s ∈ ordered, s ∈ stopped r.events

section Whole

variable {ordAffected ordStop : HashOrder} {daemon : Daemon} {cfg : Config}
  {services : List String} {force : Bool} {timeout : Option UInt64}
  {input : Except String String} {r : Run} {ordered : List String}

/-- The run over the services that were planned. -/
theorem run_planned (hrun : run ordAffected ordStop daemon cfg services force timeout input = some r)
    (hplan : plan ordAffected ordStop daemon.list cfg services force input =
      some (.ok (some ordered))) :
    stopped r.events =
        (asked daemon cfg force ordered).filter (fun s => isSuccess (daemon.stop s)) ∧
      ∃ failures : List (String × String),
        (stopped r.events).length + failures.length = (asked daemon cfg force ordered).length ∧
        r.report = some (summarize ordered failures) ∧
        (r.result = .ok () ↔ failures = []) := by
  obtain ⟨hstopped, hlength⟩ := stopAll_counts daemon cfg force timeout ordered []
  rw [run, hplan] at hrun
  dsimp only at hrun
  obtain rfl := Option.some.inj hrun
  refine ⟨hstopped, _, hlength, rfl, ?_⟩
  dsimp only
  split
  next h => exact iff_of_true rfl h
  next h => exact iff_of_false (by simp) h

/-- A summary counts what was stopped exactly if the loop missed none of the services. -/
theorem counts_iff_noneMissed
    (hrun : run ordAffected ordStop daemon cfg services force timeout input = some r)
    (hplan : plan ordAffected ordStop daemon.list cfg services force input =
      some (.ok (some ordered))) :
    Counts r ordered ↔ NoneMissed daemon cfg force ordered := by
  obtain ⟨hstopped, failures, hlength, hreport, hresult⟩ := run_planned hrun hplan
  have hsublist := asked_sublist daemon cfg force ordered
  have hle := hsublist.length_le
  have hcount : r.report.map Report.stoppedCount = some (ordered.length - failures.length) := by
    rw [hreport]
    rfl
  rw [← asked_eq_iff]
  constructor
  · intro h
    have hnumber := Option.some.inj (hcount.symm.trans h.count)
    exact hsublist.eq_of_length (by omega)
  · intro hasked
    rw [hasked] at hstopped hlength
    constructor
    · rw [hcount, Option.some.injEq]
      omega
    · rw [hresult]
      constructor
      · rintro rfl
        have hall : stopped r.events = ordered :=
          (hstopped ▸ List.filter_sublist).eq_of_length hlength
        intro s hs
        rwa [hall]
      · intro hall
        have hself : stopped r.events = ordered := by
          rw [hstopped, List.filter_eq_self]
          intro s hs
          have hmem := hall s hs
          rw [hstopped] at hmem
          exact (List.mem_filter.mp hmem).2
        rw [hself] at hlength
        exact List.length_eq_zero_iff.mp (by omega)

end Whole

/-- **The summary counts what was stopped exactly if the loop misses no service.** -/
theorem run_counts_iff {ordAffected ordStop : HashOrder} {daemon : Daemon} {cfg : Config}
    {services : List String} {force : Bool} {timeout : Option UInt64}
    {input : Except String String} {r : Run}
    (hrun : run ordAffected ordStop daemon cfg services force timeout input = some r) :
    (∀ ordered, plan ordAffected ordStop daemon.list cfg services force input =
        some (.ok (some ordered)) → Counts r ordered) ↔
      ∀ ordered, plan ordAffected ordStop daemon.list cfg services force input =
        some (.ok (some ordered)) → NoneMissed daemon cfg force ordered := by
  constructor
  · intro h ordered hplan
    exact (counts_iff_noneMissed hrun hplan).mp (h ordered hplan)
  · intro h ordered hplan
    exact (counts_iff_noneMissed hrun hplan).mpr (h ordered hplan)

/-- `old`, which is not in the configuration, is passed over: the summary says that three
services were stopped, and two were. The run is a success nevertheless. -/
theorem summary_counts_passed_over :
    ∃ r ordered, run HashOrder.stored HashOrder.stored (apiDaemon (.ok .success)) apiConfig [] false
        none (.ok "") = some r ∧
      plan HashOrder.stored HashOrder.stored (apiDaemon (.ok .success)).list apiConfig [] false
        (.ok "") = some (.ok (some ordered)) ∧
      r.report = some ⟨3, []⟩ ∧ stopped r.events = ["api", "db"] ∧
      r.result = .ok () ∧ "old" ∈ ordered ∧ ¬ Counts r ordered := by
  have hplan : plan HashOrder.stored HashOrder.stored (apiDaemon (.ok .success)).list apiConfig []
      false (.ok "") = some (.ok (some ["api", "db", "old"])) := by decide +kernel
  have hrun : (run HashOrder.stored HashOrder.stored (apiDaemon (.ok .success)) apiConfig [] false
      none (.ok "")).map (fun r => (r.report, stopped r.events, r.result)) =
        some (some ⟨3, []⟩, ["api", "db"], .ok ()) := by decide +kernel
  obtain ⟨r, hrun, hr⟩ := Option.map_eq_some_iff.mp hrun
  simp only [Prod.mk.injEq] at hr
  obtain ⟨hreport, hstopped, hresult⟩ := hr
  refine ⟨r, _, hrun, hplan, hreport, hstopped, hresult, by decide, ?_⟩
  intro h
  have hcount := h.count
  rw [hreport, hstopped] at hcount
  revert hcount
  decide

/-- With an error for `api`, the loop ends before `db`. -/
theorem run_counts_iff_api :
    ∃ r, run HashOrder.stored HashOrder.stored (apiDaemon (.ok (.error "busy"))) apiConfig []
        false none (.ok "") = some r ∧
      ((∀ ordered, plan HashOrder.stored HashOrder.stored (apiDaemon (.ok (.error "busy"))).list
          apiConfig [] false (.ok "") = some (.ok (some ordered)) → Counts r ordered) ↔
        ∀ ordered, plan HashOrder.stored HashOrder.stored (apiDaemon (.ok (.error "busy"))).list
          apiConfig [] false (.ok "") = some (.ok (some ordered)) →
          NoneMissed (apiDaemon (.ok (.error "busy"))) apiConfig false ordered) := by
  have hsome : (run HashOrder.stored HashOrder.stored (apiDaemon (.ok (.error "busy"))) apiConfig
      [] false none (.ok "")).isSome = true := by decide +kernel
  obtain ⟨r, hrun⟩ := Option.isSome_iff_exists.mp hsome
  exact ⟨r, hrun, run_counts_iff hrun⟩

end GraphHarness.Stop
