import GraphHarness.Orchestration.Lifecycle
import GraphHarness.ServiceRegistry.Serializer
import Mathlib.Data.List.Induction

/-!
# When a service is unhealthy

`HealthMonitor::check` calls a service unhealthy when as many checks as `retries` have
failed one after the other. The manager does not use it: `run_health_checks` counts the
failures as well, and has the service unhealthy after the first of them.

> `runHealthChecks_agrees_iff` — both say the same **exactly if the last check has
> passed, there was none, or as many as `retries` have failed since the last that
> passed**.

> `check_status` — what `HealthMonitor::check` counts and says is a function of how many
> checks have failed since the last that passed.

Both counters are followed over any list of rounds, each with the answers of its commands
(`failedLast`): the one of `HealthMonitor::check` and the one of `recordCheck`, which is what
`run_health_checks` does with the same monitor. Checks that cannot be run count as failures.

`check_rounds` and `recordCheck_rounds` are the two inductions, over one round more at the
end. Messages are not compared, as the two functions word them differently (`SameKind`).
-/

namespace GraphHarness.Orchestration

open ServiceRegistry (RegistryBackend Serde SledStore)
open Trace

/-- The check of a round succeeds. -/
def passes (config : HealthCheck) (run : Commands) : Bool :=
  match run (config.command :: config.args) with
  | .ok result => result.success
  | .error _ => false

/-- How many checks have failed since the last one that passed. -/
def failedLast (config : HealthCheck) (rounds : List Commands) : Nat :=
  (rounds.reverse.takeWhile fun run => !passes config run).length

@[simp] theorem failedLast_nil (config : HealthCheck) : failedLast config [] = 0 := rfl

@[simp] theorem failedLast_concat (config : HealthCheck) (rounds : List Commands)
    (run : Commands) :
    failedLast config (rounds ++ [run]) =
      if passes config run then 0 else failedLast config rounds + 1 := by
  unfold failedLast
  rw [List.reverse_append, List.reverse_singleton, List.singleton_append, List.takeWhile_cons]
  cases passes config run with
  | true => rfl
  | false => rfl

/-- The same status, but for the message. -/
def HealthStatus.SameKind : HealthStatus → HealthStatus → Prop
  | .healthy, .healthy => True
  | .unhealthy _, .unhealthy _ => True
  | .unknown, .unknown => True
  | _, _ => False

/-- The status is unhealthy, whatever its message. -/
def HealthStatus.IsUnhealthy : HealthStatus → Prop
  | .unhealthy _ => True
  | _ => False

/-- A status is of its own kind. -/
theorem HealthStatus.sameKind_refl (status : HealthStatus) : status.SameKind status := by
  cases status with
  | healthy => trivial
  | unhealthy message => trivial
  | unknown => trivial

/-- Two unhealthy statuses are of one kind. -/
theorem HealthStatus.sameKind_of_unhealthy {status other : HealthStatus}
    (h : status.IsUnhealthy) (h' : other.IsUnhealthy) : status.SameKind other := by
  cases status with
  | unhealthy message =>
    cases other with
    | unhealthy message' => trivial
    | healthy => exact h'.elim
    | unknown => exact h'.elim
  | healthy => exact h.elim
  | unknown => exact h.elim

/-- A check passes or fails; it never ends in an error. -/
theorem checkHealth_cases (run : Commands) (config : HealthCheck) :
    passes config run = true ∧ checkHealth run config = .ok .healthy ∨
      passes config run = false ∧ ∃ message, checkHealth run config = .ok (.unhealthy message) := by
  unfold passes checkHealth
  cases run (config.command :: config.args) with
  | error e => exact .inr ⟨rfl, _, rfl⟩
  | ok result =>
    cases hsuccess : result.success with
    | true => simp [hsuccess]
    | false => simp [hsuccess]

namespace HealthMonitor

/-- One round of the manager. -/
def recordCheck (monitor : HealthMonitor) (run : Commands) : HealthMonitor :=
  (monitor.record (checkHealth run monitor.config)).1

/-- A status before any check has failed: the last one has passed, or there was none. -/
def quietStatus (rounds : List Commands) : HealthStatus :=
  if rounds = [] then .unknown else .healthy

/-- A quiet monitor is not unhealthy. -/
theorem quietStatus_not_unhealthy (rounds : List Commands) :
    ¬ (quietStatus rounds).IsUnhealthy := by
  unfold quietStatus
  split
  next => exact id
  next => exact id

/-- The manager counts, and any failure makes the service unhealthy. -/
theorem recordCheck_rounds (config : HealthCheck) (rounds : List Commands) :
    (rounds.foldl recordCheck (new config)).config = config ∧
      (rounds.foldl recordCheck (new config)).consecutiveFailures =
        UInt32.ofNat (failedLast config rounds) ∧
      (failedLast config rounds = 0 →
        (rounds.foldl recordCheck (new config)).lastStatus = quietStatus rounds) ∧
      (0 < failedLast config rounds →
        (rounds.foldl recordCheck (new config)).lastStatus.IsUnhealthy) := by
  induction rounds using List.reverseRecOn with
  | nil => exact ⟨rfl, rfl, fun _ => rfl, fun h => absurd h (by simp)⟩
  | append_singleton rounds run ih =>
    obtain ⟨hconfig, hfailures, _, _⟩ := ih
    rw [List.foldl_append, List.foldl_cons, List.foldl_nil, failedLast_concat]
    generalize rounds.foldl recordCheck (new config) = monitor at hconfig hfailures ⊢
    unfold recordCheck
    rw [hconfig]
    rcases checkHealth_cases run config with ⟨hpass, hcheck⟩ | ⟨hfail, message, hcheck⟩
    · rw [hcheck, hpass]
      exact ⟨hconfig, rfl, fun _ => by simp [record, quietStatus], fun h => by simp at h⟩
    · rw [hcheck, hfail]
      refine ⟨hconfig, ?_, fun h => by simp at h, fun _ => trivial⟩
      show monitor.consecutiveFailures + 1 = _
      rw [hfailures]
      simp

/-- A step of `check`, by its outcome. -/
theorem check_pass {monitor : HealthMonitor} {run : Commands}
    (h : checkHealth run monitor.config = .ok .healthy) :
    (monitor.check run).1 =
      { monitor with consecutiveFailures := 0, lastStatus := .healthy } := by
  unfold check
  rw [h]

/-- A check that fails counts one failure more. -/
theorem check_fail {monitor : HealthMonitor} {run : Commands} {message : String}
    (h : checkHealth run monitor.config = .ok (.unhealthy message)) :
    (monitor.check run).1.config = monitor.config ∧
      (monitor.check run).1.consecutiveFailures = monitor.consecutiveFailures + 1 ∧
      (monitor.check run).1.lastStatus =
        if monitor.config.retries ≤ monitor.consecutiveFailures + 1 then .unhealthy message
        else monitor.lastStatus := by
  unfold check
  rw [h]
  dsimp only
  by_cases hretries : monitor.consecutiveFailures + 1 ≥ monitor.config.retries
  · rw [if_pos hretries, if_pos hretries]
    exact ⟨rfl, rfl, rfl⟩
  · rw [if_neg hretries, if_neg hretries]
    exact ⟨rfl, rfl, rfl⟩

/-- `check` counts in the same way, and has the service unhealthy from `retries` failures
on. Where the counter has wrapped around it is unhealthy already. -/
theorem check_rounds (config : HealthCheck) (rounds : List Commands) :
    let monitor := rounds.foldl (fun monitor run => (monitor.check run).1) (new config)
    monitor.config = config ∧
      monitor.consecutiveFailures = UInt32.ofNat (failedLast config rounds) ∧
      (failedLast config rounds = 0 → monitor.lastStatus = quietStatus rounds) ∧
      (0 < failedLast config rounds → config.retries.toNat ≤ failedLast config rounds →
        monitor.lastStatus.IsUnhealthy) ∧
      (failedLast config rounds < config.retries.toNat → ¬ monitor.lastStatus.IsUnhealthy) := by
  induction rounds using List.reverseRecOn with
  | nil => exact ⟨rfl, rfl, fun _ => rfl, fun h => absurd h (by simp), fun _ h => h⟩
  | append_singleton rounds run ih =>
    dsimp only at ih ⊢
    obtain ⟨hconfig, hfailures, _, habove, hbelow⟩ := ih
    rw [List.foldl_append, List.foldl_cons, List.foldl_nil, failedLast_concat]
    generalize rounds.foldl (fun monitor run => (check monitor run).1) (new config) = monitor
      at hconfig hfailures habove hbelow ⊢
    rcases checkHealth_cases run config with ⟨hpass, hcheck⟩ | ⟨hfail, message, hcheck⟩
    · rw [check_pass (by rw [hconfig]; exact hcheck), hpass]
      exact ⟨hconfig, rfl, fun _ => by simp [quietStatus], fun h => by simp at h, fun _ h => h⟩
    · have hcheck' : checkHealth run monitor.config = .ok (.unhealthy message) := by
        rw [hconfig]
        exact hcheck
      obtain ⟨hconfig', hfailures', hstatus⟩ := check_fail hcheck'
      have hcount : monitor.consecutiveFailures + 1 =
          UInt32.ofNat (failedLast config rounds + 1) := by
        rw [hfailures]
        simp
      have hretries := config.retries.toNat_lt
      rw [hfail]
      simp only [Bool.false_eq_true, if_false]
      rw [hconfig, hcount] at hstatus
      refine ⟨hconfig'.trans hconfig, hfailures'.trans hcount, fun h => by simp at h, ?_, ?_⟩
      · intro _ hle
        rw [hstatus]
        by_cases hreached : config.retries ≤ UInt32.ofNat (failedLast config rounds + 1)
        · rw [if_pos hreached]
          trivial
        · -- the counter has wrapped around
          rw [if_neg hreached]
          rw [UInt32.le_iff_toNat_le, UInt32.toNat_ofNat'] at hreached
          exact habove (by omega) (by omega)
      · intro hlt
        have hreached : ¬ config.retries ≤ UInt32.ofNat (failedLast config rounds + 1) := by
          rw [UInt32.le_iff_toNat_le, UInt32.toNat_ofNat']
          omega
        rw [hstatus, if_neg hreached]
        exact hbelow (by omega)

/-- The monitor after rounds of checks of its own. -/
def checked (config : HealthCheck) (rounds : List Commands) : HealthMonitor :=
  rounds.foldl (fun monitor run => (monitor.check run).1) (new config)

/-- One round more. -/
theorem checked_concat (config : HealthCheck) (rounds : List Commands) (run : Commands) :
    checked config (rounds ++ [run]) = ((checked config rounds).check run).1 := by
  rw [checked, List.foldl_append]
  rfl

/-- There are no more failures than rounds. -/
theorem failedLast_le (config : HealthCheck) (rounds : List Commands) :
    failedLast config rounds ≤ rounds.length := by
  have hle := (List.takeWhile_sublist (fun run => !passes config run) (l := rounds.reverse)).length_le
  rwa [List.length_reverse] at hle

/-- With fewer failures than make a service unhealthy (one at least, as only a failure can)
the status is what it was after the last check that passed. -/
theorem checked_below (config : HealthCheck) (rounds : List Commands)
    (h : failedLast config rounds < max config.retries.toNat 1) :
    (checked config rounds).lastStatus =
      if ∃ run ∈ rounds, passes config run = true then .healthy else .unknown := by
  induction rounds using List.reverseRecOn with
  | nil => rfl
  | append_singleton rounds run ih =>
    obtain ⟨hconfig, hfailures, _⟩ := check_rounds config rounds
    rw [checked_concat]
    rw [failedLast_concat] at h
    rcases checkHealth_cases run config with ⟨hpass, hcheck⟩ | ⟨hfail, message, hcheck⟩
    · rw [check_pass (by rw [checked, hconfig]; exact hcheck)]
      rw [if_pos ⟨run, List.mem_append_right _ (List.mem_singleton_self run), hpass⟩]
    · -- one more failure is still too few to change anything
      have hcheck' : checkHealth run (checked config rounds).config = .ok (.unhealthy message) := by
        rw [checked, hconfig]
        exact hcheck
      rw [hfail, if_neg Bool.false_ne_true] at h
      have hreached : ¬ (checked config rounds).config.retries ≤
          (checked config rounds).consecutiveFailures + 1 := by
        have hretries := config.retries.toNat_lt
        have hcount : (checked config rounds).consecutiveFailures + 1 =
            UInt32.ofNat (failedLast config rounds + 1) := by
          rw [checked, hfailures]
          simp
        rw [checked, hconfig, ← checked, hcount, UInt32.le_iff_toNat_le, UInt32.toNat_ofNat']
        omega
      rw [(check_fail hcheck').2.2, if_neg hreached, ih (by omega)]
      simp only [List.mem_append, List.mem_singleton, or_and_right, exists_or, exists_eq_left,
        hfail, Bool.false_eq_true, or_false]

/-- Each call returns the status it leaves. -/
theorem check_result (monitor : HealthMonitor) (run : Commands) :
    (monitor.check run).2 = .ok (monitor.check run).1.lastStatus := by
  unfold check
  rcases checkHealth_cases run monitor.config with ⟨_, hcheck⟩ | ⟨_, message, hcheck⟩
  · rw [hcheck]
  · rw [hcheck]

/-- After fewer checks than the counter can count, it counts the failures since the last
check that passed; `retries` of them, or one, make the service unhealthy, and with fewer it
is healthy if any check has passed, else unknown. Each call has returned the status. -/
theorem check_status (config : HealthCheck) (rounds : List Commands)
    (hfew : rounds.length < 2 ^ 32) :
    let monitor := checked config rounds
    let failures := failedLast config rounds
    monitor.consecutiveFailures.toNat = failures ∧
      (monitor.lastStatus.IsUnhealthy ↔ max config.retries.toNat 1 ≤ failures) ∧
      (monitor.lastStatus = .healthy ↔
        (∃ run ∈ rounds, passes config run = true) ∧ failures < max config.retries.toNat 1) ∧
      (monitor.lastStatus = .unknown ↔
        (∀ run ∈ rounds, passes config run = false) ∧ failures < max config.retries.toNat 1) ∧
      ∀ earlier run later, rounds = earlier ++ run :: later →
        ((checked config earlier).check run).2 =
          .ok (checked config (earlier ++ [run])).lastStatus := by
  intro monitor failures
  obtain ⟨_, hfailures, _, habove, _⟩ := check_rounds config rounds
  have hle := failedLast_le config rounds
  have hresults : ∀ earlier run later, rounds = earlier ++ run :: later →
      ((checked config earlier).check run).2 =
        .ok (checked config (earlier ++ [run])).lastStatus := by
    intro earlier run later _
    rw [check_result, checked_concat]
  have hcount : monitor.consecutiveFailures.toNat = failures := by
    show (checked config rounds).consecutiveFailures.toNat = failedLast config rounds
    rw [checked, hfailures, UInt32.toNat_ofNat', Nat.mod_eq_of_lt (by omega)]
  refine ⟨hcount, ?_⟩
  -- the threshold is reached or not, and below it the last status is that of the quiet monitor
  by_cases hreached : max config.retries.toNat 1 ≤ failures
  · have hstatus : monitor.lastStatus.IsUnhealthy := habove (by omega) (by omega)
    have hlt : ¬ failures < max config.retries.toNat 1 := by omega
    refine ⟨iff_of_true hstatus hreached, iff_of_false ?_ fun h => hlt h.2,
      iff_of_false ?_ fun h => hlt h.2, hresults⟩
    · intro hhealthy
      rw [hhealthy] at hstatus
      exact hstatus
    · intro hunknown
      rw [hunknown] at hstatus
      exact hstatus
  · have hlt : failures < max config.retries.toNat 1 := by omega
    have hstatus : monitor.lastStatus = _ := checked_below config rounds hlt
    rw [hstatus]
    by_cases hpassed : ∃ run ∈ rounds, passes config run = true
    · rw [if_pos hpassed]
      refine ⟨iff_of_false id hreached, iff_of_true rfl ⟨hpassed, hlt⟩, iff_of_false nofun ?_,
        hresults⟩
      intro ⟨hnone, _⟩
      obtain ⟨run, hrun, hpass⟩ := hpassed
      rw [hnone run hrun] at hpass
      cases hpass
    · rw [if_neg hpassed]
      refine ⟨iff_of_false id hreached, iff_of_false nofun fun h => hpassed h.1,
        iff_of_true rfl ⟨?_, hlt⟩, hresults⟩
      intro run hrun
      rw [← Bool.not_eq_true]
      exact fun hpass => hpassed ⟨run, hrun, hpass⟩

/-- Two failures with a threshold of three, after a check that passed. -/
theorem check_status_recovers :
    let rounds := [fun _ => .ok ⟨⟨some 0, none⟩, ""⟩, unable.run, unable.run]
    let monitor := checked HealthCheck.default rounds
    monitor.consecutiveFailures.toNat = 2 ∧ monitor.lastStatus = .healthy := by
  intro rounds monitor
  have hstatus := check_status HealthCheck.default rounds (by decide)
  refine ⟨hstatus.1, hstatus.2.2.1.mpr ⟨⟨_, List.mem_cons_self, rfl⟩, by decide⟩⟩

end HealthMonitor

namespace ServiceManager

variable {σ : Type} [RegistryBackend σ]

/-- The monitor of a service after rounds of health checks. -/
theorem lookup_rounds (name : String) : ∀ (rounds : List (String → Commands))
    {manager : ServiceManager σ} {monitor : HealthMonitor},
    manager.healthMonitors.lookup name = some monitor →
      (after perform manager (rounds.map .runHealthChecks)).healthMonitors.lookup name =
        some ((rounds.map fun run => run name).foldl HealthMonitor.recordCheck monitor) := by
  intro rounds
  induction rounds with
  | nil => intro manager monitor h; exact h
  | cons run rounds ih =>
    intro manager monitor h
    refine ih ?_
    show (manager.runHealthChecks run).1.healthMonitors.lookup name = _
    rw [(manager.runHealthChecks_lookup run name).1, h]
    rfl

/-- A new monitor that the manager drives through rounds of checks ends as one that
checks for itself, and is unhealthy only after `retries` failures, exactly if no check
has failed since the last that passed, or `retries` have. -/
theorem runHealthChecks_agrees_iff (manager : ServiceManager σ) (name : String)
    (config : HealthCheck)
    (hnew : manager.healthMonitors.lookup name = some (HealthMonitor.new config))
    (rounds : List (String → Commands)) :
    let outcomes := rounds.map fun run => run name
    let checked := outcomes.foldl (fun monitor run => (monitor.check run).1)
      (HealthMonitor.new config)
    (∃ monitor,
      (after perform manager (rounds.map .runHealthChecks)).healthMonitors.lookup name =
          some monitor ∧
        monitor.lastStatus.SameKind checked.lastStatus ∧
        monitor.consecutiveFailures = checked.consecutiveFailures ∧
        (monitor.lastStatus.IsUnhealthy →
          config.retries.toNat ≤ failedLast config outcomes)) ↔
      failedLast config outcomes = 0 ∨ config.retries.toNat ≤ failedLast config outcomes := by
  intro outcomes checked
  obtain ⟨_, hfailures, hquiet, hunhealthy⟩ := HealthMonitor.recordCheck_rounds config outcomes
  obtain ⟨_, hfailures', hquiet', habove, hbelow⟩ := HealthMonitor.check_rounds config outcomes
  rw [lookup_rounds name rounds hnew]
  simp only [Option.some.injEq, exists_eq_left']
  constructor
  · intro ⟨_, _, hretries⟩
    by_cases hzero : failedLast config outcomes = 0
    · exact .inl hzero
    · exact .inr (hretries (hunhealthy (by omega)))
  · intro h
    refine ⟨?_, hfailures.trans hfailures'.symm, ?_⟩
    · by_cases hzero : failedLast config outcomes = 0
      · rw [hquiet hzero, hquiet' hzero]
        exact HealthStatus.sameKind_refl _
      · exact HealthStatus.sameKind_of_unhealthy (hunhealthy (by omega))
          (habove (by omega) (by omega))
    · intro hstatus
      rcases h with hzero | hretries
      · rw [hquiet hzero] at hstatus
        exact absurd hstatus (HealthMonitor.quietStatus_not_unhealthy outcomes)
      · exact hretries

/-- A web server with a health check. -/
def webChecked : ServiceManager (SledStore Serde.numbered) :=
  ((withStateDir SledStore.empty).startService obliging "web"
    (webProcess (some HealthCheck.default))).1

/-- Three rounds of a command that cannot be run. -/
theorem runHealthChecks_agrees_iff_web :
    let outcomes := List.replicate 3 unable.run
    let checked := outcomes.foldl (fun monitor run => (monitor.check run).1)
      (HealthMonitor.new HealthCheck.default)
    ∃ monitor,
      (after perform webChecked ((List.replicate 3 fun _ => unable.run).map
          .runHealthChecks)).healthMonitors.lookup "web" = some monitor ∧
        monitor.lastStatus.SameKind checked.lastStatus ∧
        monitor.consecutiveFailures = checked.consecutiveFailures ∧
        (monitor.lastStatus.IsUnhealthy →
          HealthCheck.default.retries.toNat ≤ failedLast HealthCheck.default outcomes) :=
  (runHealthChecks_agrees_iff webChecked "web" HealthCheck.default rfl
    (List.replicate 3 fun _ => unable.run)).mpr (.inr (Nat.le_refl 3))

/-- One check has failed of the three that the service may miss. -/
theorem web_disagrees :
    ¬ ∀ (manager : ServiceManager (SledStore Serde.numbered)) (name : String)
        (config : HealthCheck) (rounds : List (String → Commands)),
      manager.healthMonitors.lookup name = some (HealthMonitor.new config) →
      ∃ monitor,
        (after perform manager (rounds.map .runHealthChecks)).healthMonitors.lookup name =
            some monitor ∧
          monitor.lastStatus.SameKind ((rounds.map fun run => run name).foldl
            (fun monitor run => (monitor.check run).1) (HealthMonitor.new config)).lastStatus := by
  intro h
  obtain ⟨monitor, hmonitor, hsame⟩ :=
    h webChecked "web" HealthCheck.default [fun _ => unable.run] rfl
  obtain rfl : _ = monitor := Option.some.inj hmonitor
  exact hsame

end ServiceManager

end GraphHarness.Orchestration
