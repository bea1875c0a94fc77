import GraphHarness.Harness.StartDependencies

/-!
# The summary of a start

Three lists, kept or computed on different paths of the loop: what was started, what has
failed, and, if anything has, what was not started.

> `run_reports`: the three lists are the start order, each service in one of them and
> once; what was started is what was answered so, and the run is `Ok` exactly if that is
> the whole order.

The invariant is `Tallied`: what is behind the current position was started or has
failed, and not both.

The list of what was not started is computed at the end, from the order and the two lists; the
other two are kept by the loop. `run_report` says what the summary is made of; an error that
is passed on before the end of the loop leaves none.

The count of the failures in the error is that of the list, and a service has one failure at
most, as the loop goes on to the next service behind each.
-/

namespace GraphHarness.Start

open Protocol (Request Response Answer)

/-- The services that failed. -/
def State.failedNames (st : State) : List String := st.failures.map Prod.fst

/-! ## One round -/

/-- An answer puts the service on one of the two lists. -/
theorem handleAnswer_lists (st : State) (name : String) (answer : Answer) :
    (isStarted answer = true ∧ (handleAnswer st name answer).2 = .next ∧
      (handleAnswer st name answer).1.startedServices = st.startedServices ++ [name] ∧
      (handleAnswer st name answer).1.failures = st.failures) ∨
    (isStarted answer = false ∧
      (handleAnswer st name answer).1.startedServices = st.startedServices ∧
      ∃ error, (handleAnswer st name answer).1.failures = st.failures ++ [(name, error)]) := by
  cases answer with
  | error e => exact .inr ⟨rfl, rfl, e, rfl⟩
  | ok response =>
    cases response with
    | serviceStarted n info => exact .inl ⟨rfl, rfl, rfl, rfl⟩
    | success => exact .inl ⟨rfl, rfl, rfl, rfl⟩
    | error message => exact .inr ⟨rfl, rfl, message, rfl⟩
    | _ => exact .inr ⟨rfl, rfl, "Unexpected response", rfl⟩

/-- Behind the current position every service is on exactly one of the two lists, and on
the first if it was started. -/
structure Tallied (behind : List String) (past : List Event) (st : State) : Prop where
  listed : (st.startedServices ++ st.failedNames).Perm behind
  answered : ∀ d, d ∈ st.startedServices ↔ WasStarted past d

/-- A round that is not given up puts its service on a list; if it ends the loop, that is
the list of failures. -/
theorem Tallied.step {behind : List String} {past : List Event} {st : State} {name : String}
    (h : Tallied behind past st) {daemon : Daemon} {processEnv : HashMap String String}
    {cfg : Config} {events : List Event} {st' : State} {control : Control}
    (hstep : startOne daemon processEnv cfg name st = (events, st', control))
    (hgoes : ∀ message, control ≠ .fail message) :
    Tallied (behind ++ [name]) (past ++ events) st' ∧ (control = .stop → st'.failures ≠ []) := by
  rcases startOne_cases daemon processEnv cfg name st with
    ⟨_, hs⟩ | ⟨_, e, _, hs⟩ | ⟨_, config, wait, _, hs, hwait⟩
  · rw [hs] at hstep
    obtain ⟨_, _, rfl⟩ := by simpa using hstep
    exact absurd rfl (hgoes _)
  · rw [hs] at hstep
    obtain ⟨rfl, rfl, rfl⟩ : _ = events ∧ _ = st' ∧ _ = control := by simpa using hstep
    refine ⟨⟨?_, ?_⟩, by simp⟩
    · rw [State.failedNames, State.addFailure, List.map_append, ← List.append_assoc]
      exact h.listed.append_right [name]
    · intro d
      rw [wasStarted_append, State.addFailure, h.answered]
      simp
  · rw [hs] at hstep
    obtain ⟨rfl, hanswer⟩ := Prod.mk.inj hstep
    have hst : (handleAnswer st name (daemon.start name)).1 = st' := by rw [hanswer]
    have hcontrol : (handleAnswer st name (daemon.start name)).2 = control := by rw [hanswer]
    rcases handleAnswer_lists st name (daemon.start name) with
      ⟨hstart, hnext, hstarted, hfailures⟩ | ⟨hstart, hstarted, error, hfailures⟩
    · rw [hst] at hstarted hfailures
      refine ⟨⟨?_, ?_⟩, ?_⟩
      · rw [State.failedNames, hstarted, hfailures]
        refine .trans ?_ (h.listed.append_right [name])
        rw [List.append_assoc, List.append_assoc]
        exact List.perm_append_comm.append_left _
      · intro d
        rw [wasStarted_append, wasStarted_sent hwait, hstarted, List.mem_append, h.answered]
        simp [hstart]
      · intro hstop
        rw [← hcontrol, hnext] at hstop
        cases hstop
    · rw [hst] at hstarted hfailures
      refine ⟨⟨?_, ?_⟩, ?_⟩
      · rw [State.failedNames, hstarted, hfailures, List.map_append, ← List.append_assoc]
        exact h.listed.append_right [name]
      · intro d
        rw [wasStarted_append, wasStarted_sent hwait, hstarted, h.answered]
        simp [hstart]
      · intro _
        rw [hfailures]
        simp

/-! ## The loop -/

/-- Where the loop ends, the services up to there are tallied; the others are left only
behind a failure. -/
theorem startAll_tallied {daemon : Daemon} {processEnv : HashMap String String} {cfg : Config} :
    ∀ (names behind : List String) (past : List Event) (st : State), Tallied behind past st →
      ∀ (events : List Event) (st' : State),
        startAll daemon processEnv cfg names st = (events, .ok st') →
        ∃ done ahead, behind ++ names = done ++ ahead ∧ Tallied done (past ++ events) st' ∧
          (ahead = [] ∨ st'.failures ≠ []) := by
  intro names
  induction names with
  | nil =>
    intro behind past st h events st' hloop
    obtain ⟨rfl, rfl⟩ : [] = events ∧ st = st' := by simpa [startAll] using hloop
    exact ⟨behind, [], rfl, by rwa [List.append_nil], .inl rfl⟩
  | cons name names ih =>
    intro behind past st h events st' hloop
    rw [startAll] at hloop
    cases hstep : startOne daemon processEnv cfg name st with
    | mk round rest =>
      obtain ⟨next, control⟩ := rest
      rw [hstep] at hloop
      cases control with
      | fail message => simp at hloop
      | stop =>
        obtain ⟨rfl, rfl⟩ : round = events ∧ next = st' := by simpa using hloop
        obtain ⟨htallied, hfailed⟩ := h.step hstep (by simp)
        exact ⟨behind ++ [name], names, by simp, htallied, .inr (hfailed rfl)⟩
      | next =>
        obtain ⟨htallied, _⟩ := h.step hstep (by simp)
        cases hlater : startAll daemon processEnv cfg names next with
        | mk later result =>
          dsimp only at hloop
          rw [hlater] at hloop
          obtain ⟨rfl, rfl⟩ : round ++ later = events ∧ result = .ok st' := by simpa using hloop
          obtain ⟨done, ahead, hsplit, hdone, hahead⟩ := ih _ _ _ htallied later st' hlater
          refine ⟨done, ahead, ?_, ?_, hahead⟩
          · rw [← hsplit, List.append_assoc]
            rfl
          · rwa [← List.append_assoc]

/-- Nothing is tallied yet. -/
theorem tallied_initial (processEnv : HashMap String String) :
    Tallied [] [] (initialState processEnv) :=
  ⟨by simp [initialState, State.failedNames], by simp [initialState, WasStarted]⟩

/-! ## The summary -/

/-- What a summary says of a start order. -/
structure Accounts (ordered : List String) (events : List Event) (report : Report)
    (result : Except String Unit) : Prop where
  distinct : (report.started ++ report.failures.map Prod.fst ++ report.notStarted).Nodup
  complete : ∀ s, s ∈ report.started ++ report.failures.map Prod.fst ++ report.notStarted ↔
    s ∈ ordered
  answered : ∀ s, s ∈ report.started ↔ WasStarted events s
  ok : result = .ok () ↔ ∀ s ∈ ordered, WasStarted events s

/-- The services that are not started are those the loop has not come to. -/
theorem notStarted_eq {st : State} {done ahead : List String} {past : List Event}
    (h : Tallied done past st) (hnodup : (done ++ ahead).Nodup)
    (hahead : ahead = [] ∨ st.failures ≠ []) : notStarted (done ++ ahead) st = ahead := by
  unfold notStarted
  split
  next hnone => exact (hahead.resolve_right (fun hfailures => hfailures hnone)).symm
  next =>
    have hlisted : ∀ s, decide (s ∉ st.startedServices ∧ ∀ failure ∈ st.failures, failure.1 ≠ s) =
        decide (s ∉ done) := by
      intro s
      rw [decide_eq_decide, ← h.listed.mem_iff, List.mem_append, not_or, State.failedNames,
        List.mem_map]
      push Not
      rfl
    simp only [hlisted]
    rw [List.filter_append, List.filter_eq_nil_iff.mpr (by simp), List.nil_append,
      List.filter_eq_self.mpr]
    intro s hs
    have hfresh := (List.nodup_append.mp hnodup).2.2
    exact decide_eq_true fun hdone => hfresh s hdone s hs rfl

/-- The summary accounts for each service that was ordered. -/
theorem summarize_accounts {ordered done ahead : List String} {events : List Event} {st : State}
    (hsplit : ordered = done ++ ahead) (hnodup : ordered.Nodup) (h : Tallied done events st)
    (hahead : ahead = [] ∨ st.failures ≠ []) :
    Accounts ordered events ⟨st.startedServices, st.failures, notStarted ordered st⟩
      (if st.failures = [] then .ok ()
        else .error (Nat.repr st.failures.length ++ " services failed to start")) := by
  subst hsplit
  have hperm : (st.startedServices ++ st.failures.map Prod.fst ++
      notStarted (done ++ ahead) st).Perm (done ++ ahead) := by
    rw [notStarted_eq h hnodup hahead]
    exact h.listed.append_right ahead
  have hdistinct := hperm.nodup_iff.mpr hnodup
  refine ⟨hdistinct, fun s => hperm.mem_iff, h.answered, ?_⟩
  constructor
  · intro hok s hs
    have hnone : st.failures = [] := by
      by_contra hfailures
      simp [hfailures] at hok
    obtain rfl := hahead.resolve_right (fun hfailures => hfailures hnone)
    rw [List.append_nil, ← h.listed.mem_iff, State.failedNames, hnone] at hs
    exact (h.answered s).mp (by simpa using hs)
  · intro hall
    -- a service that has failed is in the order, and on one of the lists only
    have hnone : st.failures = [] := by
      rw [List.eq_nil_iff_forall_not_mem]
      intro failure hfailure
      have hname : failure.1 ∈ st.failures.map Prod.fst := List.mem_map_of_mem hfailure
      have hordered : failure.1 ∈ done ++ ahead := by
        rw [← hperm.mem_iff]
        exact List.mem_append_left _ (List.mem_append_right _ hname)
      have hstarted := (h.answered failure.1).mpr (hall failure.1 hordered)
      have hapart := (List.nodup_append.mp (List.nodup_append.mp hdistinct).1).2.2
      exact hapart failure.1 hstarted failure.1 hname rfl
    rw [if_pos hnone]

/-- A run with a summary has come through the loop. -/
theorem run_report {ord : HashOrder} {daemon : Daemon} {processEnv : HashMap String String}
    {cfg : Config} {services : List String} {r : Run} {report : Report}
    (hrun : run ord daemon processEnv cfg services = some r) (hreport : r.report = some report) :
    ∃ ordered st, Dependencies.topologicalSort ord (cfg.services.keys.length + 1) cfg services =
        some (.ok ordered) ∧
      startAll daemon processEnv cfg ordered (initialState processEnv) = (r.events, .ok st) ∧
      report = ⟨st.startedServices, st.failures, notStarted ordered st⟩ ∧
      r.result = if st.failures = [] then .ok ()
        else .error (Nat.repr st.failures.length ++ " services failed to start") := by
  unfold run at hrun
  split at hrun
  next ordered hs =>
    obtain rfl := Option.some.inj hrun
    cases hloop : startAll daemon processEnv cfg ordered (initialState processEnv) with
    | mk events result =>
      rw [hloop] at hreport
      cases result with
      | error message => cases hreport
      | ok st => exact ⟨ordered, st, hs, hloop, (Option.some.inj hreport).symm, rfl⟩
  next =>
    obtain rfl := Option.some.inj hrun
    cases hreport
  next => cases hrun

/-- **The start report accounts for every service.** In a run that reaches its summary, on
a validated configuration, the three lists are the start order without duplicates, a
service is reported as started exactly if its request was answered so, and the run is
`Ok` exactly if all of them were. -/
theorem run_reports {valid : HashOrder} {cfg : Config}
    (hvalid : Parser.validateConfig valid cfg = .ok ()) (ord : HashOrder) (daemon : Daemon)
    (processEnv : HashMap String String) (services : List String) {r : Run} {report : Report}
    (hrun : run ord daemon processEnv cfg services = some r) (hreport : r.report = some report) :
    ∃ ordered, Dependencies.topologicalSort ord (cfg.services.keys.length + 1) cfg services =
        some (.ok ordered) ∧ Accounts ordered r.events report r.result := by
  have hdeps := Parser.validateConfig_dependenciesExist hvalid
  obtain ⟨ordered, st, hs, hloop, rfl, hresult⟩ := run_report hrun hreport
  obtain ⟨done, ahead, hsplit, htallied, hahead⟩ :=
    startAll_tallied ordered [] [] _ (tallied_initial processEnv) r.events st hloop
  refine ⟨ordered, hs, ?_⟩
  rw [hresult]
  exact summarize_accounts hsplit (Dependencies.topologicalSort_nodup hdeps hs) htallied hahead

/-- Without the password: `api` is started, `db` has failed. -/
theorem run_reports_password :
    ∃ r report, run HashOrder.stored obligingDaemon ∅ passwordConfig ["api"] = some r ∧
      r.report = some report ∧
      ∃ ordered, Dependencies.topologicalSort HashOrder.stored
          (passwordConfig.services.keys.length + 1) passwordConfig ["api"] = some (.ok ordered) ∧
        Accounts ordered r.events report r.result := by
  have hvalid : Parser.validateConfig HashOrder.stored passwordConfig = .ok () := by decide
  have hsome : ((run HashOrder.stored obligingDaemon ∅ passwordConfig ["api"]).bind
      Run.report).isSome = true := by decide
  obtain ⟨report, hbind⟩ := Option.isSome_iff_exists.mp hsome
  obtain ⟨r, hr, hreport⟩ := Option.bind_eq_some_iff.mp hbind
  exact ⟨r, report, hr, hreport,
    run_reports hvalid HashOrder.stored obligingDaemon ∅ ["api"] hr hreport⟩

end GraphHarness.Start
