import GraphHarness.Harness.Clients

/-!
# What the daemon has after a stop

A service that the daemon is asked to stop is not active any more, whatever the answer, so
the loop leaves nothing of what it has come to.

> `stop_dependents`: when the daemon is asked to stop a service, no service that depends on
> it, directly or not, is active, as long as the stop is not forced or nothing is lost on the
> way.
>
> `forced_stop_clean`: whatever the clients have asked for, a forced stop of everything leaves
> no service active and no handle of a process.

`stop_service` takes the service out of the map before its executor is asked to stop it, so
the answer says nothing about whether the service is active. This is why the loop keeps its
promise also over lost answers, as long as the requests arrive.

The order of the loop comes from `Harness.Order`, and the invariant of the loop is that of
what it has come to (`loop_dependents`, `loop_clears`), from any daemon.
-/

namespace GraphHarness.StopSession

open Clients (Reached startedDaemon)
open Handlers (Rendering)
open Orchestration (RunningService ServiceManager)
open Protocol (Answer Request)
open Relation (TransGen)
open ServiceRegistry (RegistryBackend)
open Session (Lossy Turn send)
open StartSession (AsksStatus)
open Stop (Control Event Run handleAnswer isFailure plan)
open Trace (Dialogue)

/-! ## One round -/

section Daemon

variable {σ : Type} [RegistryBackend σ] (rendering : Rendering) (turns : Nat → Turn)
  (late : String → Nat → Nat) (cfg : Config) (force : Bool) (timeout : Option UInt64)

/-- How a round changes the daemon: the service is passed over, or it is asked for, and then
it is not active any more unless the request is lost. -/
inductive Round (name : String) (manager : ServiceManager σ) : ServiceManager σ →
    List Event → Control → Prop where
  | passed : name ∉ cfg.services → Round name manager manager [] .next
  | stopped (after : ServiceManager σ) (answer : Answer) (wait : List Event) (control : Control) :
    after.activeServices = manager.activeServices.erase name →
    (control = .stop → force = false) →
    Round name manager after ((.stopService name, answer) :: wait) control
  | lost (after : ServiceManager σ) (answer : Answer) (wait : List Event) :
    Lossy turns → after.activeServices = manager.activeServices →
    Round name manager after ((.stopService name, answer) :: wait) (if force then .next else .stop)

/-- One round of the loop, by what came of it. -/
theorem round_spec (name : String) (failures : List (String × String)) (manager : ServiceManager σ)
    (k : Nat) :
    let ended := (stopOneOver late cfg force timeout name failures).exec (send rendering turns)
      (manager, k)
    Round turns cfg force name manager ended.1.1 ended.2.1 ended.2.2.2 := by
  dsimp only
  unfold stopOneOver
  by_cases hname : name ∈ cfg.services
  · rw [if_pos hname]
    dsimp only [Dialogue.exec]
    rw [Dialogue.exec_map]
    dsimp only
    have hstop := Session.send_stop rendering turns (manager, k) name
    dsimp only at hstop
    generalize send rendering turns (manager, k) (.stopService name) = sent at hstop ⊢
    obtain ⟨world, answer⟩ := sent
    -- the wait asks for the status only
    have hwait : ((stopWait (late name) name timeout answer).exec
        (send rendering turns) world).1.1 = world.1 := by
      refine Dialogue.exec_invariant (fun world' : ServiceManager σ × Nat => world'.1 = world.1) ?_
        (Clients.stopWait_asks (late name) name timeout answer) rfl
      rintro world' request ⟨other, rfl⟩ hworld
      rw [Session.send_reads rendering turns world' fun _ => rfl]
      exact hworld
    have hcontrol := Stop.handleAnswer_control force failures name answer
    rw [hwait]
    rcases hstop with ⟨hactive, _⟩ | ⟨hlossy, hactive, hfailure⟩
    · refine .stopped _ answer _ _ hactive ?_
      intro hends
      cases force with
      | false => rfl
      | true =>
        rw [Bool.not_true, Bool.and_false] at hcontrol
        cases hcontrol.symm.trans hends
    · have hends : (handleAnswer force failures name answer).2 =
          if force then .next else .stop := by
        rw [hcontrol, hfailure]
        cases force with
        | false => rfl
        | true => rfl
      rw [hends]
      exact .lost _ answer _ hlossy hactive
  · rw [if_neg hname]
    exact .passed hname

variable {turns cfg force}

/-- A round sends one stop, and then asks for statuses. -/
theorem round_steps (name : String) (failures : List (String × String))
    (world : ServiceManager σ × Nat) :
    ∀ step ∈ (stopOneOver late cfg force timeout name failures).steps (send rendering turns) world,
      (step.1 = world ∧ step.2 = .stopService name) ∨ AsksStatus step.2 := by
  intro step hstep
  unfold stopOneOver at hstep
  split at hstep
  next =>
    rcases List.mem_cons.mp hstep with rfl | hwait
    · exact .inl ⟨rfl, rfl⟩
    · exact .inr (Dialogue.steps_imp
        (Dialogue.asks_map _ (Clients.stopWait_asks (late name) name timeout _)) step hwait)
  next => cases hstep

/-- The loop from a point on, one round at a time. -/
theorem exec_cons (name : String) (names : List String) (failures : List (String × String))
    (manager : ServiceManager σ) (k : Nat) :
    ∃ (after : ServiceManager σ) (k' : Nat) (events : List Event)
      (failures' : List (String × String)) (control : Control),
      Round turns cfg force name manager after events control ∧
      (stopAllOver late cfg force timeout (name :: names) failures).steps (send rendering turns)
          (manager, k) =
        (stopOneOver late cfg force timeout name failures).steps (send rendering turns)
          (manager, k) ++
        (if control = .next then
          (stopAllOver late cfg force timeout names failures').steps (send rendering turns)
            (after, k')
        else []) ∧
      (let ended := (stopAllOver late cfg force timeout (name :: names) failures).exec
          (send rendering turns) (manager, k)
       match control with
        | .next =>
          let later := (stopAllOver late cfg force timeout names failures').exec
            (send rendering turns) (after, k')
          ended.1.1 = later.1.1 ∧ ended.2.1 = events ++ later.2.1
        | .stop => ended.1.1 = after ∧ ended.2.1 = events) := by
  have hround := round_spec rendering turns late cfg force timeout name failures manager k
  rw [stopAllOver, Dialogue.exec_bind, Dialogue.steps_bind]
  dsimp only at hround
  generalize (stopOneOver late cfg force timeout name failures).exec (send rendering turns)
    (manager, k) = ended at hround ⊢
  obtain ⟨⟨after, k'⟩, events, failures', control⟩ := ended
  refine ⟨after, k', events, failures', control, hround, ?_, ?_⟩
  · cases control with
    | next => exact congrArg _ (Dialogue.steps_map ..)
    | stop => rfl
  · cases control with
    | next =>
      dsimp only
      rw [Dialogue.exec_map]
      exact ⟨rfl, rfl⟩
    | stop => exact ⟨rfl, rfl⟩

/-- Behind the current position nothing is active, and a service of the order comes after
those that depend on it. -/
theorem loop_dependents {before : ServiceManager σ} (hsafe : force = false ∨ ¬ Lossy turns) :
    ∀ (names done : List String) (failures : List (String × String)) (manager : ServiceManager σ)
      (k : Nat),
      (∀ pre s post, done ++ names = pre ++ s :: post → ∀ t, TransGen cfg.DependsOn t s →
        t ∈ before.activeServices → t ∈ pre) →
      (∀ t ∈ manager.activeServices, t ∈ before.activeServices) →
      (∀ t ∈ done, t ∈ cfg.services → t ∉ manager.activeServices) →
      ∀ step ∈ (stopAllOver late cfg force timeout names failures).steps (send rendering turns)
        (manager, k), ∀ s, step.2 = .stopService s → ∀ t, TransGen cfg.DependsOn t s →
          t ∉ step.1.1.activeServices := by
  -- by induction on the names; what is behind the loop is not active any more
  intro names
  induction names with
  | nil =>
    intro done failures manager k _ _ _ step hstep
    cases hstep
  | cons name names ih =>
    intro done failures manager k hord hshrinks hdone step hstep s hasked t ht
    obtain ⟨after, k', events, failures', control, hround, hsteps, _⟩ :=
      @exec_cons σ _ rendering turns late cfg force timeout name names failures manager k
    rw [hsteps] at hstep
    rcases List.mem_append.mp hstep with hnow | hlater
    -- this round asks for its own service, and the dependents of that are behind the loop
    · rcases round_steps rendering late timeout name failures (manager, k) step hnow with
        ⟨hworld, hname⟩ | ⟨other, hother⟩
      · obtain rfl := Request.stopService.inj (hasked.symm.trans hname)
        rw [hworld]
        intro hactive
        obtain ⟨_, hedge, _⟩ := Relation.TransGen.head'_iff.mp ht
        exact hdone t (hord done s names rfl t ht (hshrinks t hactive))
          (Dependencies.mem_services_of_dependsOn hedge) hactive
      · cases hasked.symm.trans hother
    -- a later round, from the state that this one has left
    · by_cases hnext : control = .next
      · rw [if_pos hnext] at hlater
        have hsplit : done ++ name :: names = (done ++ [name]) ++ names := by simp
        have hafter : (∀ t ∈ after.activeServices, t ∈ manager.activeServices) ∧
            (name ∈ cfg.services → name ∉ after.activeServices) := by
          cases hround with
          | passed hname => exact ⟨fun _ hmem => hmem, fun hmem => absurd hmem hname⟩
          | stopped _ _ _ _ hactive _ =>
            rw [hactive]
            exact ⟨fun t hmem => (AList.mem_erase.mp hmem).2, fun _ hmem =>
              (AList.mem_erase.mp hmem).1 rfl⟩
          | lost _ _ _ hlossy _ =>
            -- a loop that goes on behind an error is forced
            rcases hsafe with hforce | hlossless
            · rw [hforce] at hnext
              cases hnext
            · exact absurd hlossy hlossless
        refine ih (done ++ [name]) failures' after k' (hsplit ▸ hord) ?_ ?_ step hlater s hasked t ht
        · exact fun t hmem => hshrinks t (hafter.1 t hmem)
        · intro t htdone hcfg
          rcases List.mem_append.mp htdone with htdone | htdone
          · exact fun hmem => hdone t htdone hcfg (hafter.1 t hmem)
          · obtain rfl := List.mem_singleton.mp htdone
            exact hafter.2 hcfg
      · rw [if_neg hnext] at hlater
        cases hlater

/-- A forced loop that loses nothing leaves no service active that it has come to. -/
theorem loop_clears (hforce : force = true) (hlossless : ¬ Lossy turns) :
    ∀ (names : List String) (failures : List (String × String)) (manager : ServiceManager σ)
      (k : Nat), ∀ n ∈ ((stopAllOver late cfg force timeout names failures).exec
        (send rendering turns) (manager, k)).1.1.activeServices,
          n ∈ manager.activeServices ∧ (n ∈ names → n ∉ cfg.services) := by
  intro names
  induction names with
  | nil =>
    intro failures manager k n hn
    exact ⟨hn, fun hmem => by cases hmem⟩
  | cons name names ih =>
    intro failures manager k n hn
    obtain ⟨after, k', events, failures', control, hround, _, hended⟩ :=
      @exec_cons σ _ rendering turns late cfg force timeout name names failures manager k
    have hafter : control = .next ∧ ∀ n ∈ after.activeServices,
        n ∈ manager.activeServices ∧ (n = name → n ∉ cfg.services) := by
      cases hround with
      | passed hname => exact ⟨rfl, fun n hmem => ⟨hmem, fun heq => heq ▸ hname⟩⟩
      | stopped _ _ _ _ hactive hstops =>
        refine ⟨?_, ?_⟩
        · cases control with
          | next => rfl
          | stop =>
            rw [hstops rfl] at hforce
            cases hforce
        · rw [hactive]
          intro n hmem
          obtain ⟨hne, hmem⟩ := AList.mem_erase.mp hmem
          exact ⟨hmem, fun heq => absurd heq hne⟩
      | lost _ _ _ hlossy _ => exact absurd hlossy hlossless
    obtain ⟨rfl, hafter⟩ := hafter
    rw [hended.1] at hn
    obtain ⟨hactive, hnames⟩ := ih failures' after k' n hn
    obtain ⟨hmanager, hname⟩ := hafter n hactive
    refine ⟨hmanager, fun hmem => ?_⟩
    rcases List.mem_cons.mp hmem with heq | hmem
    · exact hname heq
    · exact hnames hmem

/-! ## Whole sessions -/

/-- Every active service is listed as running. -/
theorem mem_runningServices {world : ServiceManager σ × Nat}
    {services : HashMap String Orchestration.ServiceStatus}
    (h : (send rendering turns world .listServices).2 = .ok (.serviceList services)) {t : String}
    (ht : t ∈ world.1.activeServices) : t ∈ Stop.runningServices services := by
  obtain ⟨_, ⟨_, e, herror⟩ | ⟨services', hlist, hlookup⟩⟩ :=
    Session.send_list rendering turns world
  · cases herror.symm.trans h
  · obtain rfl := Protocol.Response.serviceList.inj (Except.ok.inj (hlist.symm.trans h))
    have hstatus := hlookup t
    rw [if_pos ht] at hstatus
    refine List.mem_filterMap.mpr ⟨⟨t, _⟩, AList.mem_lookup_iff.mp hstatus, ?_⟩
    rcases Handlers.status_active (turns world.2).outside ht with hrunning | hunhealthy
    · rw [hrunning]
      rfl
    · rw [hunhealthy]
      rfl

/-- **A service is stopped behind everything that depends on it.** Whenever the daemon is
asked to stop a service, no service that depends on it is active, whatever could not be
stopped and whatever was lost on the way; a stop that is forced may lose nothing. -/
theorem stop_dependents {valid : HashOrder} (hvalid : Parser.validateConfig valid cfg = .ok ())
    (hsafe : force = false ∨ ¬ Lossy turns) (ordAffected ordStop : HashOrder)
    (services : List String) (input : Except String String) (world : ServiceManager σ × Nat) :
    ∀ step ∈ (run late cfg force timeout ordAffected ordStop services input).steps
      (send rendering turns) world, ∀ s, step.2 = .stopService s →
        ∀ t, TransGen cfg.DependsOn t s → t ∉ step.1.1.activeServices := by
  have hdeps := Parser.validateConfig_dependenciesExist hvalid
  intro step hstep s hasked t ht
  unfold run at hstep
  rcases List.mem_cons.mp hstep with rfl | hstep
  · cases hasked
  · have hsame := (Session.send_list rendering turns world).1
    have hrunning := fun services => @mem_runningServices σ _ rendering turns world services
    generalize send rendering turns world .listServices = sent at hstep hsame hrunning
    obtain ⟨⟨manager, k⟩, list⟩ := sent
    obtain rfl : manager = world.1 := hsame
    dsimp only at hstep hrunning
    split at hstep
    next => cases hstep
    next => cases hstep
    next => cases hstep
    next ordered hplan =>
      rw [Dialogue.steps_map] at hstep
      refine loop_dependents rendering late timeout hsafe ordered [] [] world.1 k ?_
        (fun _ hmem => hmem) (by simp) step hstep s hasked t ht
      intro pre s post hsplit t ht hactive
      let quiet : Stop.Daemon := ⟨list, fun _ => .error "", fun _ _ => (0, .error "")⟩
      have hlisted : Stop.Listed quiet t := by
        obtain ⟨serviceStatus, _, _, hlist, _⟩ := Stop.plan_ordered hplan
        exact ⟨serviceStatus, hlist, hrunning serviceStatus hlist hactive⟩
      exact @Stop.dependents_before cfg hdeps ordAffected ordStop quiet services force input
        ordered hplan pre post s t hsplit ht hlisted

/-- Everything is stopped where the whole of the daemon is asked for. -/
theorem plan_all (hdeps : cfg.DependenciesExist)
    (hacyclic : ∀ x, ¬ TransGen cfg.DependsOn x x) (ordAffected ordStop : HashOrder)
    (serviceStatus : HashMap String Orchestration.ServiceStatus) (input : Except String String) :
    (Stop.runningServices serviceStatus = [] ∧
      plan ordAffected ordStop (.ok (.serviceList serviceStatus)) cfg [] true input =
        some (.ok none)) ∨
    ∃ ordered, (∀ n ∈ Stop.runningServices serviceStatus, n ∈ ordered) ∧
      plan ordAffected ordStop (.ok (.serviceList serviceStatus)) cfg [] true input =
        some (.ok (some ordered)) := by
  have hdepth := Nat.lt_succ_self cfg.services.keys.length
  unfold plan
  dsimp only
  rw [Stop.servicesToStop, if_pos rfl]
  by_cases hnone : Stop.runningServices serviceStatus = []
  · exact .inl ⟨hnone, if_pos hnone⟩
  · right
    obtain ⟨affected, haffected⟩ := Dependencies.getAffectedServices_total hdeps ordAffected hdepth
      (Stop.runningServices serviceStatus)
    obtain ⟨sorted, hsorted⟩ := Dependencies.reverseTopologicalSort_total hdeps ordStop hdepth
      (Stop.runningServices serviceStatus)
    rw [if_neg hnone, haffected]
    cases sorted with
    | error e =>
      obtain ⟨c, hcycle⟩ := (Dependencies.reverseTopologicalSort_error_iff hdeps hsorted).mp ⟨e, rfl⟩
      have hfull : TransGen cfg.DependsOn c c := TransGen.mono (fun _ _ h => h.2.2) _ _ hcycle
      exact absurd hfull (hacyclic c)
    | ok order =>
      have hclosure := (Dependencies.reverseTopologicalSort_spec hdeps hsorted).2.1
      refine ⟨order.filter fun s => s ∈ Stop.runningServices serviceStatus, ?_, ?_⟩
      · intro n hn
        refine List.mem_filter.mpr ⟨(hclosure n).mpr ?_, by simpa using hn⟩
        rw [Dependencies.dependentClosure, if_neg hnone]
        exact ⟨n, hn, .refl⟩
      · simp [Stop.orderedServices, hsorted, Except.map]

/-- A map without keys is empty. -/
theorem eq_empty {ν : Type} {κ : Type} {map : HashMap κ ν} (h : ∀ key, key ∉ map) : map = ∅ :=
  AList.ext (List.map_eq_nil_iff.mp (List.eq_nil_iff_forall_not_mem.mpr h))

/-- **A forced stop leaves nothing behind.** Whatever the clients have asked for, and whatever
was lost of it, a forced stop of everything that loses nothing leaves no service active and no
handle of a process, also where a service could not be stopped. -/
theorem forced_stop_clean {valid : HashOrder} (hvalid : Parser.validateConfig valid cfg = .ok ())
    (hacyclic : ∀ x, ¬ TransGen cfg.DependsOn x x) {world : ServiceManager σ × Nat}
    (hworld : Reached cfg world) (hlossless : ¬ Lossy turns) (ordAffected ordStop : HashOrder)
    (input : Except String String) :
    let stopped := ((run late cfg true timeout ordAffected ordStop [] input).exec
      (send rendering turns) world).1.1
    stopped.activeServices = ∅ ∧ stopped.runningProcesses = ∅ := by
  intro stopped
  have hdeps := Parser.validateConfig_dependenciesExist hvalid
  have htracked : stopped.Tracked :=
    (hworld.exec (Clients.stop_asks late cfg true timeout ordAffected ordStop [] input) rendering
      turns).tracked
  have hempty : ∀ n, n ∉ stopped.activeServices := by
    intro n hn
    obtain ⟨hsame, hlist⟩ := Session.send_list rendering turns world
    have hrunning := fun services => @mem_runningServices σ _ rendering turns world services
    have hstopped : stopped = ((run late cfg true timeout ordAffected ordStop [] input).exec
      (send rendering turns) world).1.1 := rfl
    unfold run at hstopped
    dsimp only [Dialogue.exec] at hstopped
    rcases hlist with ⟨hlossy, _⟩ | ⟨serviceStatus, hlist, _⟩
    · exact hlossless hlossy
    · rw [hlist] at hstopped
      rcases plan_all hdeps hacyclic ordAffected ordStop serviceStatus input with
        ⟨hnone, hplan⟩ | ⟨ordered, hall, hplan⟩
      · rw [hplan] at hstopped
        rw [hstopped] at hn
        have hmem := hrunning serviceStatus hlist (hsame ▸ hn)
        rw [hnone] at hmem
        cases hmem
      · rw [hplan] at hstopped
        dsimp only at hstopped
        rw [Dialogue.exec_map] at hstopped
        rw [hstopped] at hn
        obtain ⟨hactive, hclears⟩ := loop_clears rendering late timeout rfl hlossless ordered [] _ _
          n hn
        rw [hsame] at hactive
        exact hclears (hall n (hrunning serviceStatus hlist hactive)) (hworld.conforms.mem hactive)
  refine ⟨eq_empty hempty, eq_empty ?_⟩
  intro id hid
  obtain ⟨name, service, hservice, _⟩ := htracked.owned id hid
  exact hempty name (AList.lookup_isSome.mp (by simp [hservice]))

end Daemon

/-! ## Two services -/

/-- The only dependency of the example. -/
theorem dependsOn_api {a b : String} (h : Stop.apiConfig.DependsOn a b) : a = "api" ∧ b = "db" := by
  obtain ⟨service, hlookup, hb⟩ := h
  unfold Stop.apiConfig at hlookup
  dsimp only at hlookup
  by_cases hapi : a = "api"
  · subst hapi
    rw [AList.lookup_insert] at hlookup
    obtain rfl := Option.some.inj hlookup
    exact ⟨rfl, by simpa [Dependencies.processService] using hb⟩
  · rw [AList.lookup_insert_ne hapi] at hlookup
    by_cases hdb : a = "db"
    · subst hdb
      rw [AList.lookup_insert] at hlookup
      obtain rfl := Option.some.inj hlookup
      simp [Dependencies.processService] at hb
    · rw [AList.lookup_insert_ne hdb, AList.lookup_empty] at hlookup
      cases hlookup

/-- The example has no cycle. -/
theorem acyclic_api (x : String) : ¬ TransGen Stop.apiConfig.DependsOn x x := by
  intro hcycle
  obtain ⟨_, hfirst, _⟩ := Relation.TransGen.head'_iff.mp hcycle
  obtain ⟨_, _, hlast⟩ := Relation.TransGen.tail'_iff.mp hcycle
  have hx := (dependsOn_api hfirst).1.symm.trans (dependsOn_api hlast).2
  exact absurd hx (by decide)

/-- No answer of an obliging turn is lost. -/
theorem not_lossy_obliging : ¬ Lossy fun _ => StartSession.obligingTurn :=
  fun ⟨_, hlost⟩ => hlost rfl

/-- A stop of everything, on a daemon that runs both. -/
theorem stop_dependents_api :
    "api" ∈ (startedDaemon Stop.apiConfig).1.activeServices ∧
      ∀ step ∈ (run (fun _ _ => 0) Stop.apiConfig false none HashOrder.stored HashOrder.stored []
          (.ok "y")).steps (send StartSession.plainRendering fun _ => StartSession.obligingTurn)
          (startedDaemon Stop.apiConfig),
        step.2 = .stopService "db" → "api" ∉ step.1.1.activeServices := by
  refine ⟨by decide +kernel, ?_⟩
  intro step hstep hasked
  have hdepends : Stop.apiConfig.DependsOn "api" "db" := ⟨_, rfl, by decide⟩
  exact @stop_dependents _ _ StartSession.plainRendering (fun _ => StartSession.obligingTurn)
    (fun _ _ => 0) Stop.apiConfig false none HashOrder.stored (by decide) (.inl rfl)
    HashOrder.stored HashOrder.stored [] (.ok "y") (startedDaemon Stop.apiConfig) step hstep "db" hasked "api"
    (TransGen.single hdepends)

/-- A forced stop of everything. -/
theorem forced_stop_clean_api :
    let stopped := ((run (fun _ _ => 0) Stop.apiConfig true none HashOrder.stored HashOrder.stored
      [] (.ok "")).exec (send StartSession.plainRendering fun _ => StartSession.obligingTurn)
      (startedDaemon Stop.apiConfig)).1.1
    "api" ∈ (startedDaemon Stop.apiConfig).1.activeServices ∧ stopped.activeServices = ∅ ∧
      stopped.runningProcesses = ∅ :=
  ⟨by decide +kernel, @forced_stop_clean _ _ StartSession.plainRendering
    (fun _ => StartSession.obligingTurn) (fun _ _ => 0) Stop.apiConfig none HashOrder.stored
    (by decide) acyclic_api (startedDaemon Stop.apiConfig) (Clients.reached_startedDaemon Stop.apiConfig) not_lossy_obliging
    HashOrder.stored HashOrder.stored (.ok "")⟩

end GraphHarness.StopSession
