import GraphHarness.Config.Types
import GraphHarness.Harness.Handlers
import GraphHarness.Orchestration.Tracking

/-!
# `harness status` (`commands/status.rs`)

One round of the command: the answer of the daemon, and the table that is made of it. The
detailed table cuts the identifier of a container to its first twelve bytes, and would
panic on a shorter one. Watch mode is one round after the other; the printing is left out.

> `tables_agree`: whatever the daemon was asked before, both tables can be made, and say the
> same of every service of the configuration.

The two tables are made from two different requests, one for the statuses and one for the
details. `Agree` compares what a row says about the status; network, process and endpoints are
only in one of the tables.

Colors are part of the rows, as the source decides them together with the text. The rows come
in the order of the configuration.
-/

namespace GraphHarness.Status

open Handlers (Rendering Surroundings handleRequest serve)
open Orchestration (RunningService ServiceManager ServiceStatus)
open Protocol (Answer DetailedServiceInfo ServiceNetworkInfo)
open ServiceRegistry (RegistryBackend)
open Trace (after after_invariant)

/-- The colors of the table. -/
inductive Color where
  | darkGrey
  | yellow
  | green
  | red
  deriving DecidableEq, Repr

/-- A row of the short table. -/
structure BasicRow where
  service : String
  status : String
  color : Color
  health : String
  deriving DecidableEq, Repr

/-- The row of a service; the message of a failure stands in the column of its health. -/
def basicRow (name : String) : ServiceStatus → BasicRow
  | .stopped => ⟨name, "stopped", .darkGrey, "-"⟩
  | .starting => ⟨name, "starting", .yellow, "..."⟩
  | .running => ⟨name, "running", .green, "healthy"⟩
  | .unhealthy => ⟨name, "running", .red, "unhealthy"⟩
  | .failed message => ⟨name, "failed", .red, message⟩

/-- `display_basic_table`. The rows are in the order of the configuration. -/
def displayBasicTable (servicesStatus : HashMap String ServiceStatus) (config : Config) :
    List BasicRow :=
  config.services.keys.map fun name =>
    basicRow name ((servicesStatus.lookup name).getD .stopped)

/-- A row of the detailed table. -/
structure DetailedRow where
  service : String
  status : String
  color : Color
  network : String
  process : String
  dependencies : String
  endpoints : String
  deriving DecidableEq, Repr

/-- The status in the detailed table; a service the daemon does not list is unknown. -/
def detailedStatus : Option DetailedServiceInfo → String × Color
  | some info =>
    match info.status with
    | .stopped => ("stopped", .darkGrey)
    | .starting => ("starting", .yellow)
    | .running => ("running", .green)
    | .unhealthy => ("unhealthy", .red)
    | .failed _ => ("failed", .red)
  | none => ("unknown", .darkGrey)

/-- The column of the network. -/
def networkText : Option ServiceNetworkInfo → String
  | some net =>
    match net.port with
    | some port =>
      let ip := net.ip
      s!"{ip}:{port}"
    | none => net.ip
  | none => "-"

/-- What is shown of a process or a container, unless the slice panics. -/
def processText (info : DetailedServiceInfo) : Option String :=
  match info.pid with
  | some pid => some s!"PID {pid}"
  | none =>
    match info.containerId with
    | some container => (bytePrefix 12 container.toList).map fun short =>
      let short := String.ofList short
      s!"Container {short}"
    | none => some "-"

/-- The column of the endpoints. -/
def endpointsText (endpoints : HashMap String String) : String :=
  if endpoints.entries = [] then "-"
  else ", ".intercalate (endpoints.entries.map fun entry =>
    let key := entry.1
    let value := entry.2
    s!"{key}:{value}")

/-- The column of the dependencies. -/
def dependenciesText (dependencies : List String) : String :=
  let text := ", ".intercalate dependencies
  if text = "" then "-" else text

/-- The row of a service; the text of its process may panic. -/
def detailedRow (name : String) (service : Service) (info : Option DetailedServiceInfo) :
    Option DetailedRow :=
  let status := detailedStatus info
  let process := match info with
    | some info => processText info
    | none => some "-"
  process.map fun process =>
    { service := name
      status := status.1
      color := status.2
      network := networkText (info.bind DetailedServiceInfo.networkInfo)
      process := process
      dependencies := dependenciesText service.dependencies
      endpoints := match info with
        | some info => endpointsText info.endpoints
        | none => "-" }

/-- `display_detailed_table`: the rows, unless one of them panics. -/
def displayDetailedTable (detailedServices : List DetailedServiceInfo) (config : Config) :
    Option (List DetailedRow) :=
  let serviceMap := HashMap.collect (detailedServices.map fun info => (info.name, info))
  config.services.entries.mapM fun entry =>
    detailedRow entry.1 entry.2 (serviceMap.lookup entry.1)

/-- What is printed. -/
inductive Shown where
  | json (services : HashMap String ServiceStatus)
  | detailedJson (services : List DetailedServiceInfo)
  | table (rows : List BasicRow)
  | detailedTable (rows : List DetailedRow)

/-- `run_once`, on the daemon's answer. -/
def runOnce (answer : Answer) (config : Config) (format : String) (detailed : Bool) :
    Option (Except String Shown) :=
  if detailed then
    match answer with
    | .error e => some (.error e)
    | .ok (.serviceListDetailed services) =>
      if format = "json" then some (.ok (.detailedJson services))
      else (displayDetailedTable services config).map fun rows => .ok (.detailedTable rows)
    | .ok (.error message) =>
      some (.error s!"Failed to get detailed service list: {message}")
    | .ok _ => some (.error "Unexpected response from daemon")
  else
    match answer with
    | .error e => some (.error e)
    | .ok (.serviceList services) =>
      if format = "json" then some (.ok (.json services))
      else some (.ok (.table (displayBasicTable services config)))
    | .ok (.error message) => some (.error s!"Failed to get service list: {message}")
    | .ok _ => some (.error "Unexpected response from daemon")

/-- `run`, on the answer of a daemon that is asked once. -/
def run (answer : Answer) (config : Config) (format : String) (detailed : Bool) :
    Option (Except String Shown) :=
  if format ≠ "table" ∧ format ≠ "json" then
    some (.error s!"Invalid format: {format}. Must be 'table' or 'json'")
  else runOnce answer config format detailed

/-! ## The two tables -/

/-- Rows that say the same of a service: one that is not active has stopped in the one table
and is unknown to the other, and an active one is shown with its health, and with its
process or its container. -/
structure Agree {σ : Type} (manager : ServiceManager σ) (basic : BasicRow) (row : DetailedRow) :
    Prop where
  service : basic.service = row.service
  color : basic.color = row.color
  inactive : basic.service ∉ manager.activeServices →
    basic.status = "stopped" ∧ row.status = "unknown" ∧ row.process = "-"
  active : basic.service ∈ manager.activeServices → basic.status = "running" ∧
    (basic.health = "healthy" ∧ row.status = "running" ∨
      basic.health = "unhealthy" ∧ row.status = "unhealthy")
  process : ∀ service, manager.activeServices.lookup basic.service = some service →
    service.IsProcess → ∃ pid, service.pid = some pid ∧ row.process = s!"PID {pid}"
  container : ∀ service, manager.activeServices.lookup basic.service = some service →
    ¬ service.IsProcess → ∃ info, service.networkInfo = some info ∧
      row.process = "Container " ++ info.hostname

/-- A service that is kept can be shown. -/
theorem processText_kept {processes : HashMap Nat Orchestration.ProcessInfo}
    {service : RunningService} (h : Orchestration.Kept processes service) (name : String)
    (status : ServiceStatus) :
    ∃ text, processText (Handlers.detailedInfo name status (some service)) = some text ∧
      (service.IsProcess → ∃ pid, service.pid = some pid ∧ text = s!"PID {pid}") ∧
      (¬ service.IsProcess → ∃ info, service.networkInfo = some info ∧
        text = "Container " ++ info.hostname) := by
  unfold processText Handlers.detailedInfo
  dsimp only
  rcases h with ⟨hprocess, _, handle, _, hpid⟩ | ⟨hdocker, hnopid, id, hostname, info, hid, hcut,
    hinfo, hhostname⟩
  · rw [hpid]
    exact ⟨_, rfl, fun _ => ⟨_, rfl, rfl⟩, fun hnot => absurd hprocess hnot⟩
  · have hnot : ¬ service.IsProcess := by
      rw [RunningService.IsProcess, hdocker]
      simp
    rw [hnopid, hid]
    dsimp only
    rw [hcut]
    refine ⟨_, rfl, fun hprocess => absurd hprocess hnot, fun _ => ⟨info, hinfo, ?_⟩⟩
    rw [hhostname]
    rfl

section Rows

variable {σ : Type} [RegistryBackend σ] {manager : ServiceManager σ}

/-- The rows of one service, by what the two answers have under its name. -/
theorem rows_agree (h : manager.Tracked) (outside outside' : Surroundings) (name : String)
    (service : Service) :
    ∃ row, detailedRow name service
        (if name ∈ manager.activeServices then
          some (Handlers.detailedInfo name (Handlers.status outside' manager name)
            (manager.getServiceInfo name))
        else none) = some row ∧
      Agree manager (basicRow name
        ((if name ∈ manager.activeServices then some (Handlers.status outside manager name)
          else none).getD .stopped)) row := by
  by_cases hactive : name ∈ manager.activeServices
  · obtain ⟨running, hrunning⟩ := Option.isSome_iff_exists.mp (AList.lookup_isSome.mpr hactive)
    have hinfo : manager.getServiceInfo name = some running := hrunning
    have hsame : Handlers.status outside' manager name = Handlers.status outside manager name := by
      rw [Handlers.status_eq hactive, Handlers.status_eq hactive]
    rw [if_pos hactive, if_pos hactive, hinfo, hsame]
    obtain ⟨text, htext, hprocess, hcontainer⟩ := processText_kept
      (h.kept name running hrunning) name (Handlers.status outside manager name)
    unfold detailedRow
    dsimp only
    rw [htext]
    refine ⟨_, rfl, ?_⟩
    have hlookup : ∀ service, manager.activeServices.lookup name = some service →
        service = running := fun service hservice =>
      Option.some.inj (hservice.symm.trans hrunning)
    rcases Handlers.status_active outside hactive with hstatus | hstatus
    · rw [hstatus]
      refine ⟨rfl, rfl, fun hnot => absurd hactive hnot, fun _ => ⟨rfl, .inl ⟨rfl, rfl⟩⟩, ?_, ?_⟩
      · intro service hservice
        rw [hlookup service hservice]
        exact hprocess
      · intro service hservice
        rw [hlookup service hservice]
        exact hcontainer
    · rw [hstatus]
      refine ⟨rfl, rfl, fun hnot => absurd hactive hnot, fun _ => ⟨rfl, .inr ⟨rfl, rfl⟩⟩, ?_, ?_⟩
      · intro service hservice
        rw [hlookup service hservice]
        exact hprocess
      · intro service hservice
        rw [hlookup service hservice]
        exact hcontainer
  · have hnone : manager.activeServices.lookup name = none := AList.lookup_eq_none.mpr hactive
    rw [if_neg hactive, if_neg hactive]
    refine ⟨_, rfl, rfl, rfl, fun _ => ⟨rfl, rfl, rfl⟩, fun hmem => absurd hmem hactive, ?_, ?_⟩
    · intro service hservice
      cases hnone.symm.trans hservice
    · intro service hservice
      cases hnone.symm.trans hservice

/-- What the detailed answer has under a name, once it is made a map. -/
theorem lookup_serviceMap (manager : ServiceManager σ) (outside : Surroundings) (name : String) :
    (HashMap.collect (((manager.listServices outside.ord).map fun name =>
      Handlers.detailedInfo name (Handlers.status outside manager name)
        (manager.getServiceInfo name)).map fun info => (info.name, info))).lookup name =
      if name ∈ manager.activeServices then
        some (Handlers.detailedInfo name (Handlers.status outside manager name)
          (manager.getServiceInfo name))
      else none := by
  have hname : ∀ name status service, (Handlers.detailedInfo name status service).name = name := by
    intro name status service
    cases service with
    | none => rfl
    | some service => rfl
  rw [List.map_map, Function.comp_def]
  simp only [hname]
  rw [HashMap.lookup_collect (fun name => Handlers.detailedInfo name
    (Handlers.status outside manager name) (manager.getServiceInfo name))]
  simp only [Handlers.mem_listServices]

/-- A table whose rows can all be made. -/
theorem mapM_forall₂ {α β γ : Type} {make : α → Option β} {other : α → γ} {R : γ → β → Prop} :
    ∀ {entries : List α}, (∀ entry ∈ entries, ∃ row, make entry = some row ∧ R (other entry) row) →
      ∃ rows, entries.mapM make = some rows ∧ List.Forall₂ R (entries.map other) rows := by
  intro entries
  induction entries with
  | nil => intro _; exact ⟨[], rfl, .nil⟩
  | cons first entries ih =>
    intro h
    obtain ⟨row, hrow, hR⟩ := h first List.mem_cons_self
    obtain ⟨rows, hrows, hall⟩ := ih fun entry hentry => h entry (List.mem_cons_of_mem _ hentry)
    exact ⟨row :: rows, by simp [List.mapM_cons, hrow, hrows], .cons hR hall⟩

/-- After any requests, whatever became of them, the detailed table can be made, and its
rows say the same as those of the basic one. -/
theorem tables_agree (rendering : Rendering) (backend : σ)
    (turns : List (Surroundings × Protocol.Request)) (outside outside' : Surroundings)
    (config : Config) :
    let manager := after (serve rendering) (ServiceManager.withStateDir backend) turns
    ∃ services detailed rows,
      (handleRequest rendering outside manager .listServices).2 = some (.serviceList services) ∧
      (handleRequest rendering outside' manager .listServicesDetailed).2 =
        some (.serviceListDetailed detailed) ∧
      displayDetailedTable detailed config = some rows ∧
      List.Forall₂ (Agree manager) (displayBasicTable services config) rows := by
  intro manager
  have htracked : manager.Tracked :=
    after_invariant ServiceManager.Tracked
      (fun _ turn h => Handlers.handleRequest_invariant ServiceManager.tracked_perform rendering
        turn.1 turn.2 h)
      (ServiceManager.tracked_withStateDir backend)
  obtain ⟨services, hservices, hlookup⟩ :=
    Handlers.handleRequest_serviceList rendering outside manager
  obtain ⟨rows, hrows, hagree⟩ := mapM_forall₂ (R := Agree manager)
    (fun entry (_ : entry ∈ config.services.entries) =>
      rows_agree htracked outside outside' entry.1 entry.2)
  refine ⟨services, _, rows, by rw [hservices], rfl, ?_, ?_⟩
  · unfold displayDetailedTable
    dsimp only
    simp only [lookup_serviceMap]
    exact hrows
  · unfold displayBasicTable
    simp only [hlookup]
    rw [AList.keys, List.keys, List.map_map]
    exact hagree

end Rows

end GraphHarness.Status
