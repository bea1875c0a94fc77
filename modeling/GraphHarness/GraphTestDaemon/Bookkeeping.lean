import GraphHarness.GraphTestDaemon.Tasks
import GraphHarness.Trace.Latest
import Mathlib.Data.List.Dedup

/-!
# Deployed contracts (`process_hardhat_event`, `extract_deployment_info`)

Any events, from an empty map and counter. The map holds the last address of each name
that was reported. The counter counts reports, not names, and a report takes the first
and the fourth word of its line, whatever is between them.

> `consistent_iff`: counter, map and reports fit together exactly if no name is reported
> twice and each reporting line has `deployed at` between those two words.

The counter goes up with every line that is taken for a deployment; the map is written under
the name. So the two can only differ by names that occur twice (`counted_iff`), and the map
and the line by what stands between the first word and the fourth (`announced_iff`).

What is a line, and what of the standard output it came from, is told by the event; the events
themselves may be any list, and the statement is about the books after all of them.
-/

namespace GraphHarness.GraphTestDaemon

open Executor
open Trace (latest lookup_insert_eq_or read_foldl)

/-- The name and the address of a report. -/
def GraphContractsEvent.deployed : GraphContractsEvent → Option (String × String)
  | .contractDeployed name address => some (name, address)
  | _ => none

/-- The address that a report has for the name. -/
def addressFor (name : String) (report : String × String) : Option String :=
  if report.1 = name then some report.2 else none

/-! ## A run of events -/

/-- The books after some events. -/
theorem processAll_snd (events : List ProcessEvent) (books : Bookkeeping) :
    (processAll events books).2 =
      events.foldl (fun books event => (processHardhatEvent event books).2) books := by
  induction events generalizing books with
  | nil => rfl
  | cons event events ih => exact ih _

/-- What an event reports as deployed. -/
theorem deployed_processHardhatEvent (event : ProcessEvent) (books : Bookkeeping) :
    (processHardhatEvent event books).1.bind GraphContractsEvent.deployed = deployment event := by
  rcases processHardhatEvent_cases event books with ⟨name, address, hdeployment, hevent⟩ |
    ⟨hdeployment, _, hkinds⟩
  · rw [hevent, hdeployment]
    rfl
  · rw [hdeployment, Option.bind_eq_none_iff]
    intro sent hsent
    rcases hkinds sent hsent with ⟨_, rfl⟩ | ⟨_, rfl⟩ | ⟨_, rfl⟩
    · rfl
    · rfl
    · rfl

/-- The reports that are sent are the deployments of the events. -/
theorem reports_processAll (events : List ProcessEvent) (books : Bookkeeping) :
    (processAll events books).1.filterMap GraphContractsEvent.deployed =
      events.filterMap deployment := by
  induction events generalizing books with
  | nil => rfl
  | cons event events ih =>
    rw [processAll, List.filterMap_append, ih, List.filterMap_cons,
      ← deployed_processHardhatEvent event books]
    cases hsent : (processHardhatEvent event books).1 with
    | none => simp
    | some sent => cases hdeployed : sent.deployed <;> simp [hdeployed]

/-- The counter counts the reports. -/
theorem completed_processAll (events : List ProcessEvent) (books : Bookkeeping) :
    (processAll events books).2.completed =
      books.completed + (events.filterMap deployment).length := by
  induction events generalizing books with
  | nil => rfl
  | cons event events ih =>
    rw [processAll]
    refine (ih _).trans ?_
    rcases processHardhatEvent_cases event books with ⟨name, address, hdeployment, hevent⟩ |
      ⟨hdeployment, hbooks, _⟩
    · rw [hevent, List.filterMap_cons_some hdeployment, List.length_cons]
      exact Nat.add_right_comm _ _ _
    · rw [hbooks, List.filterMap_cons_none hdeployment]

/-- The address of a contract after an event: the one it reports, or the one from before. -/
theorem lookup_processHardhatEvent (event : ProcessEvent) (books : Bookkeeping) (name : String) :
    (processHardhatEvent event books).2.deployedContracts.lookup name =
      ((deployment event).bind (addressFor name)).or (books.deployedContracts.lookup name) := by
  rcases processHardhatEvent_cases event books with ⟨n, address, hdeployment, hevent⟩ |
    ⟨hdeployment, hbooks, _⟩
  · rw [hevent, hdeployment]
    exact lookup_insert_eq_or n name address books.deployedContracts
  · rw [hbooks, hdeployment]
    rfl

/-- The map has the last address that was reported for a name. -/
theorem lookup_processAll (events : List ProcessEvent) (name : String) :
    (processAll events .empty).2.deployedContracts.lookup name =
      latest (addressFor name) (events.filterMap deployment) := by
  have hread := read_foldl
    (fun books event => (processHardhatEvent event books).2)
    (fun books : Bookkeeping => books.deployedContracts.lookup name)
    (fun books event => lookup_processHardhatEvent event books name) events .empty
  rw [processAll_snd, hread, Bookkeeping.empty, AList.lookup_empty, Option.or_none, latest, latest,
    List.filterMap_filterMap]

/-- The books hold the contracts reported. -/
theorem mem_processAll {events : List ProcessEvent} {name : String} :
    name ∈ (processAll events .empty).2.deployedContracts ↔
      name ∈ (events.filterMap deployment).map Prod.fst := by
  rw [← AList.lookup_isSome, lookup_processAll, ← not_iff_not, Bool.not_eq_true,
    Option.isSome_eq_false_iff, Option.isNone_iff_eq_none, Trace.latest_eq_none_iff, List.mem_map]
  simp only [addressFor, ite_eq_right_iff, reduceCtorEq, imp_false]
  push Not
  rfl

/-- The map has as many entries as there are different names. -/
theorem length_processAll (events : List ProcessEvent) :
    (processAll events .empty).2.deployedContracts.entries.length =
      ((events.filterMap deployment).map Prod.fst).dedup.length := by
  have hperm : (processAll events .empty).2.deployedContracts.keys.Perm
      ((events.filterMap deployment).map Prod.fst).dedup := by
    rw [List.perm_ext_iff_of_nodup (AList.keys_nodup _) (List.nodup_dedup _)]
    intro name
    rw [List.mem_dedup, ← mem_processAll]
    rfl
  rw [← hperm.length_eq]
  exact (List.length_map _).symm

/-- No duplicate is dropped if and only if there is none. -/
theorem length_dedup_iff {names : List String} : names.length = names.dedup.length ↔ names.Nodup := by
  constructor
  · intro h
    rw [← List.dedup_eq_self]
    exact (List.dedup_sublist names).eq_of_length h.symm
  · intro h
    rw [h.dedup]

/-- As many as there are reports: that is, no name twice. -/
theorem counted_iff (events : List ProcessEvent) :
    (processAll events .empty).2.completed =
        (processAll events .empty).2.deployedContracts.entries.length ↔
      ((events.filterMap deployment).map Prod.fst).Nodup := by
  rw [length_processAll, completed_processAll, ← length_dedup_iff, List.length_map,
    Bookkeeping.empty, Nat.zero_add]

/-! ## Consistency -/

/-- After each event the counter is the size of the map; each report has words of its
line that announce it; the map has the most recent address of each reported name. -/
structure Consistent (events : List ProcessEvent) : Prop where
  counted : ∀ before after, events = before ++ after →
    (processAll before .empty).2.completed =
      (processAll before .empty).2.deployedContracts.entries.length
  announced : ∀ before event after, events = before ++ event :: after → ∀ name address,
    (processHardhatEvent event (processAll before .empty).2).1 =
      some (.contractDeployed name address) →
    ∃ line, event.data = some line ∧
      [name, "deployed", "at", address] <:+: splitWhitespace line
  recent : ∀ before after, events = before ++ after → ∀ name address,
    latest (addressFor name)
      ((processAll before .empty).1.filterMap GraphContractsEvent.deployed) = some address →
    (processAll before .empty).2.deployedContracts.lookup name = some address

/-- `deployed at` is between the first word and the fourth, or it is between the same two
words further on. -/
def WellPlaced (line : String) : Prop :=
  match splitWhitespace line with
  | name :: second :: third :: address :: rest =>
    (second = "deployed" ∧ third = "at") ∨
      [name, "deployed", "at", address] <:+: second :: third :: address :: rest
  | _ => True

/-- The lines that a report is made from: they are printed to the standard output, tell of
no compilation, contain `deployed at` and have four words. -/
def Reporting (event : ProcessEvent) (line : String) : Prop :=
  event.eventType = .stdout ∧ event.data = some line ∧ isCompilation line = false ∧
    contains line "deployed at" = true ∧ 4 ≤ (splitWhitespace line).length

/-- No two reporting lines start with the same word, and each is well placed. -/
structure Distinguished (events : List ProcessEvent) : Prop where
  distinct : ((events.filterMap deployment).map Prod.fst).Nodup
  placed : ∀ event ∈ events, ∀ line, Reporting event line → WellPlaced line

/-- Which lines report a contract, and under which name and address. -/
theorem deployment_eq_some_iff {event : ProcessEvent} {name address : String} :
    deployment event = some (name, address) ↔
      ∃ line, Reporting event line ∧ ∃ second third rest,
        splitWhitespace line = name :: second :: third :: address :: rest := by
  obtain ⟨eventType, data⟩ := event
  cases eventType with
  | started pid => simp [deployment, Reporting]
  | exited code signal => simp [deployment, Reporting]
  | stderr => simp [deployment, Reporting]
  | stdout =>
    cases data with
    | none => simp [deployment, Reporting]
    | some line =>
      by_cases hcompile : isCompilation line
      · simp [deployment, Reporting, hcompile]
      · by_cases hcontains : contains line "deployed at"
        · unfold deployment extractDeploymentInfo Reporting
          rcases hwords : splitWhitespace line with
            _ | ⟨first, _ | ⟨second, _ | ⟨third, _ | ⟨fourth, rest⟩⟩⟩⟩
          · simp [hcompile, hcontains, hwords]
          · simp [hcompile, hcontains, hwords]
          · simp [hcompile, hcontains, hwords]
          · simp [hcompile, hcontains, hwords]
          · simp [hcompile, hcontains, hwords, and_comm]
        · simp [deployment, extractDeploymentInfo, Reporting, hcompile, hcontains]

/-- A report is well placed if its words are the first four of the line. -/
theorem wellPlaced_iff {line name second third address : String} {rest : List String}
    (hwords : splitWhitespace line = name :: second :: third :: address :: rest) :
    WellPlaced line ↔ [name, "deployed", "at", address] <:+: splitWhitespace line := by
  unfold WellPlaced
  rw [hwords, List.infix_cons_iff]
  refine or_congr_left ?_
  simp [eq_comm]

/-- A line announces what is reported from it exactly if it is well placed. -/
theorem announced_iff {event : ProcessEvent} {name address : String}
    (hdeployment : deployment event = some (name, address)) :
    (∃ line, event.data = some line ∧ [name, "deployed", "at", address] <:+: splitWhitespace line) ↔
      ∀ line, Reporting event line → WellPlaced line := by
  obtain ⟨line, hreporting, second, third, rest, hwords⟩ :=
    deployment_eq_some_iff.mp hdeployment
  constructor
  · rintro ⟨other, hother, hinfix⟩ line' hreporting'
    obtain rfl : other = line' := Option.some.inj (hother.symm.trans hreporting'.2.1)
    obtain rfl : line = other := Option.some.inj (hreporting.2.1.symm.trans hother)
    exact (wellPlaced_iff hwords).mpr hinfix
  · intro hplaced
    exact ⟨line, hreporting.2.1, (wellPlaced_iff hwords).mp (hplaced line hreporting)⟩

/-- A line that reports is taken for a deployment. -/
theorem deployment_of_reporting {event : ProcessEvent} {line : String} (h : Reporting event line) :
    ∃ name address, deployment event = some (name, address) := by
  have hlength := h.2.2.2.2
  rcases hwords : splitWhitespace line with
    _ | ⟨name, _ | ⟨second, _ | ⟨third, _ | ⟨address, rest⟩⟩⟩⟩
  · simp [hwords] at hlength
  · simp [hwords] at hlength
  · simp [hwords] at hlength
  · simp [hwords] at hlength
  · exact ⟨name, address, deployment_eq_some_iff.mpr ⟨line, h, second, third, rest, hwords⟩⟩

/-- **The bookkeeping is consistent exactly if every reporting line starts with a word of
its own and is well placed.** -/
theorem consistent_iff (events : List ProcessEvent) : Consistent events ↔ Distinguished events := by
  constructor
  · intro h
    refine ⟨(counted_iff events).mp (h.counted events [] (List.append_nil _).symm), ?_⟩
    intro event hevent line hreporting
    obtain ⟨before, after, rfl⟩ := List.append_of_mem hevent
    obtain ⟨name, address, hdeployment⟩ := deployment_of_reporting hreporting
    exact (announced_iff hdeployment).mp
      (h.announced before event after rfl name address
        (processHardhatEvent_deployed_iff.mpr hdeployment)) line hreporting
  · intro h
    refine ⟨?_, ?_, ?_⟩
    · intro before after hevents
      rw [counted_iff]
      refine h.distinct.sublist ?_
      rw [hevents]
      exact ((List.sublist_append_left before after).filterMap _).map _
    · intro before event after hevents name address hreport
      rw [announced_iff (processHardhatEvent_deployed_iff.mp hreport)]
      exact h.placed event (by rw [hevents]; simp)
    · intro before after _ name address hlatest
      rw [reports_processAll] at hlatest
      rw [lookup_processAll, hlatest]

/-- A line on the standard output. -/
def stdoutLine (line : String) : ProcessEvent := .newWithData .stdout line

/-- A contract that is deployed again is counted again; a line with a word in front has
its second word taken for `deployed`. -/
theorem redeployed_not_consistent :
    ¬ Consistent [stdoutLine "GNS deployed at 0x1", stdoutLine "GNS deployed at 0x2"] ∧
      ¬ Consistent [stdoutLine "Contract GNS deployed at 0x1"] := by
  constructor
  · intro h
    have hcounted := h.counted _ [] (List.append_nil _).symm
    revert hcounted
    decide +kernel
  · intro h
    obtain ⟨line, hline, hinfix⟩ := h.announced [] _ [] rfl "Contract" "at" (by decide +kernel)
    obtain rfl : "Contract GNS deployed at 0x1" = line := Option.some.inj hline
    revert hinfix
    decide +kernel

end GraphHarness.GraphTestDaemon
