import GraphHarness.Serde.Json
import Mathlib.Logic.Relation

/-!
# Validation of a daemon's configuration (`harness-core/src/daemon.rs`)

The configuration is any JSON value. Each lookup in it is optional: where a key is
missing, or its value is of another kind, there is nothing to check.

> `validateConfig_ok_iff`: what is accepted is what names registered types and existing
> services and tasks, wherever it names any.

So much, and no more, is known of an accepted configuration. `Checked.ensured_iff` says what
is missing from that of what the documentation promises: that there is a type and a name
everywhere, and that no dependencies go round in a circle.

The model of `serde_json::Value` is `Serde.Json`, and objects are looked up by the first
member of a name. The builder's registered types are lists of names, and the order of the
checks is that of the source: services before tasks, the type of an entry before its
dependencies.

`WellShaped` configurations are those in which nothing is passed over. `accepted_not_ensured`
is a configuration that is accepted, as a test of the repository asserts, with a circle in it.
-/

namespace GraphHarness.HarnessCore

open Serde (Json Member)

/-- `Error::Validation`. -/
inductive Error where
  | validation (message : String)
  deriving DecidableEq, Repr

/-! ## Lookups (`serde_json::Value`) -/

/-- `Value::get` with a key. -/
def get (key : String) : Json → Option Json
  | .obj members => (members.find? fun m => m.1 = key).map Prod.snd
  | _ => none

/-- `Value::as_str`. -/
def asStr : Json → Option String
  | .str s => some s
  | _ => none

/-- `Value::as_array`. -/
def asArray : Json → Option (List Json)
  | .arr items => some items
  | _ => none

/-- `Value::as_object`. -/
def asObject : Json → Option (List Member)
  | .obj members => some members
  | _ => none

/-- `contains_key`. -/
def containsKey (map : List Member) (key : String) : Bool := map.any fun m => m.1 = key

/-! ## The validation -/

/-- What is registered: the types, in the order `list_types` has them. -/
structure DaemonBuilder where
  serviceTypes : List String
  taskTypes : List String
  deriving DecidableEq, Repr

/-- A `for` loop whose body may return an error. -/
def checkAll {α : Type} (check : α → Except Error Unit) : List α → Except Error Unit
  | [] => .ok ()
  | x :: xs =>
    match check x with
    | .ok () => checkAll check xs
    | .error e => .error e

/-- The check of one dependency. What is of another shape is passed over. -/
def validateDependency (dep : Json) (services : List Member) (config : Json) :
    Except Error Unit :=
  match (get "service" dep).bind asStr with
  | some serviceName =>
    if containsKey services serviceName then .ok ()
    else .error (.validation ("Dependency references unknown service '" ++ serviceName ++ "'"))
  | none =>
    match (get "task" dep).bind asStr with
    | some taskName =>
      match (get "tasks" config).bind asObject with
      | some tasks =>
        if containsKey tasks taskName then .ok ()
        else .error (.validation ("Dependency references unknown task '" ++ taskName ++ "'"))
      | none =>
        .error (.validation ("Dependency references task '" ++ taskName ++
          "' but no tasks are defined"))
    | none => .ok ()

section

-- `Debug` of a string
variable (debugStr : String → String)

/-- The registered types as `{:?}` prints them. -/
def debugTypes (types : List String) : String :=
  "[" ++ ", ".intercalate (types.map debugStr) ++ "]"

/-- The body of both loops: first the type of the entry, then its dependencies. -/
def validateEntry (label typeField : String) (registeredTypes : List String)
    (services : List Member) (config : Json) (entry : Member) : Except Error Unit :=
  let dependencies : Except Error Unit :=
    match (get "dependencies" entry.2).bind asArray with
    | some deps => checkAll (fun dep => validateDependency dep services config) deps
    | none => .ok ()
  match (get typeField entry.2).bind asStr with
  | some type =>
    if type ∈ registeredTypes then dependencies
    else .error (.validation (label ++ " '" ++ entry.1 ++ "' references unknown " ++ typeField ++
      " '" ++ type ++ "'. Available types: " ++ debugTypes debugStr registeredTypes))
  | none => dependencies

/-- `validate_config`. -/
def validateConfig (builder : DaemonBuilder) (config : Json) : Except Error Unit :=
  let services := (get "services" config).bind asObject
  let validated : Except Error Unit :=
    match services with
    | some serviceMap =>
      checkAll (validateEntry debugStr "Service" "service_type" builder.serviceTypes serviceMap
        config) serviceMap
    | none => .ok ()
  match validated with
  | .error e => .error e
  | .ok () =>
    match (get "tasks" config).bind asObject with
    | some tasks =>
      checkAll (validateEntry debugStr "Task" "task_type" builder.taskTypes
        (services.getD []) config) tasks
    | none => .ok ()

end

/-! ## What a configuration says -/

/-- The entries under a key, none if there is no object. -/
def entriesUnder (key : String) (config : Json) : List Member :=
  ((get key config).bind asObject).getD []

/-- A vertex of the dependency graph. -/
inductive Node where
  | service (name : String)
  | task (name : String)
  deriving DecidableEq, Repr

/-- What an element of a `dependencies` array names, a service before a task. -/
def named (dep : Json) : Option Node :=
  match (get "service" dep).bind asStr with
  | some name => some (.service name)
  | none => ((get "task" dep).bind asStr).map .task

/-- A node is an entry of its own section. -/
def Present (config : Json) : Node → Prop
  | .service name => containsKey (entriesUnder "services" config) name = true
  | .task name => containsKey (entriesUnder "tasks" config) name = true

/-- The elements of the `dependencies` array of an entry. -/
def dependenciesOf (entry : Json) : List Json := ((get "dependencies" entry).bind asArray).getD []

/-- The entries of services and tasks, each with its vertex. -/
def nodes (config : Json) : List (Node × Json) :=
  (entriesUnder "services" config).map (fun entry => (.service entry.1, entry.2)) ++
    (entriesUnder "tasks" config).map (fun entry => (.task entry.1, entry.2))

/-- An edge of the graph: an entry with a dependency that names the other vertex. -/
def DependsOn (config : Json) (node dependency : Node) : Prop :=
  ∃ entry, (node, entry) ∈ nodes config ∧
    ∃ dep ∈ dependenciesOf entry, named dep = some dependency

/-- Everything that the documentation promises. -/
structure Ensured (builder : DaemonBuilder) (config : Json) : Prop where
  serviceTypes : ∀ entry ∈ entriesUnder "services" config, ∃ type,
    (get "service_type" entry.2).bind asStr = some type ∧ type ∈ builder.serviceTypes
  taskTypes : ∀ entry ∈ entriesUnder "tasks" config, ∃ type,
    (get "task_type" entry.2).bind asStr = some type ∧ type ∈ builder.taskTypes
  dependencies : ∀ entry ∈ nodes config, ∀ dep ∈ dependenciesOf entry.2, ∃ node,
    named dep = some node ∧ Present config node
  acyclic : ∀ node, ¬ Relation.TransGen (DependsOn config) node node

/-- What the dependencies of an entry name is there. -/
def Resolved (config entry : Json) : Prop :=
  ∀ dep ∈ dependenciesOf entry, ∀ node, named dep = some node → Present config node

/-- The types and the dependencies that are named are there. -/
structure Checked (builder : DaemonBuilder) (config : Json) : Prop where
  serviceTypes : ∀ entry ∈ entriesUnder "services" config, ∀ type,
    (get "service_type" entry.2).bind asStr = some type → type ∈ builder.serviceTypes
  taskTypes : ∀ entry ∈ entriesUnder "tasks" config, ∀ type,
    (get "task_type" entry.2).bind asStr = some type → type ∈ builder.taskTypes
  dependencies : ∀ entry ∈ nodes config, Resolved config entry.2

/-! ## What is accepted -/

variable (debugStr : String → String)

/-- All are checked, and the first error is returned. -/
theorem checkAll_ok_iff {α : Type} {check : α → Except Error Unit} {xs : List α} :
    checkAll check xs = .ok () ↔ ∀ x ∈ xs, check x = .ok () := by
  induction xs with
  | nil => simp [checkAll]
  | cons x xs ih =>
    rw [checkAll, List.forall_mem_cons]
    cases hx : check x with
    | error e => simp
    | ok u => simpa using ih

/-- A dependency passes if and only if what it names is present, if it names anything. -/
theorem validateDependency_ok_iff {dep config : Json} :
    validateDependency dep (entriesUnder "services" config) config = .ok () ↔
      ∀ node, named dep = some node → Present config node := by
  unfold validateDependency named
  cases hservice : (get "service" dep).bind asStr with
  | some name => simp [Present]
  | none =>
    cases htask : (get "task" dep).bind asStr with
    | none => simp
    | some name =>
      cases htasks : (get "tasks" config).bind asObject with
      | none => simp [Present, entriesUnder, htasks, containsKey]
      | some tasks => simp [Present, entriesUnder, htasks]

/-- An entry passes if and only if its type is registered and its dependencies are present. -/
theorem validateEntry_ok_iff {label typeField : String} {registeredTypes : List String}
    {config : Json} {entry : Member} :
    validateEntry debugStr label typeField registeredTypes (entriesUnder "services" config) config
        entry = .ok () ↔
      (∀ type, (get typeField entry.2).bind asStr = some type → type ∈ registeredTypes) ∧
        Resolved config entry.2 := by
  have hdependencies : (match (get "dependencies" entry.2).bind asArray with
      | some deps => checkAll
          (fun dep => validateDependency dep (entriesUnder "services" config) config) deps
      | none => (.ok () : Except Error Unit)) = .ok () ↔ Resolved config entry.2 := by
    unfold Resolved dependenciesOf
    cases (get "dependencies" entry.2).bind asArray with
    | none => simp
    | some deps => simp [checkAll_ok_iff, validateDependency_ok_iff]
  unfold validateEntry
  cases (get typeField entry.2).bind asStr with
  | none => simpa using hdependencies
  | some type =>
    by_cases htype : type ∈ registeredTypes
    · simpa [htype] using hdependencies
    · simp [htype]

/-- A loop over the entries under a key, if there are any. -/
theorem checkAll_entriesUnder {key : String} {config : Json} {check : Member → Except Error Unit} :
    (match (get key config).bind asObject with
      | some entries => checkAll check entries
      | none => .ok ()) = .ok () ↔ ∀ entry ∈ entriesUnder key config, check entry = .ok () := by
  unfold entriesUnder
  cases (get key config).bind asObject with
  | none => simp
  | some entries => simp [checkAll_ok_iff]

/-- The nodes are the services and the tasks. -/
theorem forall_mem_nodes (config : Json) (P : Json → Prop) :
    (∀ entry ∈ nodes config, P entry.2) ↔
      (∀ entry ∈ entriesUnder "services" config, P entry.2) ∧
        ∀ entry ∈ entriesUnder "tasks" config, P entry.2 := by
  simp only [nodes, List.forall_mem_append, List.forall_mem_map]

/-- **What is accepted is what names registered types, existing services and existing
tasks, wherever it names any.** -/
theorem validateConfig_ok_iff (builder : DaemonBuilder) (config : Json) :
    validateConfig debugStr builder config = .ok () ↔ Checked builder config := by
  have hservices : (match (get "services" config).bind asObject with
      | some serviceMap => checkAll (validateEntry debugStr "Service" "service_type"
          builder.serviceTypes serviceMap config) serviceMap
      | none => (.ok () : Except Error Unit)) = .ok () ↔
      ∀ entry ∈ entriesUnder "services" config, validateEntry debugStr "Service" "service_type"
        builder.serviceTypes (entriesUnder "services" config) config entry = .ok () := by
    unfold entriesUnder
    cases (get "services" config).bind asObject with
    | none => simp
    | some serviceMap => simp [checkAll_ok_iff]
  have hboth : validateConfig debugStr builder config = .ok () ↔
      (∀ entry ∈ entriesUnder "services" config, validateEntry debugStr "Service" "service_type"
        builder.serviceTypes (entriesUnder "services" config) config entry = .ok ()) ∧
      ∀ entry ∈ entriesUnder "tasks" config, validateEntry debugStr "Task" "task_type"
        builder.taskTypes (entriesUnder "services" config) config entry = .ok () := by
    rw [← hservices, ← checkAll_entriesUnder, validateConfig]
    split
    next e he => simp [he]
    next hok => simp [hok, entriesUnder]
  rw [hboth]
  simp only [validateEntry_ok_iff]
  constructor
  · rintro ⟨hs, ht⟩
    refine ⟨fun entry h => (hs entry h).1, fun entry h => (ht entry h).1, ?_⟩
    exact (forall_mem_nodes config (Resolved config)).mpr
      ⟨fun entry h => (hs entry h).2, fun entry h => (ht entry h).2⟩
  · intro h
    obtain ⟨hs, ht⟩ := (forall_mem_nodes config (Resolved config)).mp h.dependencies
    exact ⟨fun entry hentry => ⟨h.serviceTypes entry hentry, hs entry hentry⟩,
      fun entry hentry => ⟨h.taskTypes entry hentry, ht entry hentry⟩⟩

/-- Every entry has its type, and every dependency names something. -/
structure WellShaped (config : Json) : Prop where
  serviceTypes : ∀ entry ∈ entriesUnder "services" config,
    (get "service_type" entry.2).bind asStr ≠ none
  taskTypes : ∀ entry ∈ entriesUnder "tasks" config, (get "task_type" entry.2).bind asStr ≠ none
  dependencies : ∀ entry ∈ nodes config, ∀ dep ∈ dependenciesOf entry.2, named dep ≠ none

/-- Of what the documentation promises, an accepted configuration has everything exactly
if it is well shaped and without a cycle. -/
theorem Checked.ensured_iff {builder : DaemonBuilder} {config : Json}
    (hchecked : Checked builder config) : Ensured builder config ↔
      WellShaped config ∧ ∀ node, ¬ Relation.TransGen (DependsOn config) node node := by
  constructor
  · intro hensured
    refine ⟨⟨?_, ?_, ?_⟩, hensured.acyclic⟩
    · intro entry hentry
      obtain ⟨type, htype, _⟩ := hensured.serviceTypes entry hentry
      simp [htype]
    · intro entry hentry
      obtain ⟨type, htype, _⟩ := hensured.taskTypes entry hentry
      simp [htype]
    · intro entry hentry dep hdep
      obtain ⟨node, hnode, _⟩ := hensured.dependencies entry hentry dep hdep
      simp [hnode]
  · rintro ⟨hshaped, hacyclic⟩
    refine ⟨?_, ?_, ?_, hacyclic⟩
    · intro entry hentry
      obtain ⟨type, htype⟩ := Option.ne_none_iff_exists'.mp (hshaped.serviceTypes entry hentry)
      exact ⟨type, htype, hchecked.serviceTypes entry hentry type htype⟩
    · intro entry hentry
      obtain ⟨type, htype⟩ := Option.ne_none_iff_exists'.mp (hshaped.taskTypes entry hentry)
      exact ⟨type, htype, hchecked.taskTypes entry hentry type htype⟩
    · intro entry hentry dep hdep
      obtain ⟨node, hnode⟩ := Option.ne_none_iff_exists'.mp
        (hshaped.dependencies entry hentry dep hdep)
      exact ⟨node, hnode, hchecked.dependencies entry hentry dep hdep node hnode⟩

/-! ## Configurations -/

/-- The builder of a daemon with one type of service. -/
def testBuilder : DaemonBuilder := ⟨["test-service"], ["test-task"]⟩

/-- A configuration with these services. -/
def servicesConfig (services : List Member) : Json := .obj [("services", .obj services)]

/-- A service of the registered type, with these dependencies. -/
def testService (dependencies : List Json) : Json :=
  .obj [("service_type", .str "test-service"), ("dependencies", .arr dependencies)]

-- a service that another one depends on
example : validateConfig id testBuilder (servicesConfig [("svc1", testService []),
    ("svc2", testService [.obj [("service", .str "svc1")]])]) = .ok () := by
  decide +kernel

/-- A cycle, an entry without a type and a dependency that is a string are accepted. -/
theorem accepted_not_ensured :
    let circular := servicesConfig [
      ("svc1", testService [.obj [("service", .str "svc2")]]),
      ("svc2", testService [.obj [("service", .str "svc1")]])]
    let untyped := servicesConfig [("svc1", .obj [])]
    let unnamed := servicesConfig [("svc1", testService [.str "missing-service"])]
    (validateConfig id testBuilder circular = .ok () ∧ ¬ Ensured testBuilder circular) ∧
    (validateConfig id testBuilder untyped = .ok () ∧ ¬ Ensured testBuilder untyped) ∧
    (validateConfig id testBuilder unnamed = .ok () ∧ ¬ Ensured testBuilder unnamed) := by
  intro circular untyped unnamed
  refine ⟨⟨by decide +kernel, ?_⟩, ⟨by decide +kernel, ?_⟩, by decide +kernel, ?_⟩
  · intro h
    refine h.acyclic (.service "svc1") (.tail (.single (b := .service "svc2") ?_) ?_)
    · exact ⟨_, List.mem_cons_self, _, List.mem_singleton_self _, rfl⟩
    · exact ⟨_, List.mem_cons_of_mem _ List.mem_cons_self, _, List.mem_singleton_self _, rfl⟩
  · intro h
    obtain ⟨type, htype, _⟩ := h.serviceTypes ("svc1", .obj []) (List.mem_singleton_self _)
    cases htype
  · intro h
    obtain ⟨node, hnode, _⟩ := h.dependencies
      (.service "svc1", testService [.str "missing-service"]) (List.mem_singleton_self _)
      (.str "missing-service") (List.mem_singleton_self _)
    cases hnode

end GraphHarness.HarnessCore
