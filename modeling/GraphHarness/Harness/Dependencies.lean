import GraphHarness.Config.Types
import GraphHarness.Traverse.DepthFirst
import Mathlib.Data.List.Sort
import Mathlib.Data.String.Basic

/-!
# Start and stop order (`commands/dependencies.rs`)

The two topological sorts and `get_affected_services`, translated over the
traversals of `Traverse`: forward along `dependencies`, reverse along the
inverted graph that `build_dependency_graph` makes. The source's recursions are
bounded by an explicit call depth (`none`: the depth ran out), and every
iteration over a collection goes through the run's `HashOrder`.

The abstract side is the relation `Config.DependsOn` and its closures; the two
edge relations of the traversals are proved equal to it (`edge_dependenciesOf`)
and to its converse (`edge_dependentsOf`), and from there on the library's
theorems are about the configuration.

The source's visited and visiting sets are the two parts of a `Walk`, and
`Traverse.depthFirst` is the search itself. Rust's recursion has no bound of its own; that a
depth beyond the number of services is enough is proved in `Harness.Order`.

The graph of dependents is built by a loop over all services and all their dependencies, in
the order of the map; `Represents` says which edges are there so far. A name that is listed
twice has two edges, as in the source, which changes nothing of what is reached.
-/

namespace GraphHarness.Dependencies

open Relation (ReflTransGen TransGen)
open Traverse (Edge Walk HasCycleIn)

/-! ## The source functions -/

/-- The error about a cycle. -/
def circularDependency (service : String) : String :=
  "Circular dependency detected involving service '" ++ service ++ "'"

/-- The error about a dependency that is not declared. -/
def unknownDependency (service dep : String) : String :=
  "Service '" ++ service ++ "' depends on unknown service '" ++ dep ++ "'"

/-- `graph.get_mut(dep)`, then `dependents.insert(service_name)`. -/
def addDependent (name : String) (graph : HashMap String (List String)) (dep : String) :
    HashMap String (List String) :=
  match graph.lookup dep with
  | some dependents => graph.insert dep (dependents.insert name)
  | none => graph

/-- One round of the second loop of `build_dependency_graph`. -/
def addDependencies (cfg : Config) (graph : HashMap String (List String)) (name : String) :
    HashMap String (List String) :=
  match cfg.services.lookup name with
  | some service => service.dependencies.foldl (addDependent name) graph
  | none => graph

/-- `build_dependency_graph`: every service with the services that depend on it. -/
def buildDependencyGraph (ord : HashOrder) (cfg : Config) : HashMap String (List String) :=
  let names := ord.iter .services cfg.services.keys
  let graph := names.foldl (fun graph name => graph.insert name []) ∅
  names.foldl (addDependencies cfg) graph

/-- The set `graph.get(service)` in iteration order; empty for an unknown name. -/
def dependentsOf (ord : HashOrder) (graph : HashMap String (List String)) (service : String) :
    List String :=
  match graph.lookup service with
  | some dependents => ord.iter (.dependents service) dependents
  | none => []

/-- `config.services.get(service)`'s `dependencies`; empty for an unknown name. -/
def dependenciesOf (cfg : Config) (service : String) : List String :=
  match cfg.services.lookup service with
  | some service => service.dependencies
  | none => []

/-- `collect_dependents`. -/
def collectDependents (ord : HashOrder) (graph : HashMap String (List String)) (depth : Nat) :
    String → List String → Option (List String) :=
  Traverse.collect (dependentsOf ord graph) depth

/-- The loop of `collect_dependencies` over one service's dependencies. -/
def collectEachDependency (recurse : String → List String → Option (Except String (List String)))
    (cfg : Config) (service : String) :
    List String → List String → Option (Except String (List String))
  | [], collected => some (.ok collected)
  | dep :: deps, collected =>
    if dep ∈ collected then collectEachDependency recurse cfg service deps collected
    else if dep ∉ cfg.services then some (.error (unknownDependency service dep))
    else
      match recurse dep (dep :: collected) with
      | some (.ok collected') => collectEachDependency recurse cfg service deps collected'
      | stop => stop

/-- `collect_dependencies`. A service that is not in the file has no dependencies to follow. -/
def collectDependencies (cfg : Config) :
    Nat → String → List String → Option (Except String (List String))
  | 0, _, _ => none
  | depth + 1, service, collected =>
    match cfg.services.lookup service with
    | some s =>
      collectEachDependency (collectDependencies cfg depth) cfg service s.dependencies collected
    | none => some (.ok collected)

/-- `dfs_reverse`. -/
def dfsReverse (ord : HashOrder) (graph : HashMap String (List String)) (depth : Nat) :
    String → Walk String → Option (Except String (Walk String)) :=
  Traverse.depthFirst (dependentsOf ord graph) circularDependency depth

/-- `dfs_forward`. -/
def dfsForward (cfg : Config) (depth : Nat) :
    String → Walk String → Option (Except String (Walk String)) :=
  Traverse.depthFirst (dependenciesOf cfg) circularDependency depth

/-- `services_to_stop`: the request with everything that depends on it. -/
def servicesToStop (ord : HashOrder) (depth : Nat) (cfg : Config) (services : List String) :
    Option (List String) :=
  if services = [] then some (ord.iter .services cfg.services.keys)
  else
    match Traverse.closure (collectDependents ord (buildDependencyGraph ord cfg) depth)
        services [] with
    | some toStop => some (ord.iter .toStop toStop)
    | none => none

/-- `reverse_topological_sort`, as a list of services to stop. -/
def reverseTopologicalSort (ord : HashOrder) (depth : Nat) (cfg : Config)
    (services : List String) : Option (Except String (List String)) :=
  match servicesToStop ord depth cfg services with
  | some starts =>
    Traverse.order (dfsReverse ord (buildDependencyGraph ord cfg) depth) starts
  | none => none

/-- The seeding loop of `topological_sort`. -/
def collectRequested (cfg : Config) (depth : Nat) :
    List String → List String → Option (Except String (List String))
  | [], toStart => some (.ok toStart)
  | service :: services, toStart =>
    match collectDependencies cfg depth service (toStart.insert service) with
    | some (.ok toStart') => collectRequested cfg depth services toStart'
    | stop => stop

/-- `services_to_start`: the request with everything it depends on. -/
def servicesToStart (ord : HashOrder) (depth : Nat) (cfg : Config) (services : List String) :
    Option (Except String (List String)) :=
  if services = [] then some (.ok (ord.iter .services cfg.services.keys))
  else
    match collectRequested cfg depth services [] with
    | some (.ok toStart) => some (.ok (ord.iter .toStart toStart))
    | stop => stop

/-- `topological_sort`, as a list of services to start. -/
def topologicalSort (ord : HashOrder) (depth : Nat) (cfg : Config) (services : List String) :
    Option (Except String (List String)) :=
  match servicesToStart ord depth cfg services with
  | some (.ok starts) => Traverse.order (dfsForward cfg depth) starts
  | stop => stop

/-- `get_affected_services`, sorted by name. -/
def getAffectedServices (ord : HashOrder) (depth : Nat) (cfg : Config) (services : List String) :
    Option (List String) :=
  match Traverse.strictClosure (collectDependents ord (buildDependencyGraph ord cfg) depth)
      services [] with
  | some affected =>
    some ((ord.iter .affected (services.foldl List.erase affected)).insertionSort (· ≤ ·))
  | none => none

/-! ## The two edge relations -/

/-- The forward walk follows the dependencies. -/
theorem edge_dependenciesOf (cfg : Config) : Edge (dependenciesOf cfg) = cfg.DependsOn := by
  funext a b
  simp only [Edge, dependenciesOf, Config.DependsOn, eq_iff_iff]
  cases cfg.services.lookup a with
  | none => simp
  | some service => simp

/-- The graph lists for every service of the configuration the names that `R`
relates to it, and nothing else. -/
def Represents (cfg : Config) (R : String → String → Prop)
    (graph : HashMap String (List String)) : Prop :=
  ∀ v, (v ∈ cfg.services → ∃ dependents, graph.lookup v = some dependents ∧
      ∀ x, x ∈ dependents ↔ R x v) ∧
    (v ∉ cfg.services → graph.lookup v = none)

/-- A graph represents a relation by its values on the services. -/
theorem represents_congr {cfg : Config} {R R' : String → String → Prop}
    {graph : HashMap String (List String)} (h : Represents cfg R graph)
    (hR : ∀ v ∈ cfg.services, ∀ x, R x v ↔ R' x v) : Represents cfg R' graph := by
  intro v
  refine ⟨fun hv => ?_, (h v).2⟩
  obtain ⟨dependents, hl, hmem⟩ := (h v).1 hv
  exact ⟨dependents, hl, fun x => (hmem x).trans (hR v hv x)⟩

/-- The graph that is built first has no edges. -/
theorem represents_init {cfg : Config} : ∀ (names : List String)
    {graph : HashMap String (List String)},
    (∀ v, v ∉ cfg.services → v ∉ names ∧ graph.lookup v = none) →
    (∀ v ∈ cfg.services, v ∈ names ∨ graph.lookup v = some []) →
    Represents cfg (fun _ _ => False)
      (names.foldl (fun graph name => graph.insert name []) graph) := by
  intro names
  induction names with
  | nil =>
    intro graph hout hin v
    refine ⟨fun hv => ⟨[], ?_, by simp⟩, fun hv => (hout v hv).2⟩
    simpa using hin v hv
  | cons name names ih =>
    intro graph hout hin
    rw [List.foldl_cons]
    apply ih
    · intro v hv
      have hne : v ≠ name := fun he => (hout v hv).1 (he ▸ List.mem_cons_self ..)
      refine ⟨fun hm => (hout v hv).1 (List.mem_cons_of_mem _ hm), ?_⟩
      rw [AList.lookup_insert_ne hne]
      exact (hout v hv).2
    · intro v hv
      by_cases hvn : v = name
      · subst hvn
        exact Or.inr (AList.lookup_insert graph)
      · rw [AList.lookup_insert_ne hvn]
        simpa [hvn] using hin v hv

/-- One dependency adds one edge. -/
theorem represents_addDependent {cfg : Config} {R : String → String → Prop}
    {graph : HashMap String (List String)} (h : Represents cfg R graph) (name dep : String) :
    Represents cfg (fun x v => R x v ∨ (x = name ∧ v = dep)) (addDependent name graph dep) := by
  intro v
  unfold addDependent
  cases hl : graph.lookup dep with
  | none =>
    -- `get_mut` finds nothing: the name is not configured
    have hdep : dep ∉ cfg.services := fun hd => by
      obtain ⟨dependents, hsome, _⟩ := (h dep).1 hd
      simp [hl] at hsome
    refine ⟨fun hv => ?_, (h v).2⟩
    obtain ⟨dependents, hsome, hmem⟩ := (h v).1 hv
    refine ⟨dependents, hsome, fun x => ?_⟩
    have hvd : v ≠ dep := fun he => hdep (he ▸ hv)
    simp [hmem, hvd]
  | some dependents =>
    dsimp only
    by_cases hvd : v = dep
    · subst hvd
      have hv : v ∈ cfg.services := by
        by_contra hv
        simp [(h v).2 hv] at hl
      obtain ⟨dependents', hsome, hmem⟩ := (h v).1 hv
      obtain rfl : dependents = dependents' := by simpa [hl] using hsome
      refine ⟨fun _ => ⟨dependents.insert name, AList.lookup_insert graph, fun x => ?_⟩,
        fun hv' => absurd hv hv'⟩
      simp [hmem, or_comm]
    · rw [AList.lookup_insert_ne hvd]
      simpa [hvd] using h v

/-- The dependencies of a service add an edge each. -/
theorem represents_addDependents {cfg : Config} (name : String) :
    ∀ (deps : List String) {R : String → String → Prop} {graph : HashMap String (List String)},
      Represents cfg R graph →
      Represents cfg (fun x v => R x v ∨ (x = name ∧ v ∈ deps))
        (deps.foldl (addDependent name) graph) := by
  intro deps
  induction deps with
  | nil => intro R graph h; exact represents_congr h (by simp)
  | cons dep deps ih =>
    intro R graph h
    rw [List.foldl_cons]
    refine represents_congr (ih (represents_addDependent h name dep)) (fun v _ x => ?_)
    simp only [List.mem_cons]
    tauto

/-- The edges of one entry of the file. -/
theorem represents_addDependencies {cfg : Config} {R : String → String → Prop}
    {graph : HashMap String (List String)} (h : Represents cfg R graph) (name : String) :
    Represents cfg (fun x v => R x v ∨ (x = name ∧ cfg.DependsOn name v))
      (addDependencies cfg graph name) := by
  unfold addDependencies
  cases hl : cfg.services.lookup name with
  | none => exact represents_congr h (by simp [Config.DependsOn, hl])
  | some service =>
    refine represents_congr (represents_addDependents name service.dependencies h) ?_
    simp [Config.DependsOn, hl]

/-- The edges of all entries. -/
theorem represents_foldl {cfg : Config} : ∀ (names : List String)
    {R : String → String → Prop} {graph : HashMap String (List String)},
    Represents cfg R graph →
    Represents cfg (fun x v => R x v ∨ (x ∈ names ∧ cfg.DependsOn x v))
      (names.foldl (addDependencies cfg) graph) := by
  intro names
  induction names with
  | nil => intro R graph h; exact represents_congr h (by simp)
  | cons name names ih =>
    intro R graph h
    rw [List.foldl_cons]
    refine represents_congr (ih (represents_addDependencies h name)) (fun v _ x => ?_)
    simp only [List.mem_cons]
    constructor
    · rintro ((hR | ⟨rfl, hd⟩) | ⟨hx, hd⟩)
      · exact Or.inl hR
      · exact Or.inr ⟨Or.inl rfl, hd⟩
      · exact Or.inr ⟨Or.inr hx, hd⟩
    · rintro (hR | ⟨rfl | hx, hd⟩)
      · exact Or.inl (Or.inl hR)
      · exact Or.inl (Or.inr ⟨rfl, hd⟩)
      · exact Or.inr ⟨hx, hd⟩

/-- A service with dependencies is declared. -/
theorem mem_services_of_dependsOn {cfg : Config} {a b : String} (h : cfg.DependsOn a b) :
    a ∈ cfg.services := by
  obtain ⟨service, hl, _⟩ := h
  exact AList.lookup_isSome.mp (by simp [hl])

/-- **The graph is the inverted dependency relation**, whatever order it was
built in. -/
theorem buildDependencyGraph_spec (ord : HashOrder) (cfg : Config) :
    Represents cfg (fun x v => cfg.DependsOn x v) (buildDependencyGraph ord cfg) := by
  have hinit : Represents cfg (fun _ _ => False)
      ((ord.iter .services cfg.services.keys).foldl
        (fun graph name => graph.insert name []) ∅) := by
    apply represents_init
    · intro v hv
      simpa [AList.mem_keys] using hv
    · intro v hv
      exact Or.inl (by simpa [AList.mem_keys] using hv)
  refine represents_congr (represents_foldl _ hinit) (fun v _ x => ?_)
  constructor
  · rintro (h | ⟨_, h⟩)
    · exact h.elim
    · exact h
  · intro h
    exact Or.inr ⟨by simpa [AList.mem_keys] using mem_services_of_dependsOn h, h⟩

/-- The backward walk follows the dependencies the other way. -/
theorem edge_dependentsOf {cfg : Config} (hdeps : cfg.DependenciesExist) (ord : HashOrder) :
    Edge (dependentsOf ord (buildDependencyGraph ord cfg)) = Function.swap cfg.DependsOn := by
  funext v x
  simp only [Edge, dependentsOf, Function.swap, eq_iff_iff]
  by_cases hv : v ∈ cfg.services
  · obtain ⟨dependents, hl, hmem⟩ := (buildDependencyGraph_spec ord cfg v).1 hv
    simp [hl, hmem]
  · rw [(buildDependencyGraph_spec ord cfg v).2 hv]
    simp only [List.not_mem_nil, false_iff]
    exact fun h => hv (hdeps x v h)

end GraphHarness.Dependencies
