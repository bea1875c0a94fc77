import GraphHarness.Harness.Dependencies

/-!
# What the two sorts return

Everything the CLI relies on when it starts and stops services, for every
request, every hash order and every configuration whose dependencies exist:

* `topologicalSort_correct`: the start order is the dependency closure of the
  request, dependencies first;
* `sort_fails_iff_cycle`: both sorts return, and fail exactly on a cycle of the
  subgraph they were asked about — so the hash order never decides;
* `stopOrder_agrees_with_affected`: the stop order is the request together with
  what `get_affected_services` announces.

The proofs use the traversals of `Traverse` by name: the closure collectors reach exactly what
is reachable, the search returns a topological order of it or finds a cycle, and does so at
any depth beyond the number of nodes. What remains is to say which nodes the searches start
from (`servicesToStart_spec`, `servicesToStop_spec`), and that these are closed already.

`reverse_topological_sort` returns the post-order of the inverted graph and does not reverse
it; `reverseTopologicalSort_spec` is about that order as it is used. The announced services
are sorted by name, so they are compared as sets.
-/

namespace GraphHarness.Dependencies

open Relation (ReflTransGen TransGen)
open Traverse (Edge Walk HasCycleIn)

/-- A process with these dependencies and nothing else set. -/
def processService (binary : String) (dependencies : List String) : Service where
  serviceType := .process binary [] none none
  network := "local"
  env := ∅
  dependencies := dependencies
  healthCheck := none
  startupTimeout := none

/-- The chain `app → api → db` of the source's tests. -/
def createTestConfig : Config where
  version := "1.0"
  networks := []
  services :=
    ((AList.insert "db" (processService "postgres" []) ∅).insert "api"
      (processService "api-server" ["db"])).insert "app" (processService "app" ["api"])

/-- What has to run for a request: everything the request depends on, or the
whole configuration when nothing is named. -/
def dependencyClosure (cfg : Config) (services : List String) (x : String) : Prop :=
  if services = [] then x ∈ cfg.services
  else ∃ s ∈ services, ReflTransGen cfg.DependsOn s x

/-- What has to stop for a request: everything that depends on it. -/
def dependentClosure (cfg : Config) (services : List String) (x : String) : Prop :=
  if services = [] then x ∈ cfg.services
  else ∃ s ∈ services, ReflTransGen (Function.swap cfg.DependsOn) s x

/-- What a service of the closure depends on is in it. -/
theorem dependencyClosure_step {cfg : Config} (hdeps : cfg.DependenciesExist)
    {services : List String} {a b : String} (ha : dependencyClosure cfg services a)
    (hab : cfg.DependsOn a b) : dependencyClosure cfg services b := by
  unfold dependencyClosure at ha ⊢
  by_cases hnil : services = []
  · rw [if_pos hnil]
    exact hdeps a b hab
  · rw [if_neg hnil] at ha ⊢
    obtain ⟨s, hs, hr⟩ := ha
    exact ⟨s, hs, hr.tail hab⟩

/-- What depends on a service of the closure is in it. -/
theorem dependentClosure_step {cfg : Config} {services : List String} {a b : String}
    (ha : dependentClosure cfg services a) (hab : cfg.DependsOn b a) :
    dependentClosure cfg services b := by
  unfold dependentClosure at ha ⊢
  by_cases hnil : services = []
  · rw [if_pos hnil]
    exact mem_services_of_dependsOn hab
  · rw [if_neg hnil] at ha ⊢
    obtain ⟨s, hs, hr⟩ := ha
    exact ⟨s, hs, hr.tail hab⟩

/-- Searching from a closed set reaches the closed set. -/
theorem reach_closed_iff {E : String → String → Prop} {S : String → Prop}
    (hS : ∀ a b, S a → E a b → S b) {starts : List String} (hstarts : ∀ x, x ∈ starts ↔ S x)
    (x : String) : (∃ s ∈ starts, ReflTransGen E s x) ↔ S x := by
  constructor
  · rintro ⟨s, hs, hr⟩
    induction hr with
    | refl => exact (hstarts s).mp hs
    | tail _ hbc ih => exact hS _ _ ih hbc
  · intro hx
    exact ⟨x, (hstarts x).mpr hx, ReflTransGen.refl⟩

/-- What the walk reaches from the closure is the closure. -/
theorem reach_dependencyClosure {cfg : Config} (hdeps : cfg.DependenciesExist)
    {services starts : List String} (hstarts : ∀ x, x ∈ starts ↔ dependencyClosure cfg services x)
    (x : String) :
    (∃ s ∈ starts, ReflTransGen cfg.DependsOn s x) ↔ dependencyClosure cfg services x :=
  reach_closed_iff (fun _ _ ha hab => dependencyClosure_step hdeps ha hab) hstarts x

/-- What the backward walk reaches from its closure is that closure. -/
theorem reach_dependentClosure {cfg : Config} {services starts : List String}
    (hstarts : ∀ x, x ∈ starts ↔ dependentClosure cfg services x) (x : String) :
    (∃ s ∈ starts, ReflTransGen (Function.swap cfg.DependsOn) s x) ↔
      dependentClosure cfg services x :=
  reach_closed_iff (fun _ _ ha hab => dependentClosure_step ha hab) hstarts x

/-! ## The closure collectors -/

/-- With all dependencies declared, the loop over them has no error to report. -/
theorem collectEachDependency_eq {cfg : Config} {service : String}
    {recurse : String → List String → Option (Except String (List String))}
    {visit : String → List String → Option (List String)}
    (hrec : ∀ dep collected, recurse dep collected = (visit dep collected).map .ok) :
    ∀ (deps : List String), (∀ dep ∈ deps, dep ∈ cfg.services) → ∀ (collected : List String),
      collectEachDependency recurse cfg service deps collected =
        (Traverse.collectEach visit deps collected).map .ok := by
  intro deps
  induction deps with
  | nil => intro _ collected; rfl
  | cons dep deps ih =>
    intro hdeps collected
    have ih' := ih (fun d hd => hdeps d (List.mem_cons_of_mem _ hd))
    rw [collectEachDependency, Traverse.collectEach]
    by_cases hmem : dep ∈ collected
    · rw [if_pos hmem, if_pos hmem]
      exact ih' collected
    · rw [if_neg hmem, if_neg hmem, if_neg (by simpa using hdeps dep (List.mem_cons_self ..)), hrec]
      cases visit dep (dep :: collected) with
      | none => rfl
      | some collected' => exact ih' collected'

/-- Where every dependency exists, `collect_dependencies` is the plain
collection along `dependencies`: its error branch is not reached. -/
theorem collectDependencies_eq {cfg : Config} (hdeps : cfg.DependenciesExist) :
    ∀ (depth : Nat) (service : String) (collected : List String),
      collectDependencies cfg depth service collected =
        (Traverse.collect (dependenciesOf cfg) depth service collected).map .ok := by
  intro depth
  induction depth with
  | zero => intro service collected; rfl
  | succ depth ih =>
    intro service collected
    rw [collectDependencies, Traverse.collect, dependenciesOf]
    cases hl : cfg.services.lookup service with
    | none => rfl
    | some s =>
      exact collectEachDependency_eq ih s.dependencies
        (fun dep hdep => hdeps service dep ⟨s, hl, hdep⟩) collected

/-- So collecting from the requested services is the collection of the library. -/
theorem collectRequested_eq {cfg : Config} (hdeps : cfg.DependenciesExist) (depth : Nat) :
    ∀ (services toStart : List String),
      collectRequested cfg depth services toStart =
        (Traverse.closure (Traverse.collect (dependenciesOf cfg) depth) services toStart).map
          .ok := by
  intro services
  induction services with
  | nil => intro toStart; rfl
  | cons service services ih =>
    intro toStart
    rw [collectRequested, collectDependencies_eq hdeps, Traverse.closure, Traverse.collectFrom,
      if_pos rfl]
    cases hc : Traverse.collect (dependenciesOf cfg) depth service (toStart.insert service) with
    | none => rfl
    | some toStart' => exact ih toStart'

/-! ## Where the depth-first searches start -/

/-- The services to start are the closure of those requested. -/
theorem servicesToStart_spec {cfg : Config} (hdeps : cfg.DependenciesExist) {ord : HashOrder}
    {depth : Nat} {services : List String} {r : Except String (List String)}
    (h : servicesToStart ord depth cfg services = some r) :
    ∃ starts, r = .ok starts ∧ ∀ x, x ∈ starts ↔ dependencyClosure cfg services x := by
  unfold servicesToStart at h
  split at h
  next hnil =>
    refine ⟨_, (Option.some.inj h).symm, fun x => ?_⟩
    simp [dependencyClosure, hnil, AList.mem_keys]
  next hne =>
    rw [collectRequested_eq hdeps] at h
    cases hc : Traverse.closure (Traverse.collect (dependenciesOf cfg) depth) services [] with
    | none => simp [hc] at h
    | some toStart =>
      rw [hc] at h
      refine ⟨_, (Option.some.inj h).symm, fun x => ?_⟩
      rw [HashOrder.mem_iter, (Traverse.closure_spec hc).2 x, edge_dependenciesOf]
      simp [dependencyClosure, hne]

/-- The services to stop are the closure of those requested, the other way. -/
theorem servicesToStop_spec {cfg : Config} (hdeps : cfg.DependenciesExist) {ord : HashOrder}
    {depth : Nat} {services starts : List String}
    (h : servicesToStop ord depth cfg services = some starts) (x : String) :
    x ∈ starts ↔ dependentClosure cfg services x := by
  unfold servicesToStop at h
  split at h
  next hnil =>
    -- nothing named: all services stop
    obtain rfl := Option.some.inj h
    simp [dependentClosure, hnil, AList.mem_keys]
  next hne =>
    split at h
    next toStop hc =>
      obtain rfl := Option.some.inj h
      rw [HashOrder.mem_iter, (Traverse.closure_spec hc).2 x, edge_dependentsOf hdeps]
      simp [dependentClosure, hne]
    next => simp at h

/-! ## The call depth that is enough -/

/-- The nodes an edge can end in. -/
def nodes (cfg : Config) : Finset String := cfg.services.keys.toFinset

/-- There are as many nodes as services. -/
theorem card_nodes (cfg : Config) : (nodes cfg).card = cfg.services.keys.length :=
  List.toFinset_card_of_nodup cfg.services.keys_nodup

/-- The nodes are the services. -/
theorem mem_nodes {cfg : Config} {x : String} : x ∈ nodes cfg ↔ x ∈ cfg.services := by
  rw [nodes, List.mem_toFinset, AList.mem_keys]

/-- The dependencies of a node are nodes. -/
theorem dependenciesOf_mem_nodes {cfg : Config} (hdeps : cfg.DependenciesExist) :
    ∀ v, ∀ w ∈ dependenciesOf cfg v, w ∈ nodes cfg := by
  intro v w hw
  have hE : Edge (dependenciesOf cfg) v w := hw
  rw [edge_dependenciesOf] at hE
  exact mem_nodes.mpr (hdeps v w hE)

/-- The dependents of a node are nodes. -/
theorem dependentsOf_mem_nodes {cfg : Config} (hdeps : cfg.DependenciesExist) (ord : HashOrder) :
    ∀ v, ∀ w ∈ dependentsOf ord (buildDependencyGraph ord cfg) v, w ∈ nodes cfg := by
  intro v w hw
  have hE : Edge (dependentsOf ord (buildDependencyGraph ord cfg)) v w := hw
  rw [edge_dependentsOf hdeps] at hE
  exact mem_nodes.mpr (mem_services_of_dependsOn hE)

/-- A name the configuration does not know is a node without edges. -/
theorem dependenciesOf_known_or_nil (cfg : Config) (v : String) :
    v ∈ nodes cfg ∨ dependenciesOf cfg v = [] := by
  rw [mem_nodes, dependenciesOf]
  cases hl : cfg.services.lookup v with
  | none => exact Or.inr rfl
  | some s => exact Or.inl (AList.lookup_isSome.mp (by simp [hl]))

/-- A name that is no node has no dependents. -/
theorem dependentsOf_known_or_nil (ord : HashOrder) (cfg : Config) (v : String) :
    v ∈ nodes cfg ∨ dependentsOf ord (buildDependencyGraph ord cfg) v = [] := by
  by_cases hv : v ∈ cfg.services
  · exact Or.inl (mem_nodes.mpr hv)
  · refine Or.inr ?_
    rw [dependentsOf, (buildDependencyGraph_spec ord cfg v).2 hv]

/-- The collection ends: it goes no deeper than there are services. -/
theorem servicesToStart_total {cfg : Config} (hdeps : cfg.DependenciesExist) (ord : HashOrder)
    {depth : Nat} (hdepth : cfg.services.keys.length < depth) (services : List String) :
    ∃ starts, servicesToStart ord depth cfg services = some (.ok starts) := by
  unfold servicesToStart
  split
  next => exact ⟨_, rfl⟩
  next =>
    have hcard : (nodes cfg).card < depth := by rw [card_nodes]; exact hdepth
    obtain ⟨out, hout⟩ : ∃ out, Traverse.closure (Traverse.collect (dependenciesOf cfg) depth)
        services [] = some out :=
      Traverse.collectFrom_total (dependenciesOf_mem_nodes hdeps) hcard services []
    rw [collectRequested_eq hdeps, hout]
    exact ⟨_, rfl⟩

/-- The backward collection ends. -/
theorem servicesToStop_total {cfg : Config} (hdeps : cfg.DependenciesExist) (ord : HashOrder)
    {depth : Nat} (hdepth : cfg.services.keys.length < depth) (services : List String) :
    ∃ starts, servicesToStop ord depth cfg services = some starts := by
  unfold servicesToStop
  split
  next => exact ⟨_, rfl⟩
  next =>
    have hcard : (nodes cfg).card < depth := by rw [card_nodes]; exact hdepth
    obtain ⟨out, hout⟩ : ∃ out, Traverse.closure
        (collectDependents ord (buildDependencyGraph ord cfg) depth) services [] = some out :=
      Traverse.collectFrom_total (dependentsOf_mem_nodes hdeps ord) hcard services []
    rw [hout]
    exact ⟨_, rfl⟩

/-- The sort returns. -/
theorem topologicalSort_total {cfg : Config} (hdeps : cfg.DependenciesExist) (ord : HashOrder)
    {depth : Nat} (hdepth : cfg.services.keys.length < depth) (services : List String) :
    ∃ r, topologicalSort ord depth cfg services = some r := by
  obtain ⟨starts, hs⟩ := servicesToStart_total hdeps ord hdepth services
  rw [topologicalSort, hs]
  exact Traverse.order_total circularDependency (dependenciesOf_mem_nodes hdeps)
    (by rw [card_nodes]; exact hdepth) (fun s _ => dependenciesOf_known_or_nil cfg s)

/-- The reverse sort returns. -/
theorem reverseTopologicalSort_total {cfg : Config} (hdeps : cfg.DependenciesExist)
    (ord : HashOrder) {depth : Nat} (hdepth : cfg.services.keys.length < depth)
    (services : List String) : ∃ r, reverseTopologicalSort ord depth cfg services = some r := by
  obtain ⟨starts, hs⟩ := servicesToStop_total hdeps ord hdepth services
  rw [reverseTopologicalSort, hs]
  exact Traverse.order_total circularDependency (dependentsOf_mem_nodes hdeps ord)
    (by rw [card_nodes]; exact hdepth) (fun s _ => dependentsOf_known_or_nil ord cfg s)

/-! A run that did not exhaust its call depth is the run at every larger depth. -/

/-- More depth does not change what the sort returns. -/
theorem topologicalSort_mono {cfg : Config} (hdeps : cfg.DependenciesExist) {ord : HashOrder}
    {depth depth' : Nat} (hle : depth ≤ depth') {services : List String}
    {r : Except String (List String)} (h : topologicalSort ord depth cfg services = some r) :
    topologicalSort ord depth' cfg services = some r := by
  have hstart : ∀ starts, servicesToStart ord depth cfg services = some (.ok starts) →
      servicesToStart ord depth' cfg services = some (.ok starts) := by
    intro starts hs
    unfold servicesToStart at hs ⊢
    split
    next hnil => rwa [if_pos hnil] at hs
    next hne =>
      rw [if_neg hne, collectRequested_eq hdeps] at hs
      rw [collectRequested_eq hdeps]
      cases hc : Traverse.closure (Traverse.collect (dependenciesOf cfg) depth) services [] with
      | none => simp [hc] at hs
      | some toStart =>
        rw [hc] at hs
        rw [show Traverse.closure _ _ _ = some toStart from
          Traverse.collectFrom_mono hle services [] hc]
        exact hs
  unfold topologicalSort at h ⊢
  cases hs : servicesToStart ord depth cfg services with
  | none => simp [hs] at h
  | some res =>
    cases res with
    | ok starts =>
      rw [hs] at h
      rw [hstart starts hs]
      exact Traverse.order_mono hle h
    | error e =>
      -- where dependencies exist the collectors have no error to return
      obtain ⟨starts, hok, _⟩ := servicesToStart_spec hdeps hs
      simp at hok

/-- More depth does not change what the reverse sort returns. -/
theorem reverseTopologicalSort_mono {cfg : Config} {ord : HashOrder}
    {depth depth' : Nat} (hle : depth ≤ depth') {services : List String}
    {r : Except String (List String)}
    (h : reverseTopologicalSort ord depth cfg services = some r) :
    reverseTopologicalSort ord depth' cfg services = some r := by
  have hstart : ∀ starts, servicesToStop ord depth cfg services = some starts →
      servicesToStop ord depth' cfg services = some starts := by
    intro starts hs
    unfold servicesToStop at hs ⊢
    split
    next hnil => rwa [if_pos hnil] at hs
    next hne =>
      rw [if_neg hne] at hs
      split at hs
      next toStop hc =>
        have hc' : Traverse.closure (collectDependents ord (buildDependencyGraph ord cfg) depth')
            services [] = some toStop := Traverse.collectFrom_mono hle services [] hc
        rw [hc']
        exact hs
      next => simp at hs
  unfold reverseTopologicalSort at h ⊢
  cases hs : servicesToStop ord depth cfg services with
  | none => simp [hs] at h
  | some starts =>
    rw [hs] at h
    rw [hstart starts hs]
    exact Traverse.order_mono hle h

/-! ## The start order -/

/-- A finished `topological_sort` was a depth-first search along
`dependencies` from the dependency closure. -/
theorem topologicalSort_order {cfg : Config} (hdeps : cfg.DependenciesExist) {ord : HashOrder}
    {depth : Nat} {services : List String} {r : Except String (List String)}
    (h : topologicalSort ord depth cfg services = some r) :
    ∃ starts, (∀ x, x ∈ starts ↔ dependencyClosure cfg services x) ∧
      Traverse.order (dfsForward cfg depth) starts = some r := by
  unfold topologicalSort at h
  split at h
  next starts hs =>
    obtain ⟨_, hok, hmem⟩ := servicesToStart_spec hdeps hs
    obtain rfl := Except.ok.inj hok
    exact ⟨starts, hmem, h⟩
  next stop hne =>
    obtain ⟨starts, rfl, _⟩ := servicesToStart_spec hdeps h
    exact absurd h (hne starts)

/-- No service is in the order twice. -/
theorem topologicalSort_nodup {cfg : Config} (hdeps : cfg.DependenciesExist) {ord : HashOrder}
    {depth : Nat} {services order : List String}
    (h : topologicalSort ord depth cfg services = some (.ok order)) : order.Nodup := by
  obtain ⟨starts, _, ho⟩ := topologicalSort_order hdeps h
  exact (Traverse.order_spec ho).1

/-- The order holds the closure of the requested services. -/
theorem mem_topologicalSort {cfg : Config} (hdeps : cfg.DependenciesExist) {ord : HashOrder}
    {depth : Nat} {services order : List String}
    (h : topologicalSort ord depth cfg services = some (.ok order)) (x : String) :
    x ∈ order ↔ dependencyClosure cfg services x := by
  obtain ⟨starts, hmem, ho⟩ := topologicalSort_order hdeps h
  rw [(Traverse.order_spec ho).2.1, edge_dependenciesOf]
  exact reach_dependencyClosure hdeps hmem x

/-- Each dependency stands before the service. -/
theorem topologicalSort_before {cfg : Config} (hdeps : cfg.DependenciesExist) {ord : HashOrder}
    {depth : Nat} {services order : List String}
    (h : topologicalSort ord depth cfg services = some (.ok order)) :
    ∀ pre s post, order = pre ++ s :: post → ∀ d, cfg.DependsOn s d → d ∈ pre := by
  obtain ⟨starts, _, ho⟩ := topologicalSort_order hdeps h
  intro pre s post hsplit d hd
  refine (Traverse.order_spec ho).2.2 pre s post hsplit d ?_
  rwa [← edge_dependenciesOf] at hd

/-- What `s` depends on, directly or not, is ordered before it. -/
theorem mem_before_of_transGen {cfg : Config} (hdeps : cfg.DependenciesExist) {ord : HashOrder}
    {depth : Nat} {services order : List String}
    (h : topologicalSort ord depth cfg services = some (.ok order)) {s d : String}
    (hd : TransGen cfg.DependsOn s d) {pre post : List String} (hsplit : order = pre ++ s :: post) :
    d ∈ pre := by
  obtain ⟨starts, _, ho⟩ := topologicalSort_order hdeps h
  rw [← edge_dependenciesOf] at hd
  exact Traverse.mem_before_of_reach (Traverse.order_spec ho).2.2 hd hsplit

/-- The search begins with the service the hash order puts in front. -/
theorem servicesToStart_startingAt {cfg : Config} (hdeps : cfg.DependenciesExist) {depth : Nat}
    {services starts : List String} {s : String}
    (h : servicesToStart (HashOrder.startingAt s) depth cfg services = some (.ok starts))
    (hs : s ∈ starts) : ∃ rest, starts = s :: rest := by
  have hiter : ∃ site l, starts = (HashOrder.startingAt s).iter site l := by
    unfold servicesToStart at h
    split at h
    next => exact ⟨_, _, (Except.ok.inj (Option.some.inj h)).symm⟩
    next =>
      rw [collectRequested_eq hdeps] at h
      cases hc : Traverse.closure (Traverse.collect (dependenciesOf cfg) depth) services [] with
      | none => simp [hc] at h
      | some toStart =>
        rw [hc] at h
        exact ⟨_, _, (Except.ok.inj (Option.some.inj h)).symm⟩
  obtain ⟨site, l, rfl⟩ := hiter
  exact ⟨l.erase s, HashOrder.startingAt_iter (by simpa using hs) site⟩

/-- **Nothing but the dependencies of `s` has to come before `s`**: under some hash
order nothing else does. -/
theorem topologicalSort_startingAt {cfg : Config} (hdeps : cfg.DependenciesExist) {depth : Nat}
    {services order : List String} {s : String} (hs : dependencyClosure cfg services s)
    (h : topologicalSort (HashOrder.startingAt s) depth cfg services = some (.ok order)) :
    ∃ pre post, order = pre ++ s :: post ∧ ∀ x ∈ pre, TransGen cfg.DependsOn s x := by
  unfold topologicalSort at h
  split at h
  next starts hstarts =>
    obtain ⟨_, hok, hmem⟩ := servicesToStart_spec hdeps hstarts
    obtain rfl := Except.ok.inj hok
    obtain ⟨rest, rfl⟩ := servicesToStart_startingAt hdeps hstarts ((hmem s).mpr hs)
    have hfirst := Traverse.order_first h
    rwa [edge_dependenciesOf] at hfirst
  next stop hne =>
    exact absurd h (hne order)

/-- **The start order is correct and complete.** Whatever the hash order, an
`Ok` order lists the dependency closure of the request, each service once and
behind all of its dependencies. -/
theorem topologicalSort_correct {cfg : Config} (hdeps : cfg.DependenciesExist) (ord : HashOrder)
    {depth : Nat} {services order : List String}
    (h : topologicalSort ord depth cfg services = some (.ok order)) :
    order.Nodup ∧ (∀ x, x ∈ order ↔ dependencyClosure cfg services x) ∧
      ∀ pre s post, order = pre ++ s :: post → ∀ d, cfg.DependsOn s d → d ∈ pre :=
  ⟨topologicalSort_nodup hdeps h, mem_topologicalSort hdeps h, topologicalSort_before hdeps h⟩

/-- A database and a service that depends on it. -/
theorem topologicalSort_correct_api :
    ["db", "api"].Nodup ∧
      (∀ x, x ∈ ["db", "api"] ↔ dependencyClosure createTestConfig ["api"] x) ∧
      ∀ pre s post, ["db", "api"] = pre ++ s :: post →
        ∀ d, createTestConfig.DependsOn s d → d ∈ pre := by
  have h : topologicalSort HashOrder.stored 4 createTestConfig ["api"] =
      some (.ok ["db", "api"]) := by decide
  exact topologicalSort_correct (by decide) HashOrder.stored h

/-! ## Exactly the cycles are rejected -/

/-- A cycle is a cycle in either direction. -/
theorem hasCycleIn_swap {E : String → String → Prop} {S : String → Prop} :
    HasCycleIn (Function.swap E) S ↔ HasCycleIn E S := by
  have hswap : (fun a b => S a ∧ S b ∧ Function.swap E a b) =
      Function.swap (fun a b => S a ∧ S b ∧ E a b) := by
    funext a b
    simp only [Function.swap, eq_iff_iff]
    tauto
  unfold HasCycleIn
  rw [hswap]
  exact exists_congr fun c => Relation.transGen_swap

/-- The sort fails if and only if there is a cycle among what it would start. -/
theorem topologicalSort_error_iff {cfg : Config} (hdeps : cfg.DependenciesExist)
    {ord : HashOrder} {depth : Nat} {services : List String} {r : Except String (List String)}
    (h : topologicalSort ord depth cfg services = some r) :
    (∃ e, r = .error e) ↔ HasCycleIn cfg.DependsOn (dependencyClosure cfg services) := by
  obtain ⟨starts, hmem, ho⟩ := topologicalSort_order hdeps h
  have hreach : (fun x => ∃ s ∈ starts, ReflTransGen cfg.DependsOn s x) =
      dependencyClosure cfg services :=
    funext fun x => propext (reach_dependencyClosure hdeps hmem x)
  rw [Traverse.order_error_iff ho, edge_dependenciesOf, hreach]

/-- The reverse sort walks from its closure. -/
theorem reverseTopologicalSort_order {cfg : Config} (hdeps : cfg.DependenciesExist)
    {ord : HashOrder} {depth : Nat} {services : List String} {r : Except String (List String)}
    (h : reverseTopologicalSort ord depth cfg services = some r) :
    ∃ starts, (∀ x, x ∈ starts ↔ dependentClosure cfg services x) ∧
      Traverse.order (dfsReverse ord (buildDependencyGraph ord cfg) depth) starts = some r := by
  unfold reverseTopologicalSort at h
  split at h
  next starts hs => exact ⟨starts, servicesToStop_spec hdeps hs, h⟩
  next => simp at h

/-- The reverse sort fails if and only if there is a cycle among what it would stop. -/
theorem reverseTopologicalSort_error_iff {cfg : Config} (hdeps : cfg.DependenciesExist)
    {ord : HashOrder} {depth : Nat} {services : List String} {r : Except String (List String)}
    (h : reverseTopologicalSort ord depth cfg services = some r) :
    (∃ e, r = .error e) ↔ HasCycleIn cfg.DependsOn (dependentClosure cfg services) := by
  obtain ⟨starts, hmem, ho⟩ := reverseTopologicalSort_order hdeps h
  have hreach : (fun x => ∃ s ∈ starts, ReflTransGen (Function.swap cfg.DependsOn) s x) =
      dependentClosure cfg services :=
    funext fun x => propext (reach_dependentClosure hmem x)
  rw [Traverse.order_error_iff ho, edge_dependentsOf hdeps, hreach, hasCycleIn_swap]

/-- **Cycle rejection is exact.** Both sorts return on every configuration,
cyclic ones included; they fail exactly on a dependency cycle among the services
they were asked about; and so two runs that differ in the hash order only agree
on `Ok` or `Err`. -/
theorem sort_fails_iff_cycle {cfg : Config} (hdeps : cfg.DependenciesExist)
    (services : List String) :
    (∀ ord, ∃ r, (∀ depth, cfg.services.keys.length < depth →
        topologicalSort ord depth cfg services = some r) ∧
      ((∃ e, r = .error e) ↔ HasCycleIn cfg.DependsOn (dependencyClosure cfg services))) ∧
    (∀ ord, ∃ r, (∀ depth, cfg.services.keys.length < depth →
        reverseTopologicalSort ord depth cfg services = some r) ∧
      ((∃ e, r = .error e) ↔ HasCycleIn cfg.DependsOn (dependentClosure cfg services))) ∧
    (∀ ord ord' depth r r', topologicalSort ord depth cfg services = some r →
      topologicalSort ord' depth cfg services = some r' →
      ((∃ e, r = .error e) ↔ ∃ e, r' = .error e)) ∧
    ∀ ord ord' depth r r', reverseTopologicalSort ord depth cfg services = some r →
      reverseTopologicalSort ord' depth cfg services = some r' →
      ((∃ e, r = .error e) ↔ ∃ e, r' = .error e) := by
  refine ⟨fun ord => ?_, fun ord => ?_, ?_, ?_⟩
  · obtain ⟨r, hr⟩ := topologicalSort_total hdeps ord (Nat.lt_succ_self _) services
    exact ⟨r, fun depth hdepth => topologicalSort_mono hdeps hdepth hr,
      topologicalSort_error_iff hdeps hr⟩
  · obtain ⟨r, hr⟩ := reverseTopologicalSort_total hdeps ord (Nat.lt_succ_self _) services
    exact ⟨r, fun depth hdepth => reverseTopologicalSort_mono hdepth hr,
      reverseTopologicalSort_error_iff hdeps hr⟩
  · intro ord ord' depth r r' h h'
    rw [topologicalSort_error_iff hdeps h, topologicalSort_error_iff hdeps h']
  · intro ord ord' depth r r' h h'
    rw [reverseTopologicalSort_error_iff hdeps h, reverseTopologicalSort_error_iff hdeps h']

/-- One run without an error settles that the chain has no cycle. -/
theorem createTestConfig_acyclic :
    ¬ HasCycleIn createTestConfig.DependsOn (dependencyClosure createTestConfig []) := by
  have hdeps : createTestConfig.DependenciesExist := by decide
  obtain ⟨r, hr, hiff⟩ := (sort_fails_iff_cycle hdeps []).1 HashOrder.stored
  have hrun : topologicalSort HashOrder.stored 4 createTestConfig [] =
      some (.ok ["db", "api", "app"]) := by decide
  obtain rfl := Option.some.inj ((hr 4 (by decide)).symm.trans hrun)
  rw [← hiff]
  simp

/-! ## The stop order and the announced services -/

/-- Erasing the requested services leaves the others. -/
theorem mem_foldl_erase : ∀ (services affected : List String), affected.Nodup → ∀ (x : String),
    x ∈ services.foldl List.erase affected ↔ x ∈ affected ∧ x ∉ services := by
  intro services
  induction services with
  | nil => intro affected _ x; simp
  | cons s services ih =>
    intro affected hnodup x
    rw [List.foldl_cons, ih _ (hnodup.erase s), hnodup.mem_erase_iff]
    simp only [List.mem_cons]
    tauto

/-- Erasing adds no duplicate. -/
theorem nodup_foldl_erase : ∀ (services : List String) {affected : List String},
    affected.Nodup → (services.foldl List.erase affected).Nodup := by
  intro services
  induction services with
  | nil => intro affected h; exact h
  | cons s services ih => intro affected h; exact ih (h.erase s)

/-- What `get_affected_services` announces: the transitive dependents of the
request that the request does not name, sorted. -/
theorem getAffectedServices_spec {cfg : Config} (hdeps : cfg.DependenciesExist) {ord : HashOrder}
    {depth : Nat} {services affected : List String}
    (h : getAffectedServices ord depth cfg services = some affected) :
    affected.Pairwise (· < ·) ∧ ∀ x, x ∈ affected ↔
      (∃ s ∈ services, TransGen (Function.swap cfg.DependsOn) s x) ∧ x ∉ services := by
  unfold getAffectedServices at h
  split at h
  next set hset =>
    obtain rfl := Option.some.inj h
    obtain ⟨hnodup, hmem⟩ := Traverse.strictClosure_spec hset
    rw [edge_dependentsOf hdeps] at hmem
    have hperm := (List.perm_insertionSort (· ≤ ·)
      (ord.iter .affected (services.foldl List.erase set))).trans (ord.perm .affected _)
    refine ⟨?_, fun x => ?_⟩
    · have hsorted := List.pairwise_insertionSort (· ≤ ·)
        (ord.iter .affected (services.foldl List.erase set))
      have hdistinct := hperm.nodup_iff.mpr (nodup_foldl_erase services hnodup)
      exact (hsorted.and hdistinct).imp (fun h => lt_of_le_of_ne h.1 h.2)
    · rw [hperm.mem_iff, mem_foldl_erase services set hnodup, hmem]
  next => simp at h

/-- The affected services are found. -/
theorem getAffectedServices_total {cfg : Config} (hdeps : cfg.DependenciesExist) (ord : HashOrder)
    {depth : Nat} (hdepth : cfg.services.keys.length < depth) (services : List String) :
    ∃ affected, getAffectedServices ord depth cfg services = some affected := by
  obtain ⟨out, hout⟩ : ∃ out, Traverse.strictClosure
      (collectDependents ord (buildDependencyGraph ord cfg) depth) services [] = some out :=
    Traverse.collectFrom_total (dependentsOf_mem_nodes hdeps ord)
      (by rw [card_nodes]; exact hdepth) services []
  rw [getAffectedServices, hout]
  exact ⟨_, rfl⟩

/-- The reverse order: the closure, once each, dependents first. -/
theorem reverseTopologicalSort_spec {cfg : Config} (hdeps : cfg.DependenciesExist)
    {ord : HashOrder} {depth : Nat} {services order : List String}
    (h : reverseTopologicalSort ord depth cfg services = some (.ok order)) :
    order.Nodup ∧ (∀ x, x ∈ order ↔ dependentClosure cfg services x) ∧
      ∀ pre s post, order = pre ++ s :: post → ∀ t, cfg.DependsOn t s → t ∈ pre := by
  obtain ⟨starts, hmem, ho⟩ := reverseTopologicalSort_order hdeps h
  obtain ⟨hnodup, hreach, hord⟩ := Traverse.order_spec ho
  have hedge := edge_dependentsOf hdeps ord
  rw [hedge] at hreach
  refine ⟨hnodup, fun x => ?_, fun pre s post hsplit t ht => ?_⟩
  · rw [hreach, reach_dependentClosure hmem]
  · have hE : Edge (dependentsOf ord (buildDependencyGraph ord cfg)) s t := by
      rw [hedge]
      exact ht
    exact hord pre s post hsplit t hE

/-- What depends on `s`, directly or not, is ordered before it. -/
theorem mem_before_of_dependent {cfg : Config} (hdeps : cfg.DependenciesExist) {ord : HashOrder}
    {depth : Nat} {services order : List String}
    (h : reverseTopologicalSort ord depth cfg services = some (.ok order)) {s t : String}
    (ht : TransGen cfg.DependsOn t s) {pre post : List String}
    (hsplit : order = pre ++ s :: post) : t ∈ pre := by
  obtain ⟨starts, _, ho⟩ := reverseTopologicalSort_order hdeps h
  have hreach := Relation.transGen_swap.mpr ht
  rw [← edge_dependentsOf hdeps ord] at hreach
  exact Traverse.mem_before_of_reach (Traverse.order_spec ho).2.2 hreach hsplit

/-- The request and its strict dependents make up the dependent closure, also
where a requested service is its own transitive dependent. -/
theorem dependentClosure_iff {cfg : Config} {services : List String} (hne : services ≠ [])
    (x : String) : dependentClosure cfg services x ↔
      x ∈ services ∨ ((∃ s ∈ services, TransGen (Function.swap cfg.DependsOn) s x) ∧
        x ∉ services) := by
  rw [dependentClosure, if_neg hne]
  constructor
  · rintro ⟨s, hs, hr⟩
    by_cases hx : x ∈ services
    · exact Or.inl hx
    · rcases Relation.reflTransGen_iff_eq_or_transGen.mp hr with rfl | ht
      · exact absurd hs hx
      · exact Or.inr ⟨⟨s, hs, ht⟩, hx⟩
  · rintro (hx | ⟨⟨s, hs, ht⟩, _⟩)
    · exact ⟨x, hx, ReflTransGen.refl⟩
    · exact ⟨s, hs, ht.to_reflTransGen⟩

/-- **The stop order agrees with the warning.** `get_affected_services` returns
on every graph, sorted and without duplicates, the transitive dependents outside
the request; and an `Ok` stop order lists the request and what was announced,
each once, dependents first. The two runs may use different hash orders. -/
theorem stopOrder_agrees_with_affected {cfg : Config} (hdeps : cfg.DependenciesExist)
    {services : List String} (hne : services ≠ []) (ord : HashOrder) {depth : Nat}
    (hdepth : cfg.services.keys.length < depth) :
    ∃ affected, getAffectedServices ord depth cfg services = some affected ∧
      affected.Pairwise (· < ·) ∧
      (∀ x, x ∈ affected ↔
        (∃ s ∈ services, TransGen (Function.swap cfg.DependsOn) s x) ∧ x ∉ services) ∧
      ∀ ord' order, reverseTopologicalSort ord' depth cfg services = some (.ok order) →
        order.Nodup ∧
        (∀ pre s post, order = pre ++ s :: post → ∀ t ∈ order, cfg.DependsOn t s → t ∈ pre) ∧
        (∀ x, x ∈ order ↔ x ∈ services ∨ x ∈ affected) ∧
        services.Disjoint affected := by
  obtain ⟨affected, haff⟩ := getAffectedServices_total hdeps ord hdepth services
  obtain ⟨hsorted, hmem⟩ := getAffectedServices_spec hdeps haff
  refine ⟨affected, haff, hsorted, hmem, fun ord' order ho => ?_⟩
  obtain ⟨hnodup, hclosure, hord⟩ := reverseTopologicalSort_spec hdeps ho
  refine ⟨hnodup, fun pre s post hsplit t _ ht => hord pre s post hsplit t ht, fun x => ?_, ?_⟩
  · rw [hclosure, dependentClosure_iff hne, hmem]
  · intro x hx hxa
    exact ((hmem x).mp hxa).2 hx

/-- The stop of a database that a service depends on. -/
theorem stopOrder_agrees_with_affected_db :
    ∃ affected, getAffectedServices HashOrder.stored 4 createTestConfig ["db"] = some affected ∧
      affected.Pairwise (· < ·) ∧
      (∀ x, x ∈ affected ↔
        (∃ s ∈ ["db"], TransGen (Function.swap createTestConfig.DependsOn) s x) ∧ x ∉ ["db"]) ∧
      ∀ ord' order, reverseTopologicalSort ord' 4 createTestConfig ["db"] = some (.ok order) →
        order.Nodup ∧
        (∀ pre s post, order = pre ++ s :: post →
          ∀ t ∈ order, createTestConfig.DependsOn t s → t ∈ pre) ∧
        (∀ x, x ∈ order ↔ x ∈ ["db"] ∨ x ∈ affected) ∧
        ["db"].Disjoint affected := by
  have hdeps : createTestConfig.DependenciesExist := by decide
  exact stopOrder_agrees_with_affected hdeps (by decide) HashOrder.stored (by decide)

end GraphHarness.Dependencies
