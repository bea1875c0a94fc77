import GraphHarness.ServiceRegistry.Network.Manager
import GraphHarness.Trace.Simulation

/-!
# The environment of a service (`generate_environment`)

A service is told the addresses of the others in variables that are named after them:
in capitals, with `_` for `-`, and with `_ADDR` behind. Two names can become one.

> `complete_iff` — every other service has its variable, with its address in it,
> **exactly if no two of them are given the same name**.

The loop goes through the services in the order the hash map has them in, which the
theorems leave arbitrary, as they do the table of the capitals of Unicode.

The variables are written by `insert`, so of two with one name the later one is left, and
which that is depends on the order of the map. Whether an address is found for another service
is decided by the resolver; a service without one ends the loop with an error, and the
statement is about the environments that are made.
-/

namespace GraphHarness.ServiceRegistry

namespace IpAddr

/-- `a.b.c.d`. -/
def dotted (bits : BitVec 32) : String :=
  ".".intercalate ([24, 16, 8, 0].map fun shift =>
    Nat.repr ((bits.toNat >>> shift) % 256))

/-- The eight groups of sixteen bits. -/
def segments (bits : BitVec 128) : List Nat :=
  [112, 96, 80, 64, 48, 32, 16, 0].map fun shift => (bits.toNat >>> shift) % 65536

/-- The first of the longest runs of zeros: its start and its length. -/
def longestZeros (segments : List Nat) : Nat × Nat :=
  let rec go (longest current : Nat × Nat) (i : Nat) : List Nat → Nat × Nat
    | [] => longest
    | 0 :: rest =>
      let current := if current.2 = 0 then (i, 1) else (current.1, current.2 + 1)
      go (if longest.2 < current.2 then current else longest) current (i + 1) rest
    | _ :: rest => go longest (0, 0) (i + 1) rest
  go (0, 0) (0, 0) 0 segments

/-- Groups in hexadecimal digits, with colons between them. -/
def hexGroups (segments : List Nat) : String :=
  ":".intercalate (segments.map fun segment => String.ofList (Nat.toDigits 16 segment))

/-- `to_string`. -/
def toString : IpAddr → String
  | .v4 bits => dotted bits
  | .v6 bits =>
    -- an address of the other family in its last four bytes
    if bits.toNat >>> 32 = 0xFFFF then "::ffff:" ++ dotted (bits.setWidth 32)
    else
      let zeros := longestZeros (segments bits)
      if 1 < zeros.2 then
        hexGroups ((segments bits).take zeros.1) ++ "::" ++
          hexGroups ((segments bits).drop (zeros.1 + zeros.2))
      else hexGroups (segments bits)

end IpAddr

namespace NetworkTopology

/-- The services in the order they are stored in. -/
def allServices (topology : NetworkTopology) : List ServiceNetwork :=
  topology.services.entries.map fun entry => entry.2

end NetworkTopology

namespace NetworkManager

section Environment

-- `char::to_uppercase`: a character can have several capitals
variable (upper : Char → List Char)

/-- `str::to_uppercase`. -/
def toUppercase (s : String) : String := String.ofList (s.toList.flatMap upper)

/-- `format!("{}_ADDR", name.to_uppercase().replace('-', "_"))`. -/
def addressKey (serviceName : String) : String :=
  String.ofList ((toUppercase upper serviceName).toList.map fun c => if c = '-' then '_' else c) ++
    "_ADDR"

/-- One pass through the loop. -/
def addAddress (manager : NetworkManager) (serviceName : String) (env : HashMap String String)
    (otherService : ServiceNetwork) : Except Error (HashMap String String) :=
  if otherService.serviceName = serviceName then .ok env
  else
    match manager.resolveServiceIp serviceName otherService.serviceName with
    | .error e => .error e
    | .ok ip => .ok (env.insert (addressKey upper otherService.serviceName) ip.toString)

/-- `allServices` is `all_services` in the order of the hash map. -/
def generateEnvironment (manager : NetworkManager) (allServices : List ServiceNetwork)
    (serviceName : String) : Except Error (HashMap String String) :=
  allServices.foldlM (manager.addAddress upper serviceName) ∅

/-! ## What the loop leaves -/

variable {upper}
variable {manager : NetworkManager} {serviceName : String}

/-- The variable of another service is added, under its address. -/
theorem addAddress_ok {env env' : HashMap String String} {other : ServiceNetwork}
    (h : manager.addAddress upper serviceName env other = .ok env') :
    other.serviceName = serviceName ∧ env' = env ∨
      other.serviceName ≠ serviceName ∧
        ∃ ip, manager.resolveServiceIp serviceName other.serviceName = .ok ip ∧
          env' = env.insert (addressKey upper other.serviceName) ip.toString := by
  unfold addAddress at h
  by_cases hsame : other.serviceName = serviceName
  · rw [if_pos hsame] at h
    cases h
    exact .inl ⟨hsame, rfl⟩
  · rw [if_neg hsame] at h
    cases hresolve : manager.resolveServiceIp serviceName other.serviceName with
    | error e =>
      rw [hresolve] at h
      cases h
    | ok ip =>
      rw [hresolve] at h
      cases h
      exact .inr ⟨hsame, ip, rfl, rfl⟩

/-- The first service apart. -/
theorem addAddress_cons {env env' : HashMap String String} {other : ServiceNetwork}
    {services : List ServiceNetwork}
    (h : (other :: services).foldlM (manager.addAddress upper serviceName) env = .ok env') :
    ∃ next, manager.addAddress upper serviceName env other = .ok next ∧
      services.foldlM (manager.addAddress upper serviceName) next = .ok env' := by
  rw [List.foldlM_cons] at h
  cases hfirst : manager.addAddress upper serviceName env other with
  | error e =>
    rw [hfirst] at h
    cases h
  | ok next =>
    rw [hfirst] at h
    exact ⟨next, rfl, h⟩

/-- There is a variable for every other service, and no more. -/
theorem mem_generated {services : List ServiceNetwork} {env env' : HashMap String String}
    (h : services.foldlM (manager.addAddress upper serviceName) env = .ok env') (key : String) :
    key ∈ env' ↔ key ∈ env ∨ ∃ other ∈ services, other.serviceName ≠ serviceName ∧
      addressKey upper other.serviceName = key := by
  induction services generalizing env with
  | nil =>
    cases h
    simp
  | cons other services ih =>
    obtain ⟨next, hfirst, hrest⟩ := addAddress_cons h
    rw [ih hrest, List.exists_mem_cons_iff]
    rcases addAddress_ok hfirst with ⟨hsame, rfl⟩ | ⟨hne, ip, _, rfl⟩
    · simp [hsame]
    · rw [AList.mem_insert]
      constructor
      · rintro ((hkey | hbefore) | hlater)
        · exact .inr (.inl ⟨hne, hkey.symm⟩)
        · exact .inl hbefore
        · exact .inr (.inr hlater)
      · rintro (hbefore | ⟨_, hkey⟩ | hlater)
        · exact .inl (.inr hbefore)
        · exact .inl (.inl hkey.symm)
        · exact .inr hlater

/-- A variable holds the address of a service it is named after. -/
theorem lookup_generated {services : List ServiceNetwork} {env env' : HashMap String String}
    (h : services.foldlM (manager.addAddress upper serviceName) env = .ok env')
    {key value : String} (hlookup : env'.lookup key = some value) :
    env.lookup key = some value ∨ ∃ other ∈ services, other.serviceName ≠ serviceName ∧
      addressKey upper other.serviceName = key ∧
        ∃ ip, manager.resolveServiceIp serviceName other.serviceName = .ok ip ∧
          ip.toString = value := by
  induction services generalizing env with
  | nil =>
    cases h
    exact .inl hlookup
  | cons other services ih =>
    obtain ⟨next, hfirst, hrest⟩ := addAddress_cons h
    rcases ih hrest with hnext | ⟨later, hlater, hfound⟩
    · rcases addAddress_ok hfirst with ⟨_, rfl⟩ | ⟨hne, ip, hresolve, rfl⟩
      · exact .inl hnext
      · by_cases hkey : key = addressKey upper other.serviceName
        · rw [hkey, AList.lookup_insert] at hnext
          exact .inr ⟨other, List.mem_cons_self, hne, hkey.symm, ip, hresolve,
            Option.some.inj hnext⟩
        · rw [AList.lookup_insert_ne hkey] at hnext
          exact .inl hnext
    · exact .inr ⟨later, List.mem_cons_of_mem other hlater, hfound⟩

end Environment

/-! ## The registered services -/

/-- Every service is stored under its own name. -/
def Keyed (manager : NetworkManager) : Prop :=
  ∀ entry ∈ manager.topology.services.entries, entry.2.serviceName = entry.1

/-- A new topology has no services. -/
theorem keyed_new (config : NetworkConfig) : (new config).Keyed := by
  intro entry hentry
  cases hentry

/-- A registration keeps the services under their names. -/
theorem Keyed.registerService {manager : NetworkManager} (h : manager.Keyed)
    (service : ServiceNetwork) : (manager.registerService service).1.Keyed := by
  unfold Keyed
  rcases manager.registerService_cases service with ⟨e, _, _, _, _, hsame⟩ | ⟨_, hadded⟩
  · rw [hsame]
    exact h
  · rw [hadded]
    intro entry hentry
    rw [NetworkTopology.addService, AList.entries_insert] at hentry
    rcases List.mem_cons.mp hentry with rfl | hbefore
    · rfl
    · exact h entry ((List.kerase_sublist _ _).subset hbefore)

/-- The names of the services are the keys. -/
theorem Keyed.map_allServices {manager : NetworkManager} (h : manager.Keyed) :
    manager.topology.allServices.map (fun service => service.serviceName) =
      manager.topology.services.keys := by
  unfold NetworkTopology.allServices AList.keys List.keys
  rw [List.map_map]
  exact List.map_congr_left fun entry hentry => h entry hentry

/-- The names of the registered services other than one. -/
def otherServices (manager : NetworkManager) (serviceName : String) : List String :=
  manager.topology.services.keys.filter fun other => other ≠ serviceName

/-- No other service is named twice. -/
theorem nodup_otherServices (manager : NetworkManager) (serviceName : String) :
    (manager.otherServices serviceName).Nodup := manager.topology.services.nodupKeys.filter _

/-! ## Complete -/

/-- There is one variable for each other service, and the variable of a service holds the
address it is resolved to. -/
structure Complete (upper : Char → List Char) (manager : NetworkManager) (serviceName : String)
    (env : HashMap String String) : Prop where
  keys : env.keys.Perm ((manager.otherServices serviceName).map (addressKey upper))
  address : ∀ other ∈ manager.otherServices serviceName,
    ∃ ip, manager.resolveServiceIp serviceName other = .ok ip ∧
      env.lookup (addressKey upper other) = some ip.toString

/-- No two of the other services are given the same name. -/
def DistinctKeys (upper : Char → List Char) (manager : NetworkManager) (serviceName : String) :
    Prop :=
  ∀ other ∈ manager.otherServices serviceName, ∀ other' ∈ manager.otherServices serviceName,
    addressKey upper other = addressKey upper other' → other = other'

/-- A complete environment has a variable for each. -/
theorem Complete.distinctKeys {upper : Char → List Char} {manager : NetworkManager}
    {serviceName : String} {env : HashMap String String}
    (h : Complete upper manager serviceName env) : DistinctKeys upper manager serviceName := by
  have hnodup : ((manager.otherServices serviceName).map (addressKey upper)).Nodup :=
    h.keys.nodup_iff.mp env.nodupKeys
  intro other hother other' hother' hkey
  exact List.inj_on_of_nodup_map hnodup hother hother' hkey

section Distinct

variable {upper : Char → List Char} {manager : NetworkManager} {serviceName : String}
variable {services : List ServiceNetwork} {env : HashMap String String}

/-- The order of the services is no matter. -/
theorem exists_service_iff (hkeyed : manager.Keyed)
    (hservices : services.Perm manager.topology.allServices) (P : String → Prop) :
    (∃ other ∈ services, other.serviceName ≠ serviceName ∧ P other.serviceName) ↔
      ∃ other ∈ manager.otherServices serviceName, P other := by
  unfold otherServices
  rw [← hkeyed.map_allServices]
  constructor
  · rintro ⟨other, hother, hne, hP⟩
    refine ⟨other.serviceName, ?_, hP⟩
    rw [List.mem_filter]
    exact ⟨List.mem_map_of_mem (hservices.mem_iff.mp hother), decide_eq_true hne⟩
  · rintro ⟨name, hname, hP⟩
    rw [List.mem_filter, decide_eq_true_eq] at hname
    obtain ⟨other, hother, rfl⟩ := List.mem_map.mp hname.1
    exact ⟨other, hservices.mem_iff.mpr hother, hname.2, hP⟩

/-- Different variables make a complete environment. -/
theorem DistinctKeys.complete (h : DistinctKeys upper manager serviceName)
    (hkeyed : manager.Keyed) (hservices : services.Perm manager.topology.allServices)
    (hok : manager.generateEnvironment upper services serviceName = .ok env) :
    Complete upper manager serviceName env := by
  have hmem : ∀ key, key ∈ env ↔
      ∃ other ∈ manager.otherServices serviceName, addressKey upper other = key := by
    intro key
    rw [mem_generated hok, ← exists_service_iff hkeyed hservices (addressKey upper · = key)]
    simp
  constructor
  · refine (List.perm_ext_iff_of_nodup env.nodupKeys ?_).mpr ?_
    · exact List.Nodup.map_on h (manager.nodup_otherServices serviceName)
    · intro key
      rw [List.mem_map]
      exact hmem key
  · intro other hother
    obtain ⟨value, hvalue⟩ := Option.isSome_iff_exists.mp
      (AList.lookup_isSome.mpr ((hmem (addressKey upper other)).mpr ⟨other, hother, rfl⟩))
    rcases lookup_generated hok hvalue with hempty | hsome
    · rw [AList.lookup_empty] at hempty
      cases hempty
    · -- the service it was written for is this one
      obtain ⟨written, hwritten, hkey, ip, hresolve, rfl⟩ :=
        (exists_service_iff hkeyed hservices fun name => addressKey upper name =
          addressKey upper other ∧ ∃ ip, manager.resolveServiceIp serviceName name = .ok ip ∧
            ip.toString = value).mp hsome
      obtain rfl := h written hwritten other hother hkey
      exact ⟨ip, hresolve, hvalue⟩

end Distinct

/-- After any registrations and for any order of the services, the variables of a service
are complete exactly if no two other services are given the same name. -/
theorem complete_iff (upper : Char → List Char) (config : NetworkConfig)
    (registrations services : List ServiceNetwork) (serviceName : String)
    (env : HashMap String String)
    (hservices : services.Perm
      (Trace.after registerService (new config) registrations).topology.allServices)
    (hok : (Trace.after registerService (new config) registrations).generateEnvironment upper
      services serviceName = .ok env) :
    Complete upper (Trace.after registerService (new config) registrations) serviceName env ↔
      DistinctKeys upper (Trace.after registerService (new config) registrations)
        serviceName := by
  have hkeyed : (Trace.after registerService (new config) registrations).Keyed :=
    Trace.after_invariant Keyed (fun _ service h => h.registerService service)
      (keyed_new config)
  constructor
  · exact Complete.distinctKeys
  · intro hdistinct
    exact hdistinct.complete hkeyed hservices hok

/-- The capitals of the ASCII letters. -/
def asciiUpper (c : Char) : List Char := [c.toUpper]

/-- A service on this host. -/
def onHost (serviceName : String) (ip : BitVec 32) : ServiceNetwork where
  serviceName := serviceName
  location := .local
  hostIp := some (.v4 ip)
  lanIp := none
  wireguardIp := none
  wireguardPublicKey := none
  interfaces := []

/-- `api` is told of `db` and of `cache`. -/
theorem api_complete :
    let manager := Trace.after registerService (new .default)
      [onHost "api" 0x7F000001, onHost "db" 0x7F000002, onHost "cache" 0x7F000003]
    ∃ env, manager.generateEnvironment asciiUpper manager.topology.allServices "api" = .ok env ∧
      Complete asciiUpper manager "api" env := by
  intro manager
  refine ⟨_, rfl, (complete_iff asciiUpper .default _ _ "api" _ (.refl _) rfl).mpr ?_⟩
  unfold DistinctKeys
  decide +kernel

/-- `db-main` and `db_main` both have the variable `DB_MAIN_ADDR`. -/
theorem db_main_not_complete :
    ¬ ∀ (config : NetworkConfig) (registrations services : List ServiceNetwork)
      (serviceName : String) (env : HashMap String String),
      services.Perm
        (Trace.after registerService (new config) registrations).topology.allServices →
      (Trace.after registerService (new config) registrations).generateEnvironment asciiUpper
        services serviceName = .ok env →
      Complete asciiUpper (Trace.after registerService (new config) registrations) serviceName
        env := by
  intro h
  have hcomplete := h .default
    [onHost "api" 0x7F000001, onHost "db-main" 0x7F000002, onHost "db_main" 0x7F000003] _ "api" _
    (.refl _) rfl
  have hkey : addressKey asciiUpper "db-main" = addressKey asciiUpper "db_main" := by
    decide +kernel
  have hsame := hcomplete.distinctKeys "db-main" (by decide) "db_main" (by decide) hkey
  exact absurd hsame (by decide)

end NetworkManager

end GraphHarness.ServiceRegistry
