import GraphHarness.ServiceRegistry.Network.Allocation
import GraphHarness.ServiceRegistry.Network.Manager

/-!
# Services on the mesh

> `meshReachable_iff` — every WireGuard service has a mesh address of its own and is
> resolved to it **exactly if each of them is registered with one that no other has**.

`register_service` has an address allocated and forgets it, and does not tell the
allocator of the addresses that services bring along.

The statement is about any sequence of registrations, from a new manager. `Addressed` is the
invariant, that each registered service has brought an address of its own; the first
registration that does not, or that repeats one, breaks it, and the condition names that
registration.
-/

namespace GraphHarness.ServiceRegistry.NetworkManager

open Trace

/-- What is promised of the WireGuard services that the registrations lead to. -/
structure MeshReachable (registrations : List ServiceNetwork) (manager : NetworkManager) :
    Prop where
  addressed : ∀ name service, manager.topology.getService name = some service →
    service.location.isWireGuard = true → ∃ ip, service.wireguardIp = some ip
  /-- A service that was last registered without an address has the allocator's. -/
  allocated : ∀ earlier registered later, registrations = earlier ++ registered :: later →
    (∀ service ∈ later, service.serviceName ≠ registered.serviceName) →
    registered.location.isWireGuard = true → registered.wireguardIp = none →
    ∃ service ip, manager.topology.getService registered.serviceName = some service ∧
      service.wireguardIp = some ip ∧
      manager.ipAllocator.allocations.lookup registered.serviceName = some ip
  distinct : ∀ name other service service', name ≠ other →
    manager.topology.getService name = some service →
    manager.topology.getService other = some service' →
    service.location.isWireGuard = true → service'.location.isWireGuard = true →
    ∀ ip, service.wireguardIp = some ip → service'.wireguardIp ≠ some ip
  resolves : ∀ fromService toService service service',
    manager.topology.getService fromService = some service →
    manager.topology.getService toService = some service' →
    service'.location.isWireGuard = true →
    ∃ ip, manager.resolveServiceIp fromService toService = .ok ip

/-- Every registration succeeds. -/
def AllRegistered (manager : NetworkManager) (registrations : List ServiceNetwork) : Prop :=
  ∀ earlier service later, registrations = earlier ++ service :: later →
    (registerService (after registerService manager earlier) service).2 = .ok ()

/-- A WireGuard service brings an address along that no other WireGuard service has. -/
def BringsOwnAddress (manager : NetworkManager) (service : ServiceNetwork) : Prop :=
  service.location.isWireGuard = true →
    ∃ ip, service.wireguardIp = some ip ∧
      ∀ other service', other ≠ service.serviceName →
        manager.topology.getService other = some service' →
        service'.location.isWireGuard = true → service'.wireguardIp ≠ some ip

/-- The two promises about the topology alone. -/
structure Addressed (manager : NetworkManager) : Prop where
  some : ∀ name service, manager.topology.getService name = some service →
    service.location.isWireGuard = true → ∃ ip, service.wireguardIp = some ip
  distinct : ∀ name other service service', name ≠ other →
    manager.topology.getService name = .some service →
    manager.topology.getService other = .some service' →
    service.location.isWireGuard = true → service'.location.isWireGuard = true →
    ∀ ip, service.wireguardIp = .some ip → service'.wireguardIp ≠ .some ip

/-- At first no service is known. -/
theorem getService_new (config : NetworkConfig) (name : String) :
    (new config).topology.getService name = none := AList.lookup_empty name

/-- At first each service of the mesh has an address. -/
theorem addressed_new (config : NetworkConfig) : (new config).Addressed := by
  refine ⟨?_, ?_⟩
  · intro name service h
    rw [getService_new] at h
    cases h
  · intro name other service service' _ h
    rw [getService_new] at h
    cases h

namespace Addressed

variable {manager : NetworkManager} (h : manager.Addressed)
include h

/-- A service that brings its address keeps that. -/
theorem addService {service : ServiceNetwork} (hbrings : manager.BringsOwnAddress service)
    {next : NetworkManager} (hnext : next.topology = manager.topology.addService service) :
    next.Addressed := by
  refine ⟨?_, ?_⟩
  · intro name found hfound hwireGuard
    rw [hnext, getService_addService] at hfound
    by_cases hname : name = service.serviceName
    · rw [if_pos hname] at hfound
      obtain rfl := Option.some.inj hfound
      obtain ⟨ip, hip, _⟩ := hbrings hwireGuard
      exact ⟨ip, hip⟩
    · rw [if_neg hname] at hfound
      exact h.some name found hfound hwireGuard
  · intro name other found found' hne hfound hfound' hwireGuard hwireGuard' ip hip
    rw [hnext, getService_addService] at hfound hfound'
    by_cases hname : name = service.serviceName
    · -- the other one was there before
      rw [if_pos hname] at hfound
      rw [if_neg (by rw [← hname]; exact hne.symm)] at hfound'
      obtain rfl := Option.some.inj hfound
      obtain ⟨own, hown, hapart⟩ := hbrings hwireGuard
      obtain rfl : own = ip := by rw [hown] at hip; exact Option.some.inj hip
      exact hapart other found' (by rw [← hname]; exact hne.symm) hfound' hwireGuard'
    · rw [if_neg hname] at hfound
      by_cases hother : other = service.serviceName
      · rw [if_pos hother] at hfound'
        obtain rfl := Option.some.inj hfound'
        obtain ⟨own, hown, hapart⟩ := hbrings hwireGuard'
        intro hsame
        obtain rfl : own = ip := by rw [hown] at hsame; exact Option.some.inj hsame
        exact hapart name found hname hfound hwireGuard hip
      · rw [if_neg hother] at hfound'
        exact h.distinct name other found found' hne hfound hfound' hwireGuard hwireGuard' ip hip

/-- So does a registration. -/
theorem registerService {service : ServiceNetwork} (hbrings : manager.BringsOwnAddress service) :
    (manager.registerService service).1.Addressed := by
  rcases manager.registerService_cases service with ⟨e, _, hwireGuard, hnone, _⟩ | ⟨_, hadded⟩
  · obtain ⟨ip, hip, _⟩ := hbrings hwireGuard
    rw [hnone] at hip
    cases hip
  · exact h.addService hbrings hadded

/-- A service of the mesh is resolved to its address. -/
theorem resolves {fromService toService : String} {service service' : ServiceNetwork}
    (hfrom : manager.topology.getService fromService = .some service)
    (hto : manager.topology.getService toService = .some service')
    (hwireGuard : service'.location.isWireGuard = true) :
    ∃ ip, manager.resolveServiceIp fromService toService = .ok ip := by
  obtain ⟨ip, hip⟩ := h.some toService service' hto hwireGuard
  unfold resolveServiceIp ServiceResolver.resolve
  cases manager.resolver.resolutionCache.lookup (fromService, toService) with
  | some cached => exact ⟨cached, rfl⟩
  | none =>
    rw [hfrom, hto]
    exact ⟨ip, determineBestIp_wireGuard hwireGuard hip⟩

end Addressed

/-- In a run of successful registrations every WireGuard service is reachable at its own
mesh address throughout, if and only if each registration of one brings an address along
that no other WireGuard service has at that time. -/
theorem meshReachable_iff (config : NetworkConfig) (registrations : List ServiceNetwork)
    (hok : (new config).AllRegistered registrations) :
    (∀ earlier later, registrations = earlier ++ later →
      MeshReachable earlier (after registerService (new config) earlier)) ↔
    ∀ earlier service later, registrations = earlier ++ service :: later →
      (after registerService (new config) earlier).BringsOwnAddress service := by
  constructor
  · intro h earlier service later hsplit hwireGuard
    have hreach := h (earlier ++ [service]) later (by rw [hsplit, List.append_assoc]; rfl)
    rw [after_append, after, after] at hreach
    obtain ⟨haddressed, _, hdistinct, _⟩ := hreach
    rw [topology_registerService (hok earlier service later hsplit)] at haddressed hdistinct
    have hself := getService_addService (after registerService (new config) earlier).topology
      service service.serviceName
    rw [if_pos rfl] at hself
    obtain ⟨ip, hip⟩ := haddressed service.serviceName service hself hwireGuard
    refine ⟨ip, hip, ?_⟩
    intro other service' hother hservice' hwireGuard'
    refine hdistinct service.serviceName other service service' hother.symm hself ?_ hwireGuard
      hwireGuard' ip hip
    rw [getService_addService, if_neg hother]
    exact hservice'
  · intro h earlier later hsplit
    have hinv : (after registerService (new config) earlier).Addressed :=
      invariant_throughout Addressed (fun _ _ hinv hbrings => hinv.registerService hbrings)
        earlier later (addressed_new config) fun before service rest heq =>
          h before service rest (hsplit.trans heq)
    refine ⟨hinv.some, ?_, hinv.distinct, fun _ _ _ _ => hinv.resolves⟩
    -- no registration is without an address
    intro before registered rest heq _ hwireGuard hnone
    obtain ⟨ip, hip, _⟩ := h before registered (rest ++ later)
      (by rw [hsplit, heq, List.append_assoc, List.cons_append]) hwireGuard
    rw [hnone] at hip
    cases hip

/-- A service behind a tunnel, with or without a mesh address. -/
def remoteService (wireguardIp : Option IpAddr) : ServiceNetwork where
  serviceName := "remote-service"
  location := .wireGuard "remote.example.com"
  hostIp := none
  lanIp := none
  wireguardIp := wireguardIp
  wireguardPublicKey := some "publickey123"
  interfaces := []

/-- Another one, with the next address. -/
def remoteDatabase : ServiceNetwork :=
  { remoteService (some (.v4 0x0A2A0003)) with serviceName := "remote-database" }

/-- A list of one, split. -/
theorem only_split {first service : ServiceNetwork} {earlier later : List ServiceNetwork}
    (h : [first] = earlier ++ service :: later) : earlier = [] ∧ service = first := by
  cases earlier with
  | nil =>
    obtain ⟨rfl, _⟩ := List.cons.inj h
    exact ⟨rfl, rfl⟩
  | cons other earlier => simp at h

/-- A list of two, split. -/
theorem pair_split {first second service : ServiceNetwork} {earlier later : List ServiceNetwork}
    (h : [first, second] = earlier ++ service :: later) :
    earlier = [] ∧ service = first ∨ earlier = [first] ∧ service = second := by
  cases earlier with
  | nil =>
    obtain ⟨rfl, _⟩ := List.cons.inj h
    exact .inl ⟨rfl, rfl⟩
  | cons other earlier =>
    obtain ⟨rfl, hrest⟩ := List.cons.inj h
    obtain ⟨rfl, rfl⟩ := only_split hrest
    exact .inr ⟨rfl, rfl⟩

/-- Two services with the addresses `10.42.0.2` and `10.42.0.3` of their own. -/
theorem remoteService_reachable :
    MeshReachable [remoteService (some (.v4 0x0A2A0002)), remoteDatabase]
      (after registerService (new .default)
        [remoteService (some (.v4 0x0A2A0002)), remoteDatabase]) := by
  refine (meshReachable_iff .default [remoteService (some (.v4 0x0A2A0002)), remoteDatabase]
    ?_).mpr ?_ _ [] (List.append_nil _).symm
  · intro earlier service later h
    rcases pair_split h with ⟨rfl, rfl⟩ | ⟨rfl, rfl⟩
    · rfl
    · rfl
  · intro earlier service later h _
    rcases pair_split h with ⟨rfl, rfl⟩ | ⟨rfl, rfl⟩
    · refine ⟨.v4 0x0A2A0002, rfl, ?_⟩
      intro other service' _ hother
      rw [after, getService_new] at hother
      cases hother
    · refine ⟨.v4 0x0A2A0003, rfl, ?_⟩
      intro other service' _ hother _
      rw [after, after, topology_registerService rfl, getService_addService] at hother
      split at hother
      next =>
        -- the one that is there has the address before
        obtain rfl := Option.some.inj hother
        decide
      next =>
        rw [getService_new] at hother
        cases hother

/-- A service without an address is registered, and has none. -/
theorem remoteService_unreachable :
    ¬ ∀ (config : NetworkConfig) (registrations : List ServiceNetwork),
      (new config).AllRegistered registrations → ∀ earlier later,
        registrations = earlier ++ later →
        MeshReachable earlier (after registerService (new config) earlier) := by
  intro h
  have hok : (registerService (new .default) (remoteService none)).2 = .ok () := by
    rcases registerService_cases (new .default) (remoteService none) with
      ⟨e, _, _, _, hrefused, _⟩ | ⟨hok, _⟩
    · have havailable : (new .default).ipAllocator.isAvailable (.v4 0x0A2A0002) = true := by
        decide
      obtain ⟨ip, hfound⟩ := IpAllocator.findNextAvailable_ok havailable
      have hunheld : (new .default).ipAllocator.allocations.lookup "remote-service" = none :=
        IpAllocator.lookup_new _ _
      rw [show (remoteService none).serviceName = "remote-service" from rfl,
        (IpAllocator.allocate_unheld hunheld).1, hfound] at hrefused
      cases hrefused
    · exact hok
  have hreach := h .default [remoteService none] ?_ [remoteService none] [] rfl
  · have hself := getService_addService (new .default).topology (remoteService none)
      (remoteService none).serviceName
    rw [if_pos rfl, ← topology_registerService hok] at hself
    obtain ⟨ip, hip⟩ := hreach.addressed _ (remoteService none) hself rfl
    cases hip
  · intro earlier service later hsplit
    obtain ⟨rfl, rfl⟩ := only_split hsplit
    exact hok

end GraphHarness.ServiceRegistry.NetworkManager
