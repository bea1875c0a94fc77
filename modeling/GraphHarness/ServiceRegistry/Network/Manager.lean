import GraphHarness.ServiceRegistry.Models
import GraphHarness.ServiceRegistry.Network.IpAllocator

/-!
# Services of a network (`service-registry/src/network/mod.rs`, `topology.rs`,
`resolver.rs`)

A service is registered with its addresses. What the allocator gives a WireGuard service
that comes without one is not written down anywhere but in the allocator.

The resolver has a cache that every registration clears and nothing fills. Which address is
the best is decided by the locations of the two services, in the source's order of cases.
Interfaces and public keys are kept and not looked at.
-/

namespace GraphHarness.ServiceRegistry

/-- `NetworkLocation`. -/
inductive NetworkLocation where
  | «local»
  | remoteLAN (ip : IpAddr)
  | wireGuard (endpoint : String)
  deriving DecidableEq, Repr

namespace NetworkLocation

/-- `matches!(location, NetworkLocation::WireGuard { .. })`. -/
def isWireGuard : NetworkLocation → Bool
  | .wireGuard _ => true
  | _ => false

end NetworkLocation

/-- `ServiceNetwork`. -/
structure ServiceNetwork where
  serviceName : String
  location : NetworkLocation
  hostIp : Option IpAddr
  lanIp : Option IpAddr
  wireguardIp : Option IpAddr
  wireguardPublicKey : Option String
  interfaces : List String
  deriving DecidableEq, Repr

/-- The registered services of a `NetworkTopology`. -/
structure NetworkTopology where
  services : HashMap String ServiceNetwork

namespace NetworkTopology

/-- `NetworkTopology::new`. -/
def new : NetworkTopology := ⟨∅⟩

/-- `add_service`. -/
def addService (topology : NetworkTopology) (service : ServiceNetwork) : NetworkTopology :=
  ⟨topology.services.insert service.serviceName service⟩

/-- `get_service`. -/
def getService (topology : NetworkTopology) (name : String) : Option ServiceNetwork :=
  topology.services.lookup name

end NetworkTopology

/-- `ServiceResolver`. Nothing is put into its cache. -/
structure ServiceResolver where
  resolutionCache : HashMap (String × String) IpAddr

namespace ServiceResolver

/-- `ServiceResolver::new`. -/
def new : ServiceResolver := ⟨∅⟩

/-- `add_service`, which clears the cache. -/
def addService (_ : ServiceResolver) (_service : ServiceNetwork) : ServiceResolver := ⟨∅⟩

/-- `determine_best_ip`. -/
def determineBestIp («from» «to» : ServiceNetwork) : Except Error IpAddr :=
  let orElse (ip : Option IpAddr) (missing : String) : Except Error IpAddr :=
    match ip with
    | some ip => .ok ip
    | none => .error (.package ("Service " ++ «to».serviceName ++ " has no " ++ missing))
  match «from».location, «to».location with
  | .local, .local => orElse «to».hostIp "host IP"
  | .remoteLAN _, .remoteLAN _ => orElse «to».lanIp "LAN IP"
  | .local, .remoteLAN _ => orElse «to».lanIp "LAN IP"
  | .remoteLAN _, .local =>
    match «to».lanIp with
    | some lanIp => .ok lanIp
    | none => orElse «to».hostIp "accessible IP"
  | _, .wireGuard _ => orElse «to».wireguardIp "WireGuard IP"
  | .wireGuard _, _ => orElse «to».wireguardIp "WireGuard IP"

/-- `resolve`. Nothing ever fills the cache. -/
def resolve (resolver : ServiceResolver) (fromService toService : String)
    (topology : NetworkTopology) : Except Error IpAddr :=
  match resolver.resolutionCache.lookup (fromService, toService) with
  | some ip => .ok ip
  | none =>
    match topology.getService fromService with
    | none => .error (.serviceNotFound fromService)
    | some «from» =>
      match topology.getService toService with
      | none => .error (.serviceNotFound toService)
      | some «to» => determineBestIp «from» «to»

end ServiceResolver

/-- What `NetworkManager` reads of a `NetworkConfig`. -/
structure NetworkConfig where
  wireguardSubnet : IpNet

/-- The subnet `10.42.0.0/16`. -/
def NetworkConfig.default : NetworkConfig where
  wireguardSubnet := .v4 ⟨0x0A2A0000, fun ip => 0x0A2A0000 ≤ ip && ip ≤ 0x0A2AFFFF⟩

/-- `NetworkManager`. -/
structure NetworkManager where
  config : NetworkConfig
  topology : NetworkTopology
  ipAllocator : IpAllocator
  resolver : ServiceResolver

namespace NetworkManager

/-- `NetworkManager::new`. -/
def new (config : NetworkConfig) : NetworkManager where
  config := config
  topology := .new
  ipAllocator := .new config.wireguardSubnet
  resolver := .new

/-- The last two statements of `register_service`. -/
def addService (manager : NetworkManager) (service : ServiceNetwork) : NetworkManager :=
  { manager with
    topology := manager.topology.addService service
    resolver := manager.resolver.addService service }

/-- `register_service`. -/
def registerService (manager : NetworkManager) (service : ServiceNetwork) :
    NetworkManager × Except AllocationError Unit :=
  if service.location.isWireGuard && service.wireguardIp.isNone then
    match manager.ipAllocator.allocate service.serviceName with
    | (ipAllocator, .error e) => ({ manager with ipAllocator := ipAllocator }, .error e)
    -- the address is not put into the service
    | (ipAllocator, .ok _ip) =>
      ({ manager with ipAllocator := ipAllocator }.addService service, .ok ())
  else (manager.addService service, .ok ())

/-- `resolve_service_ip`. -/
def resolveServiceIp (manager : NetworkManager) (fromService toService : String) :
    Except Error IpAddr :=
  manager.resolver.resolve fromService toService manager.topology

/-! ## What a call can do -/

section Register

variable {manager : NetworkManager} {service : ServiceNetwork}

/-- A registration fails where the allocator does and leaves the topology as it is, or the
service is in it as it was given. -/
theorem registerService_cases (manager : NetworkManager) (service : ServiceNetwork) :
    (∃ e, (manager.registerService service).2 = .error e ∧
      service.location.isWireGuard = true ∧ service.wireguardIp = none ∧
      (manager.ipAllocator.allocate service.serviceName).2 = .error e ∧
      (manager.registerService service).1.topology = manager.topology) ∨
    (manager.registerService service).2 = .ok () ∧
      (manager.registerService service).1.topology = manager.topology.addService service := by
  unfold registerService
  split
  next hasks =>
    rw [Bool.and_eq_true, Option.isNone_iff_eq_none] at hasks
    cases hcall : manager.ipAllocator.allocate service.serviceName with
    | mk ipAllocator result =>
      cases result with
      | error e => exact .inl ⟨e, rfl, hasks.1, hasks.2, rfl, rfl⟩
      | ok ip => exact .inr ⟨rfl, rfl⟩
  next => exact .inr ⟨rfl, rfl⟩

/-- A registration that succeeds adds the service. -/
theorem topology_registerService (h : (manager.registerService service).2 = .ok ()) :
    (manager.registerService service).1.topology = manager.topology.addService service := by
  rcases manager.registerService_cases service with ⟨e, herror, _⟩ | ⟨_, hadded⟩
  · rw [h] at herror
    cases herror
  · exact hadded

/-- A service that is added is found under its name. -/
theorem getService_addService (topology : NetworkTopology) (service : ServiceNetwork)
    (name : String) : (topology.addService service).getService name =
      if name = service.serviceName then some service else topology.getService name := by
  unfold NetworkTopology.addService NetworkTopology.getService
  split
  next h => rw [h, AList.lookup_insert]
  next h => rw [AList.lookup_insert_ne h]

end Register

/-- Whatever is asked for a WireGuard service is answered with its mesh address. -/
theorem determineBestIp_wireGuard {«from» «to» : ServiceNetwork} {ip : IpAddr}
    (hlocation : «to».location.isWireGuard = true) (hip : «to».wireguardIp = some ip) :
    ServiceResolver.determineBestIp «from» «to» = .ok ip := by
  unfold ServiceResolver.determineBestIp
  cases hto : «to».location with
  | «local» =>
    rw [hto] at hlocation
    cases hlocation
  | remoteLAN lanIp =>
    rw [hto] at hlocation
    cases hlocation
  | wireGuard endpoint =>
    rw [hip]
    cases «from».location with
    | «local» => rfl
    | remoteLAN lanIp => rfl
    | wireGuard fromEndpoint => rfl

end NetworkManager

end GraphHarness.ServiceRegistry
