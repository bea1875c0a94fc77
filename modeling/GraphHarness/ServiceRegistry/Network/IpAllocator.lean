import GraphHarness.Collections
import GraphHarness.Traverse.Orbit
import Mathlib.Data.Finset.Basic

/-!
# Addresses for services (`service-registry/src/network/ip_allocator.rs`)

The allocator keeps what it gave out three times: by service, by address, and as a set.
The gateway's address is reserved under the owner `"gateway"`, a name that a service can
have too.

The `ipnet` crate is a parameter: a subnet is its network address and the addresses it
contains. Arithmetic on addresses wraps around, as in a release build.

The search is written with `Traverse.around`, over as many addresses as the family has; the
source's loop ends when it comes back to its start. `record` and `forget` are the two writes
that the methods share, in the order of the source.
-/

namespace GraphHarness.ServiceRegistry

/-- `IpAddr`. -/
inductive IpAddr where
  | v4 (bits : BitVec 32)
  | v6 (bits : BitVec 128)
  deriving DecidableEq, Repr

/-- What the allocator asks of `Ipv4Net` and `Ipv6Net`. -/
structure Net (width : Nat) where
  network : BitVec width
  contains : BitVec width → Bool

/-- `IpNet`. -/
inductive IpNet where
  | v4 (net : Net 32)
  | v6 (net : Net 128)

namespace IpNet

/-- No subnet contains an address of the other family. -/
def contains : IpNet → IpAddr → Bool
  | .v4 net, .v4 ip => net.contains ip
  | .v6 net, .v6 ip => net.contains ip
  | _, _ => false

/-- The address `.1`. -/
def gatewayIp : IpNet → IpAddr
  | .v4 net => .v4 (net.network + 1)
  | .v6 net => .v6 (net.network + 1)

/-- The address `.2`. -/
def startIp : IpNet → IpAddr
  | .v4 net => .v4 (net.network + 2)
  | .v6 net => .v6 (net.network + 2)

/-- How many addresses the family has. -/
def addresses : IpNet → Nat
  | .v4 _ => 2 ^ 32
  | .v6 _ => 2 ^ 128

end IpNet

/-- The three errors, each with what its text names. -/
inductive AllocationError where
  /-- "IP … is not in subnet …" -/
  | notInSubnet (ip : IpAddr) (subnet : IpNet)
  /-- "IP … already allocated to …" -/
  | alreadyAllocated (ip : IpAddr) (existing : String)
  /-- "No available IPs in subnet" -/
  | noAvailableIps

/-- `IpAllocator`. -/
structure IpAllocator where
  subnet : IpNet
  allocations : HashMap String IpAddr
  ipToService : HashMap IpAddr String
  allocatedIps : Finset IpAddr

/-- `increment_ip`. The last address is followed by the first. -/
def incrementIp : IpAddr → IpAddr
  | .v4 ip => .v4 (ip + 1)
  | .v6 ip => .v6 (ip + 1)

namespace IpAllocator

/-- `reserve_gateway`. -/
def reserveGateway (allocator : IpAllocator) : IpAllocator :=
  let gatewayIp := allocator.subnet.gatewayIp
  { allocator with
    allocatedIps := insert gatewayIp allocator.allocatedIps
    ipToService := allocator.ipToService.insert gatewayIp "gateway" }

/-- `IpAllocator::new`. -/
def new (subnet : IpNet) : IpAllocator := (⟨subnet, ∅, ∅, ∅⟩ : IpAllocator).reserveGateway

/-- The address can be given to a service. -/
def isAvailable (allocator : IpAllocator) (ip : IpAddr) : Bool :=
  allocator.subnet.contains ip && ip ∉ allocator.allocatedIps

/-- The loop from `.2` on, around all addresses of the family. It does not run out of
fuel (`findNextAvailable_cases`). -/
def findNextAvailable (allocator : IpAllocator) : Except AllocationError IpAddr :=
  let startIp := allocator.subnet.startIp
  match Traverse.around incrementIp allocator.isAvailable startIp allocator.subnet.addresses
    startIp with
  | some (some ip) => .ok ip
  | _ => .error .noAvailableIps

/-- The three insertions both allocations end with. -/
def record (allocator : IpAllocator) (serviceName : String) (ip : IpAddr) : IpAllocator :=
  { allocator with
    allocations := allocator.allocations.insert serviceName ip
    ipToService := allocator.ipToService.insert ip serviceName
    allocatedIps := insert ip allocator.allocatedIps }

/-- `allocate`. -/
def allocate (allocator : IpAllocator) (serviceName : String) :
    IpAllocator × Except AllocationError IpAddr :=
  match allocator.allocations.lookup serviceName with
  | some ip => (allocator, .ok ip)
  | none =>
    match allocator.findNextAvailable with
    | .error e => (allocator, .error e)
    | .ok ip => (allocator.record serviceName ip, .ok ip)

/-- `allocate_specific`. -/
def allocateSpecific (allocator : IpAllocator) (serviceName : String) (ip : IpAddr) :
    IpAllocator × Except AllocationError Unit :=
  if allocator.subnet.contains ip then
    if ip ∈ allocator.allocatedIps then
      match allocator.ipToService.lookup ip with
      | some existing =>
        if existing ≠ serviceName then (allocator, .error (.alreadyAllocated ip existing))
        -- an address the service had before stays where it is
        else (allocator.record serviceName ip, .ok ())
      | none => (allocator.record serviceName ip, .ok ())
    else (allocator.record serviceName ip, .ok ())
  else (allocator, .error (.notInSubnet ip allocator.subnet))

/-- The three removals of `release`. -/
def forget (allocator : IpAllocator) (serviceName : String) (ip : IpAddr) : IpAllocator :=
  { allocator with
    allocations := allocator.allocations.erase serviceName
    ipToService := allocator.ipToService.erase ip
    allocatedIps := allocator.allocatedIps.erase ip }

/-- `release`. -/
def release (allocator : IpAllocator) (serviceName : String) : IpAllocator × Option IpAddr :=
  match allocator.allocations.lookup serviceName with
  | some ip => (allocator.forget serviceName ip, some ip)
  | none => (allocator, none)

/-- `get_service_by_ip`. -/
def getServiceByIp (allocator : IpAllocator) (ip : IpAddr) : Option String :=
  allocator.ipToService.lookup ip

/-- `allocated_count`. -/
def allocatedCount (allocator : IpAllocator) : Nat := allocator.allocatedIps.card

/-! ## The search -/

/-- When an address is available. -/
theorem isAvailable_iff {allocator : IpAllocator} {ip : IpAddr} :
    allocator.isAvailable ip = true ↔
      allocator.subnet.contains ip = true ∧ ip ∉ allocator.allocatedIps := by
  rw [isAvailable, Bool.and_eq_true, decide_eq_true_eq]

/-- Going on n addresses is adding n. -/
theorem iterate_incrementIp (n : Nat) :
    (∀ ip, incrementIp^[n] (.v4 ip) = .v4 (ip + BitVec.ofNat 32 n)) ∧
      ∀ ip, incrementIp^[n] (.v6 ip) = .v6 (ip + BitVec.ofNat 128 n) := by
  induction n with
  | zero => simp
  | succ n ih =>
    constructor
    · intro ip
      rw [Function.iterate_succ_apply', ih.1, incrementIp, BitVec.ofNat_add, BitVec.add_assoc]
      rfl
    · intro ip
      rw [Function.iterate_succ_apply', ih.2, incrementIp, BitVec.ofNat_add, BitVec.add_assoc]
      rfl

/-- After all addresses the search is where it began. -/
theorem isPeriodicPt_startIp (subnet : IpNet) :
    Function.IsPeriodicPt incrementIp subnet.addresses subnet.startIp := by
  cases subnet with
  | v4 net =>
    show incrementIp^[2 ^ 32] (.v4 _) = .v4 _
    rw [(iterate_incrementIp _).1]
    simp
  | v6 net =>
    show incrementIp^[2 ^ 128] (.v6 _) = .v6 _
    rw [(iterate_incrementIp _).2]
    simp

/-- The search gets to every address of the subnet. -/
theorem exists_iterate_startIp {subnet : IpNet} {ip : IpAddr} (h : subnet.contains ip = true) :
    ∃ n, incrementIp^[n] subnet.startIp = ip := by
  cases subnet with
  | v4 net =>
    cases ip with
    | v4 ip =>
      refine ⟨(ip - (net.network + 2)).toNat, ?_⟩
      rw [IpNet.startIp, (iterate_incrementIp _).1, BitVec.ofNat_toNat, BitVec.setWidth_eq,
        BitVec.add_comm, BitVec.sub_add_cancel]
    | v6 ip => simp [IpNet.contains] at h
  | v6 net =>
    cases ip with
    | v4 ip => simp [IpNet.contains] at h
    | v6 ip =>
      refine ⟨(ip - (net.network + 2)).toNat, ?_⟩
      rw [IpNet.startIp, (iterate_incrementIp _).2, BitVec.ofNat_toNat, BitVec.setWidth_eq,
        BitVec.add_comm, BitVec.sub_add_cancel]

/-- The search finds an available address, if there is one. -/
theorem findNextAvailable_cases (allocator : IpAllocator) :
    (∃ ip, allocator.findNextAvailable = .ok ip ∧ allocator.isAvailable ip = true) ∨
      allocator.findNextAvailable = .error .noAvailableIps ∧
        ∀ ip, allocator.isAvailable ip = false := by
  have hpos : 0 < allocator.subnet.addresses := by
    cases allocator.subnet with
    | v4 net => exact Nat.two_pow_pos 32
    | v6 net => exact Nat.two_pow_pos 128
  unfold findNextAvailable
  dsimp only
  obtain ⟨ip, hfound, havailable⟩ | ⟨hnone, hall⟩ :=
    Traverse.around_spec (isPeriodicPt_startIp allocator.subnet) hpos allocator.isAvailable
  · rw [hfound]
    exact .inl ⟨ip, rfl, havailable⟩
  · rw [hnone]
    refine .inr ⟨rfl, fun ip => ?_⟩
    by_contra havailable
    rw [Bool.not_eq_false, isAvailable, Bool.and_eq_true] at havailable
    obtain ⟨n, rfl⟩ := exists_iterate_startIp havailable.1
    have hn := hall n
    rw [isAvailable, havailable.1, havailable.2] at hn
    simp at hn

/-- If an address is available, one is found. -/
theorem findNextAvailable_ok {allocator : IpAllocator} {ip : IpAddr}
    (h : allocator.isAvailable ip = true) :
    ∃ found, allocator.findNextAvailable = .ok found := by
  rcases allocator.findNextAvailable_cases with ⟨found, hfound, _⟩ | ⟨_, hnone⟩
  · exact ⟨found, hfound⟩
  · rw [hnone ip] at h
    cases h

end IpAllocator

end GraphHarness.ServiceRegistry
