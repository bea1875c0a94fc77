import GraphHarness.ServiceRegistry.Network.FirstFit

/-!
# The arithmetic of the allocator

The addresses `.1` and `.2` are the network address plus one and plus two. Nothing looks
at the length of the prefix before, and the additions are not the wrapping ones that the
search uses further on.

> `arithmeticSafe_iff` — no addition overflows and the gateway is in the subnet **except
> for a single host and for the last two addresses of the family**.

The additions are modelled as those of a build with overflow checks, which ends where one
overflows.

Each checked function is the function of `IpAllocator.lean` in `Option`, with `none` for an
overflow; with room the two agree (`performChecked_of_hasRoom`), and without room the first
allocation that needs an address overflows. A prefix of any length is considered, for both
families, and `IsLastPair` is a prefix of one bit less than the whole at the very end.
-/

namespace GraphHarness.ServiceRegistry

/-- `+` with an overflow check. -/
def checkedAdd {width : Nat} (x y : BitVec width) : Option (BitVec width) :=
  if x.uaddOverflow y then none else some (x + y)

/-- A sum within the width. -/
theorem checkedAdd_of_lt {width : Nat} {x y : BitVec width} (h : x.toNat + y.toNat < 2 ^ width) :
    checkedAdd x y = some (x + y) := by
  unfold checkedAdd
  rw [if_neg]
  simpa [BitVec.uaddOverflow] using h

/-- A sum beyond the width. -/
theorem checkedAdd_of_le {width : Nat} {x y : BitVec width} (h : 2 ^ width ≤ x.toNat + y.toNat) :
    checkedAdd x y = none := by
  unfold checkedAdd
  rw [if_pos]
  simpa [BitVec.uaddOverflow] using h

namespace IpNet

/-- The gateway, with the overflow noticed. -/
def gatewayIpChecked : IpNet → Option IpAddr
  | .v4 net => (checkedAdd net.network 1).map .v4
  | .v6 net => (checkedAdd net.network 1).map .v6

/-- The start of the search, with the overflow noticed. -/
def startIpChecked : IpNet → Option IpAddr
  | .v4 net => (checkedAdd net.network 2).map .v4
  | .v6 net => (checkedAdd net.network 2).map .v6

/-- `max_prefix_len` of the `ipnet` crate. -/
def maxPrefixLen : IpNet → Nat
  | .v4 _ => 32
  | .v6 _ => 128

end IpNet

namespace IpAllocator

/-- The reservation, with the overflow noticed. -/
def reserveGatewayChecked (allocator : IpAllocator) : Option IpAllocator :=
  allocator.subnet.gatewayIpChecked.map fun gatewayIp =>
    { allocator with
      allocatedIps := insert gatewayIp allocator.allocatedIps
      ipToService := allocator.ipToService.insert gatewayIp "gateway" }

/-- A new allocator, with the overflow noticed. -/
def newChecked (subnet : IpNet) : Option IpAllocator :=
  (⟨subnet, ∅, ∅, ∅⟩ : IpAllocator).reserveGatewayChecked

/-- `increment_ip` of the loop wraps around in this build too. -/
def findNextAvailableChecked (allocator : IpAllocator) :
    Option (Except AllocationError IpAddr) :=
  allocator.subnet.startIpChecked.map fun startIp =>
    match Traverse.around incrementIp allocator.isAvailable startIp allocator.subnet.addresses
      startIp with
    | some (some ip) => .ok ip
    | _ => .error .noAvailableIps

/-- An allocation, with the overflow noticed. -/
def allocateChecked (allocator : IpAllocator) (serviceName : String) :
    Option (IpAllocator × Except AllocationError IpAddr) :=
  match allocator.allocations.lookup serviceName with
  | some ip => some (allocator, .ok ip)
  | none =>
    match allocator.findNextAvailableChecked with
    | none => none
    | some (.error e) => some (allocator, .error e)
    | some (.ok ip) => some (allocator.record serviceName ip, .ok ip)

/-- The state after a call. Only `allocate` does arithmetic that can overflow. -/
def performChecked (allocator : IpAllocator) : Request → Option IpAllocator
  | .allocate serviceName => (allocator.allocateChecked serviceName).map Prod.fst
  | .allocateSpecific serviceName ip => some (allocator.allocateSpecific serviceName ip).1
  | .release serviceName => some (allocator.release serviceName).1

end IpAllocator

/-! ## Subnets of a prefix -/

/-- What the `ipnet` crate documents: the addresses of a subnet are those that agree with
the network address in the first `prefixLen` bits, and the other bits of the network
address are zero. -/
structure Net.IsPrefix {width : Nat} (net : Net width) (prefixLen : Nat) : Prop where
  le : prefixLen ≤ width
  aligned : 2 ^ (width - prefixLen) ∣ net.network.toNat
  contains : ∀ ip, net.contains ip = true ↔
    ip.toNat / 2 ^ (width - prefixLen) = net.network.toNat / 2 ^ (width - prefixLen)

namespace Net

/-- The subnet an address and a prefix length are parsed to. -/
def ofPrefix {width : Nat} (addr : BitVec width) (prefixLen : Nat) : Net width where
  network := BitVec.ofNat width
    (addr.toNat / 2 ^ (width - prefixLen) * 2 ^ (width - prefixLen))
  contains := fun ip =>
    ip.toNat / 2 ^ (width - prefixLen) == addr.toNat / 2 ^ (width - prefixLen)

/-- A prefix makes a network. -/
theorem isPrefix_ofPrefix {width : Nat} (addr : BitVec width) {prefixLen : Nat}
    (h : prefixLen ≤ width) : (ofPrefix addr prefixLen).IsPrefix prefixLen := by
  have hpos : 0 < 2 ^ (width - prefixLen) := Nat.two_pow_pos _
  have hvalue : (ofPrefix addr prefixLen).network.toNat =
      addr.toNat / 2 ^ (width - prefixLen) * 2 ^ (width - prefixLen) := by
    rw [ofPrefix, BitVec.toNat_ofNat, Nat.mod_eq_of_lt]
    exact Nat.lt_of_le_of_lt (Nat.div_mul_le_self _ _) addr.isLt
  refine ⟨h, ?_, ?_⟩
  · rw [hvalue]
    exact Nat.dvd_mul_left _ _
  · intro ip
    rw [hvalue, Nat.mul_div_cancel _ hpos]
    exact beq_iff_eq

namespace IsPrefix

variable {width prefixLen : Nat} {net : Net width} (h : net.IsPrefix prefixLen)
include h

/-- The addresses of a network, as numbers. -/
theorem contains_iff {ip : BitVec width} : net.contains ip = true ↔
    net.network.toNat ≤ ip.toNat ∧ ip.toNat < net.network.toNat + 2 ^ (width - prefixLen) := by
  have hpos : 0 < 2 ^ (width - prefixLen) := Nat.two_pow_pos _
  obtain ⟨block, hblock⟩ := h.aligned
  rw [h.contains, hblock, Nat.mul_div_cancel_left _ hpos, Nat.div_eq_iff hpos]
  rw [Nat.mul_comm]
  omega

/-- A subnet ends where the addresses do, or before. -/
theorem end_le : net.network.toNat + 2 ^ (width - prefixLen) ≤ 2 ^ width := by
  have hwidth : 2 ^ width = 2 ^ (width - prefixLen) * 2 ^ prefixLen := by
    rw [← Nat.pow_add, Nat.sub_add_cancel h.le]
  obtain ⟨block, hblock⟩ := h.aligned
  have hlt : 2 ^ (width - prefixLen) * block < 2 ^ (width - prefixLen) * 2 ^ prefixLen := by
    rw [← hblock, ← hwidth]
    exact net.network.isLt
  have hsucc : block + 1 ≤ 2 ^ prefixLen := Nat.lt_of_mul_lt_mul_left hlt
  rw [hblock, hwidth, ← Nat.mul_succ]
  exact Nat.mul_le_mul_left _ hsucc

/-- A network is a range. -/
theorem isRange : net.IsRange := by
  have hend := h.end_le
  have hpos : 0 < 2 ^ (width - prefixLen) := Nat.two_pow_pos _
  refine ⟨BitVec.ofNat width (net.network.toNat + (2 ^ (width - prefixLen) - 1)), ?_⟩
  intro ip
  rw [h.contains_iff, BitVec.le_def, BitVec.le_def, BitVec.toNat_ofNat,
    Nat.mod_eq_of_lt (by omega)]
  omega

/-- Room for `.1` and `.2`, and the first of them in the subnet. -/
theorem room_iff :
    (net.network.toNat + 2 < 2 ^ width ∧ net.contains (net.network + 1) = true) ↔
      prefixLen < width ∧ ¬ (prefixLen + 1 = width ∧ net.network.toNat + 2 = 2 ^ width) := by
  have hend := h.end_le
  have hle := h.le
  constructor
  · rintro ⟨hroom, hgateway⟩
    rw [h.contains_iff, toNat_add_one hroom] at hgateway
    refine ⟨?_, by omega⟩
    by_contra hhost
    obtain rfl : prefixLen = width := by omega
    -- the network address is the only one of the subnet
    rw [Nat.sub_self] at hgateway
    omega
  · rintro ⟨hlt, hlast⟩
    have hsize : 2 ≤ 2 ^ (width - prefixLen) := Nat.le_self_pow (by omega) 2
    have hroom : net.network.toNat + 2 < 2 ^ width := by
      by_cases hpair : prefixLen + 1 = width
      · omega
      · have hfour : 2 ^ 2 ≤ 2 ^ (width - prefixLen) :=
          Nat.pow_le_pow_right (by omega) (by omega)
        omega
    refine ⟨hroom, ?_⟩
    rw [h.contains_iff, toNat_add_one hroom]
    omega

end IsPrefix

end Net

namespace IpNet

/-- `Net.IsPrefix` of both families. -/
def IsPrefix : IpNet → Nat → Prop
  | .v4 net, prefixLen => net.IsPrefix prefixLen
  | .v6 net, prefixLen => net.IsPrefix prefixLen

/-- A network of either family is a range. -/
theorem IsPrefix.isRange {subnet : IpNet} {prefixLen : Nat} (h : subnet.IsPrefix prefixLen) :
    subnet.IsRange := by
  cases subnet with
  | v4 net => exact Net.IsPrefix.isRange h
  | v6 net => exact Net.IsPrefix.isRange h

/-- The network address is the first of two addresses, and they are the last ones of the
family. -/
def IsLastPair (subnet : IpNet) (prefixLen : Nat) : Prop :=
  prefixLen + 1 = subnet.maxPrefixLen ∧ subnet.networkIp.toNat + 2 = subnet.addresses

/-- A network has room if and only if it is neither a single address nor the last pair. -/
theorem IsPrefix.room_iff {subnet : IpNet} {prefixLen : Nat} (h : subnet.IsPrefix prefixLen) :
    (subnet.HasRoom ∧ subnet.contains subnet.gatewayIp = true) ↔
      prefixLen < subnet.maxPrefixLen ∧ ¬ subnet.IsLastPair prefixLen := by
  cases subnet with
  | v4 net => exact Net.IsPrefix.room_iff h
  | v6 net => exact Net.IsPrefix.room_iff h

/-- With room the gateway does not overflow. -/
theorem gatewayIpChecked_of_hasRoom {subnet : IpNet} (h : subnet.HasRoom) :
    subnet.gatewayIpChecked = some subnet.gatewayIp := by
  cases subnet with
  | v4 net =>
    have hroom : net.network.toNat + 2 < 2 ^ 32 := h
    rw [gatewayIpChecked, checkedAdd_of_lt (show net.network.toNat + 1 < 2 ^ 32 by omega)]
    rfl
  | v6 net =>
    have hroom : net.network.toNat + 2 < 2 ^ 128 := h
    rw [gatewayIpChecked, checkedAdd_of_lt (show net.network.toNat + 1 < 2 ^ 128 by omega)]
    rfl

/-- With room the start does not overflow. -/
theorem startIpChecked_of_hasRoom {subnet : IpNet} (h : subnet.HasRoom) :
    subnet.startIpChecked = some subnet.startIp := by
  cases subnet with
  | v4 net =>
    rw [startIpChecked, checkedAdd_of_lt h]
    rfl
  | v6 net =>
    rw [startIpChecked, checkedAdd_of_lt h]
    rfl

/-- Without room it does. -/
theorem startIpChecked_of_not_hasRoom {subnet : IpNet} (h : ¬ subnet.HasRoom) :
    subnet.startIpChecked = none := by
  cases subnet with
  | v4 net =>
    rw [startIpChecked, checkedAdd_of_le (Nat.le_of_not_lt h)]
    rfl
  | v6 net =>
    rw [startIpChecked, checkedAdd_of_le (Nat.le_of_not_lt h)]
    rfl

end IpNet

/-! ## Runs -/

namespace IpAllocator

/-- With room a new allocator is made. -/
theorem newChecked_of_hasRoom {subnet : IpNet} (h : subnet.HasRoom) :
    newChecked subnet = some (new subnet) := by
  unfold newChecked reserveGatewayChecked
  rw [IpNet.gatewayIpChecked_of_hasRoom h]
  rfl

/-- With room an allocation does not overflow. -/
theorem allocateChecked_of_hasRoom {allocator : IpAllocator} (h : allocator.subnet.HasRoom)
    (serviceName : String) :
    allocator.allocateChecked serviceName = some (allocator.allocate serviceName) := by
  have hfind : allocator.findNextAvailableChecked = some allocator.findNextAvailable := by
    unfold findNextAvailableChecked
    rw [IpNet.startIpChecked_of_hasRoom h]
    rfl
  unfold allocateChecked allocate
  rw [hfind]
  cases allocator.allocations.lookup serviceName with
  | some ip => rfl
  | none =>
    cases allocator.findNextAvailable with
    | error e => rfl
    | ok ip => rfl

/-- Without room it does, unless the service holds an address already. -/
theorem allocateChecked_of_not_hasRoom {allocator : IpAllocator} (h : ¬ allocator.subnet.HasRoom)
    {serviceName : String} (hname : allocator.allocations.lookup serviceName = none) :
    allocator.allocateChecked serviceName = none := by
  unfold allocateChecked findNextAvailableChecked
  rw [hname, IpNet.startIpChecked_of_not_hasRoom h]
  rfl

/-- With room, a call is the one of the build that wraps around. -/
theorem performChecked_of_hasRoom {allocator : IpAllocator} (h : allocator.subnet.HasRoom)
    (request : Request) :
    allocator.performChecked request = some (allocator.perform request).1 := by
  cases request with
  | allocate serviceName =>
    rw [performChecked, allocateChecked_of_hasRoom h]
    rfl
  | allocateSpecific serviceName ip => rfl
  | release serviceName => rfl

/-- With room no calls overflow. -/
theorem foldlM_performChecked {allocator : IpAllocator} (h : allocator.subnet.HasRoom)
    (requests : List Request) : requests.foldlM performChecked allocator =
      some (Trace.after perform allocator requests) := by
  induction requests generalizing allocator with
  | nil => rfl
  | cons request requests ih =>
    rw [List.foldlM_cons, performChecked_of_hasRoom h]
    exact ih (by rwa [subnet_perform])

/-- A new allocator is made, every address it has reserved is in the subnet, and no call
of a run ends in an overflow. -/
def ArithmeticSafe (subnet : IpNet) : Prop :=
  ∃ allocator, newChecked subnet = some allocator ∧
    (∀ gatewayIp ∈ allocator.allocatedIps, subnet.contains gatewayIp = true) ∧
    ∀ requests : List Request, requests.foldlM performChecked allocator ≠ none

/-- If nothing overflows there is room. -/
theorem ArithmeticSafe.hasRoom {subnet : IpNet} (h : ArithmeticSafe subnet) :
    subnet.HasRoom ∧ subnet.contains subnet.gatewayIp = true := by
  obtain ⟨allocator, hnew, hgateway, hruns⟩ := h
  have hroom : subnet.HasRoom := by
    by_contra hfull
    -- the first service that asks for an address makes `.2`
    refine hruns [.allocate "service"] ?_
    have hinit : allocator.subnet = subnet ∧
        allocator.allocations.lookup "service" = none := by
      unfold newChecked reserveGatewayChecked at hnew
      obtain ⟨gatewayIp, _, rfl⟩ := Option.map_eq_some_iff.mp hnew
      exact ⟨rfl, AList.lookup_empty "service"⟩
    rw [List.foldlM_cons, performChecked,
      allocateChecked_of_not_hasRoom (by rwa [hinit.1]) hinit.2]
    rfl
  rw [newChecked_of_hasRoom hroom] at hnew
  obtain rfl := Option.some.inj hnew
  exact ⟨hroom, hgateway _ (Finset.mem_insert_self _ _)⟩

/-- If there is room nothing overflows. -/
theorem arithmeticSafe_of_hasRoom {subnet : IpNet} (hroom : subnet.HasRoom)
    (hgateway : subnet.contains subnet.gatewayIp = true) : ArithmeticSafe subnet := by
  refine ⟨new subnet, newChecked_of_hasRoom hroom, ?_, ?_⟩
  · intro gatewayIp hreserved
    rcases Finset.mem_insert.mp hreserved with rfl | hnone
    · exact hgateway
    · cases hnone
  · intro requests
    rw [foldlM_performChecked hroom]
    simp

/-- For every subnet of a prefix, no addition overflows in any run and the gateway is in
the subnet, exactly if the subnet is no single host and not the last pair of addresses. -/
theorem arithmeticSafe_iff (subnet : IpNet) (prefixLen : Nat) (h : subnet.IsPrefix prefixLen) :
    ArithmeticSafe subnet ↔
      prefixLen < subnet.maxPrefixLen ∧ ¬ subnet.IsLastPair prefixLen := by
  rw [← h.room_iff]
  constructor
  · exact ArithmeticSafe.hasRoom
  · rintro ⟨hroom, hgateway⟩
    exact arithmeticSafe_of_hasRoom hroom hgateway

/-- The subnet `10.42.0.0/16` is safe, as its prefix is neither. -/
theorem default_arithmeticSafe : ArithmeticSafe (.v4 (Net.ofPrefix 0x0A2A0000 16)) := by
  have hprefix : (Net.ofPrefix (0x0A2A0000 : BitVec 32) 16).IsPrefix 16 :=
    Net.isPrefix_ofPrefix _ (by decide)
  refine (arithmeticSafe_iff (.v4 _) 16 hprefix).mpr ⟨by decide, ?_⟩
  intro hlast
  exact absurd hlast.1 (by decide)

/-- The address after the host `255.255.255.255/32` does not exist. -/
theorem broadcast_not_arithmeticSafe :
    ¬ ∀ (subnet : IpNet) (prefixLen : Nat), subnet.IsPrefix prefixLen →
      ArithmeticSafe subnet := by
  intro h
  obtain ⟨allocator, hnew, _⟩ := h (.v4 (Net.ofPrefix 0xFFFFFFFF 32)) 32
    (Net.isPrefix_ofPrefix 0xFFFFFFFF (Nat.le_refl 32))
  rw [show newChecked (.v4 (Net.ofPrefix 0xFFFFFFFF 32)) = none from rfl] at hnew
  cases hnew

end IpAllocator

end GraphHarness.ServiceRegistry
