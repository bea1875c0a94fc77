import GraphHarness.ServiceRegistry.Network.Allocation
import Mathlib.Data.Nat.ModEq

/-!
# Which address a service gets

The search starts two addresses above the network address and goes up, but it does not
stop at the top of the subnet: it goes on through the other end of the address space and
comes to the two addresses below its start last.

> `firstFit_iff` — a service gets the lowest free address from the third one on, or an
> error if there is none, **unless there is none and one of the first two is free**.

The first of the two is the network address, which nothing reserves.

Addresses are compared as numbers. The search is `Traverse.around` from the third address on;
it looks at the addresses above first, then at everything outside of the subnet, where nothing
is accepted, and at last at the two below its start. `SearchStaysAbove` is the condition that
it ends before that.

`HasRoom` leaves out subnets at the upper end of the address space, where the third address
does not exist; what happens there is in `Overflow.lean`.
-/

namespace GraphHarness.ServiceRegistry

/-- The address as a number. -/
def IpAddr.toNat : IpAddr → Nat
  | .v4 ip => ip.toNat
  | .v6 ip => ip.toNat

/-- A subnet contains the addresses from its network address to its broadcast address. -/
def Net.IsRange {width : Nat} (net : Net width) : Prop :=
  ∃ broadcast, ∀ ip, net.contains ip = true ↔ net.network ≤ ip ∧ ip ≤ broadcast

/-- The next address, below the end. -/
theorem toNat_add_one {width : Nat} {ip : BitVec width} (h : ip.toNat + 2 < 2 ^ width) :
    (ip + 1).toNat = ip.toNat + 1 := by
  have hone : (1 : BitVec width).toNat = 1 := by
    show (BitVec.ofNat width 1).toNat = 1
    rw [BitVec.toNat_ofNat, Nat.mod_eq_of_lt (by omega)]
  rw [BitVec.toNat_add, hone, Nat.mod_eq_of_lt (by omega)]

/-- Every address of a subnet but the first two is at least `.2`. -/
theorem Net.first_or {width : Nat} {net : Net width} (hrange : net.IsRange)
    (hroom : net.network.toNat + 2 < 2 ^ width) {ip : BitVec width}
    (h : net.contains ip = true) :
    ip = net.network ∨ ip = net.network + 1 ∨ net.network.toNat + 2 ≤ ip.toNat := by
  obtain ⟨broadcast, hrange⟩ := hrange
  have hle : net.network.toNat ≤ ip.toNat := ((hrange ip).mp h).1
  by_cases hfirst : ip.toNat = net.network.toNat
  · exact .inl (BitVec.eq_of_toNat_eq hfirst)
  by_cases hsecond : ip.toNat = net.network.toNat + 1
  · refine .inr (.inl (BitVec.eq_of_toNat_eq ?_))
    rw [hsecond, toNat_add_one hroom]
  · exact .inr (.inr (by omega))

namespace IpNet

/-- The first address of the range. -/
def networkIp : IpNet → IpAddr
  | .v4 net => .v4 net.network
  | .v6 net => .v6 net.network

/-- What the `ipnet` crate documents about `contains`. -/
def IsRange : IpNet → Prop
  | .v4 net => net.IsRange
  | .v6 net => net.IsRange

/-- The addresses `.1` and `.2` do not overflow. -/
def HasRoom (subnet : IpNet) : Prop := subnet.networkIp.toNat + 2 < subnet.addresses

/-- An address of the range, as a number. -/
theorem toNat_lt {subnet : IpNet} {ip : IpAddr} (h : subnet.contains ip = true) :
    ip.toNat < subnet.addresses := by
  cases subnet with
  | v4 net =>
    cases ip with
    | v4 ip => exact ip.isLt
    | v6 ip => cases h
  | v6 net =>
    cases ip with
    | v4 ip => cases h
    | v6 ip => exact ip.isLt

/-- Two addresses of the range with one number are one. -/
theorem eq_of_toNat {subnet : IpNet} {ip ip' : IpAddr} (h : subnet.contains ip = true)
    (h' : subnet.contains ip' = true) (heq : ip.toNat = ip'.toNat) : ip = ip' := by
  cases subnet with
  | v4 net =>
    cases ip with
    | v4 ip =>
      cases ip' with
      | v4 ip' => exact congrArg IpAddr.v4 (BitVec.eq_of_toNat_eq heq)
      | v6 ip' => cases h'
    | v6 ip => cases h
  | v6 net =>
    cases ip with
    | v4 ip => cases h
    | v6 ip =>
      cases ip' with
      | v4 ip' => cases h'
      | v6 ip' => exact congrArg IpAddr.v6 (BitVec.eq_of_toNat_eq heq)

/-- An address of the range is one of the first two, or behind them. -/
theorem first_or {subnet : IpNet} (hrange : subnet.IsRange) (hroom : subnet.HasRoom)
    {ip : IpAddr} (h : subnet.contains ip = true) :
    ip = subnet.networkIp ∨ ip = subnet.gatewayIp ∨
      subnet.networkIp.toNat + 2 ≤ ip.toNat := by
  cases subnet with
  | v4 net =>
    cases ip with
    | v4 ip =>
      rcases Net.first_or hrange hroom h with rfl | rfl | hthird
      · exact .inl rfl
      · exact .inr (.inl rfl)
      · exact .inr (.inr hthird)
    | v6 ip => cases h
  | v6 net =>
    cases ip with
    | v4 ip => cases h
    | v6 ip =>
      rcases Net.first_or hrange hroom h with rfl | rfl | hthird
      · exact .inl rfl
      · exact .inr (.inl rfl)
      · exact .inr (.inr hthird)

/-- The `n`th address the search looks at. -/
theorem toNat_iterate (subnet : IpNet) (n : Nat) :
    (incrementIp^[n] subnet.startIp).toNat =
      (subnet.networkIp.toNat + 2 + n) % subnet.addresses := by
  cases subnet with
  | v4 net =>
    rw [startIp, (IpAllocator.iterate_incrementIp n).1]
    show (net.network + 2 + BitVec.ofNat 32 n).toNat = (net.network.toNat + 2 + n) % 2 ^ 32
    simp [BitVec.toNat_add]
  | v6 net =>
    rw [startIp, (IpAllocator.iterate_incrementIp n).2]
    show (net.network + 2 + BitVec.ofNat 128 n).toNat = (net.network.toNat + 2 + n) % 2 ^ 128
    simp [BitVec.toNat_add]

end IpNet

namespace IpAllocator

open Trace

/-- A free address of the subnet from `.2` on. -/
def Candidate (allocator : IpAllocator) (ip : IpAddr) : Prop :=
  allocator.subnet.contains ip = true ∧ allocator.subnet.networkIp.toNat + 2 ≤ ip.toNat ∧
    ip ∉ allocator.allocatedIps

/-- What a service without an address gets. -/
structure FirstFit (allocator : IpAllocator) (serviceName : String) : Prop where
  /-- The search does not run out of fuel. -/
  terminates : Traverse.around incrementIp allocator.isAvailable allocator.subnet.startIp
    allocator.subnet.addresses allocator.subnet.startIp ≠ none
  lowest : ∀ ip, (allocator.allocate serviceName).2 = .ok ip ↔
    allocator.Candidate ip ∧ ∀ other, allocator.Candidate other → ip.toNat ≤ other.toNat
  exhausted : (∃ e, (allocator.allocate serviceName).2 = .error e) ↔
    ∀ ip, ¬ allocator.Candidate ip
  unchanged : ∀ e, (allocator.allocate serviceName).2 = .error e →
    (allocator.allocate serviceName).1 = allocator
  notNetwork : (allocator.allocate serviceName).2 ≠ .ok allocator.subnet.networkIp

/-- An address from `.2` on is free, or neither of the two below is. -/
def SearchStaysAbove (allocator : IpAllocator) : Prop :=
  (∃ ip, allocator.Candidate ip) ∨
    allocator.isAvailable allocator.subnet.networkIp = false ∧
      allocator.isAvailable allocator.subnet.gatewayIp = false

section Search

variable {allocator : IpAllocator} {ip : IpAddr}

/-- A candidate is available. -/
theorem Candidate.isAvailable (h : allocator.Candidate ip) : allocator.isAvailable ip = true :=
  isAvailable_iff.mpr ⟨h.1, h.2.2⟩

/-- The search comes round to where it began. -/
theorem search_terminates (allocator : IpAllocator) :
    Traverse.around incrementIp allocator.isAvailable allocator.subnet.startIp
      allocator.subnet.addresses allocator.subnet.startIp ≠ none := by
  have hpos : 0 < allocator.subnet.addresses := by
    cases allocator.subnet with
    | v4 net => exact Nat.two_pow_pos 32
    | v6 net => exact Nat.two_pow_pos 128
  rcases Traverse.around_spec (IpAllocator.isPeriodicPt_startIp allocator.subnet) hpos
    allocator.isAvailable with ⟨ip, hfound, _⟩ | ⟨hnone, _⟩
  · rw [hfound]
    simp
  · rw [hnone]
    simp

/-- What the search finds is some number of steps away, and nothing before is free. -/
theorem findNextAvailable_first (h : allocator.findNextAvailable = .ok ip) :
    ∃ n, ip = incrementIp^[n] allocator.subnet.startIp ∧
      ∀ m < n, allocator.isAvailable (incrementIp^[m] allocator.subnet.startIp) = false := by
  unfold findNextAvailable at h
  dsimp only at h
  split at h
  next ip' hfound =>
    obtain rfl : ip' = ip := by simpa using h
    exact Traverse.around_first hfound
  next => cases h

/-- A candidate is as many steps from the start as it is above it. -/
theorem Candidate.iterate (h : allocator.Candidate ip) :
    incrementIp^[ip.toNat - (allocator.subnet.networkIp.toNat + 2)] allocator.subnet.startIp =
      ip := by
  obtain ⟨hcontains, habove, _⟩ := h
  obtain ⟨n, rfl⟩ := exists_iterate_startIp hcontains
  have hlt := IpNet.toNat_lt hcontains
  rw [IpNet.toNat_iterate] at habove hlt ⊢
  -- the two numbers of steps are the same up to whole rounds
  have hround : Nat.ModEq allocator.subnet.addresses (allocator.subnet.networkIp.toNat + 2 + n)
      (allocator.subnet.networkIp.toNat + 2 +
        ((allocator.subnet.networkIp.toNat + 2 + n) % allocator.subnet.addresses -
          (allocator.subnet.networkIp.toNat + 2))) := by
    rw [Nat.add_sub_cancel' habove]
    exact (Nat.mod_modEq _ _).symm
  have hsteps := Nat.ModEq.add_left_cancel' _ hround
  have hperiod := isPeriodicPt_startIp allocator.subnet
  rw [← hperiod.iterate_mod_apply n, hsteps, hperiod.iterate_mod_apply]

/-- What the search finds is a candidate and no candidate is below it, if there is one. -/
theorem findNextAvailable_lowest (h : allocator.findNextAvailable = .ok ip) {other : IpAddr}
    (hother : allocator.Candidate other) : allocator.Candidate ip ∧ ip.toNat ≤ other.toNat := by
  obtain ⟨n, hip, hbefore⟩ := findNextAvailable_first h
  have havailable : allocator.isAvailable ip = true := by
    rcases allocator.findNextAvailable_cases with ⟨ip', hfound, havailable⟩ | ⟨hnone, _⟩
    · rw [h] at hfound
      obtain rfl : ip = ip' := by simpa using hfound
      exact havailable
    · rw [h] at hnone
      cases hnone
  have hsteps : n ≤ other.toNat - (allocator.subnet.networkIp.toNat + 2) := by
    by_contra hless
    have hfree := hbefore (other.toNat - (allocator.subnet.networkIp.toNat + 2)) (by omega)
    rw [hother.iterate, hother.isAvailable] at hfree
    cases hfree
  have hlt := IpNet.toNat_lt hother.1
  have habove := hother.2.1
  -- so the search has not left the upper end of the addresses
  have hvalue : ip.toNat = allocator.subnet.networkIp.toNat + 2 + n := by
    rw [hip, IpNet.toNat_iterate, Nat.mod_eq_of_lt (by omega)]
  obtain ⟨hcontains, hfree⟩ := isAvailable_iff.mp havailable
  exact ⟨⟨hcontains, by omega, hfree⟩, by omega⟩

end Search

/-! ## First fit -/

section FirstFit

variable {allocator : IpAllocator} {serviceName : String}

/-- Where the search cannot come back from below, it finds candidates only. -/
theorem SearchStaysAbove.candidate (hrange : allocator.subnet.IsRange)
    (hroom : allocator.subnet.HasRoom) (h : allocator.SearchStaysAbove) {ip : IpAddr}
    (hfound : allocator.findNextAvailable = .ok ip) : allocator.Candidate ip := by
  rcases h with ⟨other, hother⟩ | ⟨hnetwork, hgateway⟩
  · exact (findNextAvailable_lowest hfound hother).1
  · rcases allocator.findNextAvailable_cases with ⟨ip', hfound', havailable⟩ | ⟨hnone, _⟩
    · rw [hfound] at hfound'
      obtain rfl : ip = ip' := by simpa using hfound'
      obtain ⟨hcontains, hfree⟩ := isAvailable_iff.mp havailable
      rcases IpNet.first_or hrange hroom hcontains with rfl | rfl | hthird
      · rw [hnetwork] at havailable
        cases havailable
      · rw [hgateway] at havailable
        cases havailable
      · exact ⟨hcontains, hthird, hfree⟩
    · rw [hfound] at hnone
      cases hnone

/-- A search that stays above finds the first that fits. -/
theorem SearchStaysAbove.firstFit (hrange : allocator.subnet.IsRange)
    (hroom : allocator.subnet.HasRoom) (h : allocator.SearchStaysAbove)
    (hname : allocator.allocations.lookup serviceName = none) :
    allocator.FirstFit serviceName := by
  obtain ⟨hresult, hunchanged⟩ := allocate_unheld hname
  refine ⟨allocator.search_terminates, ?_, ?_, hunchanged, ?_⟩
  · intro ip
    rw [hresult]
    constructor
    · intro hfound
      refine ⟨h.candidate hrange hroom hfound, ?_⟩
      intro other hother
      exact (findNextAvailable_lowest hfound hother).2
    · rintro ⟨hcandidate, hlowest⟩
      obtain ⟨found, hfound⟩ := findNextAvailable_ok hcandidate.isAvailable
      obtain ⟨hfoundCandidate, hle⟩ := findNextAvailable_lowest hfound hcandidate
      have hge := hlowest found hfoundCandidate
      rw [hfound, IpNet.eq_of_toNat hcandidate.1 hfoundCandidate.1 (by omega)]
  · rw [hresult]
    constructor
    · rintro ⟨e, herror⟩ ip hcandidate
      obtain ⟨found, hfound⟩ := findNextAvailable_ok hcandidate.isAvailable
      rw [hfound] at herror
      cases herror
    · intro hnone
      cases hfound : allocator.findNextAvailable with
      | error e => exact ⟨e, rfl⟩
      | ok ip => exact absurd (h.candidate hrange hroom hfound) (hnone ip)
  · rw [hresult]
    intro hfound
    have habove := (h.candidate hrange hroom hfound).2.1
    omega

/-- Where no candidate is left, one of the two addresses below is given out. -/
theorem FirstFit.searchStaysAbove (hname : allocator.allocations.lookup serviceName = none)
    (h : allocator.FirstFit serviceName) : allocator.SearchStaysAbove := by
  by_cases hany : ∃ ip, allocator.Candidate ip
  · exact .inl hany
  have hnone : ∀ ip, ¬ allocator.Candidate ip := fun ip hip => hany ⟨ip, hip⟩
  obtain ⟨e, herror⟩ := h.exhausted.mpr hnone
  rw [(allocate_unheld hname).1] at herror
  have hfull : ∀ ip, allocator.isAvailable ip = false := by
    intro ip
    by_contra havailable
    obtain ⟨found, hfound⟩ := findNextAvailable_ok (Bool.not_eq_false _ ▸ havailable)
    rw [hfound] at herror
    cases herror
  exact .inr ⟨hfull _, hfull _⟩

end FirstFit

/-- In every state that calls lead to, a service without an address gets the lowest free
one from `.2` on, and an error exactly if there is none, if and only if there is one or
neither of the two addresses below is free. -/
theorem firstFit_iff (subnet : IpNet) (hrange : subnet.IsRange) (hroom : subnet.HasRoom)
    (requests : List Request) (serviceName : String)
    (hname : (after perform (new subnet) requests).allocations.lookup serviceName = none) :
    (after perform (new subnet) requests).FirstFit serviceName ↔
      (after perform (new subnet) requests).SearchStaysAbove := by
  have hsubnet := subnet_after (new subnet) requests
  constructor
  · exact FirstFit.searchStaysAbove hname
  · intro habove
    refine habove.firstFit ?_ ?_ hname
    · rw [hsubnet]
      exact hrange
    · rw [hsubnet]
      exact hroom

/-- The subnet `10.42.0.0/30`. -/
def fourAddresses : IpNet :=
  .v4 ⟨0x0A2A0000, fun ip => 0x0A2A0000 ≤ ip && ip ≤ 0x0A2A0003⟩

/-- The example is a range. -/
theorem isRange_fourAddresses : fourAddresses.IsRange :=
  ⟨0x0A2A0003, fun ip => by simp [Bool.and_eq_true]⟩

/-- The example has room. -/
theorem hasRoom_fourAddresses : fourAddresses.HasRoom := by
  show 0x0A2A0000 + 2 < 2 ^ 32
  omega

/-- An address is taken and given back, and `10.42.0.3` is taken. -/
def someCalls : List Request :=
  [.allocateSpecific "web" (.v4 0x0A2A0002), .allocateSpecific "db" (.v4 0x0A2A0003),
    .release "web"]

/-- After these calls the next service gets `10.42.0.2`. -/
theorem first_service_firstFit :
    (after perform (new fourAddresses) someCalls).FirstFit "cache" := by
  refine (firstFit_iff fourAddresses isRange_fourAddresses hasRoom_fourAddresses someCalls "cache"
    (by decide)).mpr (.inl ⟨.v4 0x0A2A0002, ?_, ?_, ?_⟩)
  · rfl
  · show 0x0A2A0000 + 2 ≤ 0x0A2A0002
    omega
  · decide

/-- With `10.42.0.2` and `10.42.0.3` taken, the third service gets `10.42.0.0`. -/
theorem third_service_not_firstFit :
    ¬ ∀ (subnet : IpNet), subnet.IsRange → subnet.HasRoom →
      ∀ (requests : List Request) (serviceName : String),
        (after perform (new subnet) requests).allocations.lookup serviceName = none →
        (after perform (new subnet) requests).FirstFit serviceName := by
  intro h
  have hfits := h fourAddresses isRange_fourAddresses hasRoom_fourAddresses
    [.allocateSpecific "web" (.v4 0x0A2A0002), .allocateSpecific "db" (.v4 0x0A2A0003)]
    "cache" (by decide)
  rcases FirstFit.searchStaysAbove (by decide) hfits with ⟨ip, hcontains, hthird, hfree⟩ | hbelow
  · -- the two addresses from the third one on are taken
    cases ip with
    | v6 ip => cases hcontains
    | v4 ip =>
      have hin : fourAddresses.contains (.v4 ip) = true := hcontains
      have hrange : ip ≤ 0x0A2A0003 := by simpa [fourAddresses, IpNet.contains] using
        (Bool.and_eq_true_iff.mp hin).2
      have hle : ip.toNat ≤ 0x0A2A0003 := hrange
      have hge : 0x0A2A0000 + 2 ≤ ip.toNat := hthird
      by_cases hsecond : ip.toNat = 0x0A2A0002
      · obtain rfl : ip = 0x0A2A0002 := BitVec.eq_of_toNat_eq hsecond
        exact hfree (by decide)
      · obtain rfl : ip = 0x0A2A0003 := BitVec.eq_of_toNat_eq (by
          show ip.toNat = 0x0A2A0003
          omega)
        exact hfree (by decide)
  · exact absurd hbelow.1 (by decide)

end IpAllocator

end GraphHarness.ServiceRegistry
