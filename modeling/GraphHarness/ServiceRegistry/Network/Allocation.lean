import GraphHarness.ServiceRegistry.Network.IpAllocator
import GraphHarness.Trace.Simulation

/-!
# Who has which address

Every run of an allocator keeps `Sound`: the address a service holds is mapped back to
it, so that no other service can hold it.

> `allocation_exclusive` — no address has two holders, and no call for one service
> changes what another one holds.

What a call can do is said once, in `perform_cases`.

`perform_cases` has two cases, granting and releasing, besides doing nothing; `Sound` is kept
in each of them. That an address is inside the subnet is part of what a grant says (`Grants`),
for both ways to get one. Which address it is does not matter here, and is the subject of
`FirstFit.lean`.
-/

namespace GraphHarness.ServiceRegistry.IpAllocator

open Trace

/-- A call of one of the three methods. -/
inductive Request where
  | allocate (serviceName : String)
  | allocateSpecific (serviceName : String) (ip : IpAddr)
  | release (serviceName : String)

/-- The service a call names. -/
def Request.serviceName : Request → String
  | .allocate serviceName => serviceName
  | .allocateSpecific serviceName _ => serviceName
  | .release serviceName => serviceName

/-- One call. -/
def perform (allocator : IpAllocator) :
    Request → IpAllocator × Except AllocationError (Option IpAddr)
  | .allocate serviceName => (allocator.allocate serviceName).map id (Except.map some)
  | .allocateSpecific serviceName ip =>
    (allocator.allocateSpecific serviceName ip).map id (Except.map fun _ => none)
  | .release serviceName => (allocator.release serviceName).map id .ok

/-! ## What a call can do -/

/-- The call gives the address to its service. -/
def Grants (allocator : IpAllocator) (request : Request) (ip : IpAddr) : Prop :=
  allocator.subnet.contains ip = true ∧
    match request with
    | .allocate serviceName =>
      allocator.allocations.lookup serviceName = none ∧ ip ∉ allocator.allocatedIps
    | .allocateSpecific serviceName ip' =>
      ip' = ip ∧ (ip ∈ allocator.allocatedIps →
        ∀ existing ∈ allocator.ipToService.lookup ip, existing = serviceName)
    | .release _ => False

/-- An allocation changes nothing, or grants an address. -/
theorem allocate_cases (allocator : IpAllocator) (serviceName : String) :
    (∃ result, allocator.allocate serviceName = (allocator, result)) ∨
    ∃ ip, allocator.Grants (.allocate serviceName) ip ∧
      allocator.allocate serviceName = (allocator.record serviceName ip, .ok ip) := by
  unfold allocate
  cases hlookup : allocator.allocations.lookup serviceName with
  | some ip => exact .inl ⟨_, rfl⟩
  | none =>
    rcases allocator.findNextAvailable_cases with ⟨ip, hfound, havailable⟩ | ⟨hnone, _⟩
    · rw [hfound]
      rw [isAvailable, Bool.and_eq_true, decide_eq_true_eq] at havailable
      exact .inr ⟨ip, ⟨havailable.1, hlookup, havailable.2⟩, rfl⟩
    · rw [hnone]
      exact .inl ⟨_, rfl⟩

/-- A request for an address changes nothing, or grants it. -/
theorem allocateSpecific_cases (allocator : IpAllocator) (serviceName : String) (ip : IpAddr) :
    (allocator.Grants (.allocateSpecific serviceName ip) ip ∧
      allocator.allocateSpecific serviceName ip = (allocator.record serviceName ip, .ok ())) ∨
    (¬ allocator.Grants (.allocateSpecific serviceName ip) ip ∧
      ∃ e, allocator.allocateSpecific serviceName ip = (allocator, .error e)) := by
  unfold allocateSpecific Grants
  by_cases hcontains : allocator.subnet.contains ip = true
  · rw [if_pos hcontains]
    by_cases htaken : ip ∈ allocator.allocatedIps
    · rw [if_pos htaken]
      cases hlookup : allocator.ipToService.lookup ip with
      | none => simp [hcontains]
      | some existing =>
        by_cases hsame : existing = serviceName
        · simp [hcontains, hsame]
        · simp [hcontains, htaken, hsame]
    · simp [hcontains, htaken]
  · rw [if_neg hcontains]
    exact .inr ⟨fun h => hcontains h.1, _, rfl⟩

/-- A call changes nothing, or gives an address to its service, or takes its address. -/
theorem perform_cases (allocator : IpAllocator) (request : Request) :
    (allocator.perform request).1 = allocator ∨
    (∃ ip, allocator.Grants request ip ∧
      (allocator.perform request).1 = allocator.record request.serviceName ip) ∨
    (∃ ip, allocator.allocations.lookup request.serviceName = some ip ∧
      (allocator.perform request).1 = allocator.forget request.serviceName ip) := by
  cases request with
  | allocate serviceName =>
    rcases allocator.allocate_cases serviceName with ⟨result, hcall⟩ | ⟨ip, hgrants, hcall⟩
    · exact .inl (by rw [perform, hcall]; rfl)
    · exact .inr (.inl ⟨ip, hgrants, by rw [perform, hcall]; rfl⟩)
  | allocateSpecific serviceName ip =>
    rcases allocator.allocateSpecific_cases serviceName ip with ⟨hgrants, hcall⟩ | ⟨_, e, hcall⟩
    · exact .inr (.inl ⟨ip, hgrants, by rw [perform, hcall]; rfl⟩)
    · exact .inl (by rw [perform, hcall]; rfl)
  | release serviceName =>
    cases hlookup : allocator.allocations.lookup serviceName with
    | some ip => exact .inr (.inr ⟨ip, hlookup, by rw [perform, release, hlookup]; rfl⟩)
    | none => exact .inl (by rw [perform, release, hlookup]; rfl)

/-- No call changes the subnet. -/
theorem subnet_perform (allocator : IpAllocator) (request : Request) :
    (allocator.perform request).1.subnet = allocator.subnet := by
  rcases allocator.perform_cases request with h | ⟨ip, _, h⟩ | ⟨ip, _, h⟩
  · rw [h]
  · rw [h]
    rfl
  · rw [h]
    rfl

/-- No calls do. -/
theorem subnet_after (allocator : IpAllocator) (requests : List Request) :
    (after perform allocator requests).subnet = allocator.subnet := by
  refine after_invariant (fun a : IpAllocator => a.subnet = allocator.subnet) ?_ rfl
  intro allocator' request h
  rw [subnet_perform, h]

/-- At first no service has an address. -/
theorem lookup_new (subnet : IpNet) (serviceName : String) :
    (new subnet).allocations.lookup serviceName = none := AList.lookup_empty serviceName

/-- At first the gateway has its address, and nobody any other. -/
theorem service_new (subnet : IpNet) (ip : IpAddr) : (new subnet).ipToService.lookup ip =
    if ip = subnet.gatewayIp then some "gateway" else none := by
  unfold new reserveGateway
  dsimp only
  split
  next h => rw [h, AList.lookup_insert]
  next h => rw [AList.lookup_insert_ne h, AList.lookup_empty]

section Lookup

variable (allocator : IpAllocator) (serviceName other : String) (ip ip' : IpAddr)

/-- A grant gives the service its address. -/
theorem lookup_record : (allocator.record serviceName ip).allocations.lookup other =
    if other = serviceName then some ip else allocator.allocations.lookup other := by
  split
  next h => rw [record, h, AList.lookup_insert]
  next h => rw [record, AList.lookup_insert_ne h]

/-- A grant gives the address its service. -/
theorem service_record : (allocator.record serviceName ip).ipToService.lookup ip' =
    if ip' = ip then some serviceName else allocator.ipToService.lookup ip' := by
  split
  next h => rw [record, h, AList.lookup_insert]
  next h => rw [record, AList.lookup_insert_ne h]

/-- A release takes the address from the service. -/
theorem lookup_forget : (allocator.forget serviceName ip).allocations.lookup other =
    if other = serviceName then none else allocator.allocations.lookup other := by
  split
  next h => rw [forget, h, AList.lookup_erase]
  next h => rw [forget, AList.lookup_erase_ne h]

/-- A release takes the service from the address. -/
theorem service_forget : (allocator.forget serviceName ip).ipToService.lookup ip' =
    if ip' = ip then none else allocator.ipToService.lookup ip' := by
  split
  next h => rw [forget, h, AList.lookup_erase]
  next h => rw [forget, AList.lookup_erase_ne h]

end Lookup

/-! ## Exclusive -/

/-- The set holds the keys of the reverse map, and what a service holds is in the subnet
and mapped back to it. -/
structure Sound (allocator : IpAllocator) : Prop where
  keys : ∀ ip, ip ∈ allocator.allocatedIps ↔ (allocator.ipToService.lookup ip).isSome = true
  held : ∀ serviceName ip, allocator.allocations.lookup serviceName = some ip →
    allocator.subnet.contains ip = true ∧ allocator.ipToService.lookup ip = some serviceName

namespace Sound

variable {allocator : IpAllocator} (h : allocator.Sound)
include h

/-- No address is held by two services. -/
theorem exclusive {serviceName other : String} {ip : IpAddr}
    (hself : allocator.allocations.lookup serviceName = some ip)
    (hother : allocator.allocations.lookup other = some ip) : serviceName = other := by
  have hback := (h.held serviceName ip hself).2
  rw [(h.held other ip hother).2] at hback
  exact (Option.some.inj hback).symm

/-- An address that is held is allocated. -/
theorem mem_allocatedIps {serviceName : String} {ip : IpAddr}
    (hheld : allocator.allocations.lookup serviceName = some ip) : ip ∈ allocator.allocatedIps := by
  rw [h.keys, (h.held serviceName ip hheld).2]
  rfl

/-- What a call can be given is free, or it is its service's own. -/
theorem granted {request : Request} {ip : IpAddr} (hgrants : allocator.Grants request ip) :
    allocator.ipToService.lookup ip = none ∨
      allocator.ipToService.lookup ip = some request.serviceName := by
  cases hlookup : allocator.ipToService.lookup ip with
  | none => exact .inl rfl
  | some existing =>
    have htaken : ip ∈ allocator.allocatedIps := by
      rw [h.keys, hlookup]
      rfl
    cases request with
    | allocate serviceName => exact absurd htaken hgrants.2.2
    | allocateSpecific serviceName ip' =>
      obtain rfl : existing = serviceName := hgrants.2.2 htaken existing hlookup
      exact .inr rfl
    | release serviceName => exact hgrants.2.elim

/-- Nobody else holds what a call is given. -/
theorem granted_not_held {request : Request} {ip : IpAddr} (hgrants : allocator.Grants request ip)
    {other : String} (hother : other ≠ request.serviceName) :
    allocator.allocations.lookup other ≠ some ip := by
  intro hheld
  have hback := (h.held other ip hheld).2
  rcases h.granted hgrants with hfree | hown
  · rw [hfree] at hback
    cases hback
  · rw [hown] at hback
    exact hother (Option.some.inj hback).symm

/-- A grant keeps that. -/
theorem record {request : Request} {ip : IpAddr} (hgrants : allocator.Grants request ip) :
    (allocator.record request.serviceName ip).Sound := by
  constructor
  · intro ip'
    rw [service_record]
    show ip' ∈ insert ip allocator.allocatedIps ↔ _
    rw [Finset.mem_insert]
    split
    next heq => simp [heq]
    next hne => simp [hne, h.keys]
  · intro serviceName ip' hheld
    rw [lookup_record] at hheld
    rw [service_record]
    show allocator.subnet.contains ip' = true ∧ _
    split at hheld
    next hname =>
      obtain rfl := Option.some.inj hheld
      exact ⟨hgrants.1, by rw [if_pos rfl, hname]⟩
    next hname =>
      -- the service holds another address, which is not touched
      have hne : ip' ≠ ip := by
        rintro rfl
        exact h.granted_not_held hgrants hname hheld
      rw [if_neg hne]
      exact h.held serviceName ip' hheld

/-- A release keeps that. -/
theorem forget {serviceName : String} {ip : IpAddr}
    (hheld : allocator.allocations.lookup serviceName = some ip) :
    (allocator.forget serviceName ip).Sound := by
  constructor
  · intro ip'
    rw [service_forget]
    show ip' ∈ allocator.allocatedIps.erase ip ↔ _
    rw [Finset.mem_erase]
    split
    next heq => simp [heq]
    next hne => simp [hne, h.keys]
  · intro other ip' hother
    rw [lookup_forget] at hother
    rw [service_forget]
    show allocator.subnet.contains ip' = true ∧ _
    split at hother
    next => cases hother
    next hname =>
      have hne : ip' ≠ ip := by
        rintro rfl
        exact hname (h.exclusive hother hheld)
      rw [if_neg hne]
      exact h.held other ip' hother

/-- Each call keeps that. -/
theorem perform (request : Request) : (allocator.perform request).1.Sound := by
  rcases allocator.perform_cases request with hsame | ⟨ip, hgrants, hnext⟩ | ⟨ip, hheld, hnext⟩
  · rw [hsame]
    exact h
  · rw [hnext]
    exact h.record hgrants
  · rw [hnext]
    exact h.forget hheld

end Sound

/-- A new allocator is sound. -/
theorem sound_new (subnet : IpNet) : (new subnet).Sound := by
  constructor
  · intro ip
    rw [service_new]
    show ip ∈ insert subnet.gatewayIp ∅ ↔ _
    rw [Finset.mem_insert]
    split
    next heq => simp [heq]
    next hne => simp [hne]
  · intro serviceName ip hheld
    rw [lookup_new] at hheld
    cases hheld

/-- So is one after any calls. -/
theorem sound_after (subnet : IpNet) (requests : List Request) :
    (after IpAllocator.perform (new subnet) requests).Sound :=
  after_invariant Sound (fun _ request h => h.perform request) (sound_new subnet)

/-- A call leaves alone what the other services hold. -/
theorem lookup_perform_ne (allocator : IpAllocator) {request : Request} {other : String}
    (hother : other ≠ request.serviceName) :
    (allocator.perform request).1.allocations.lookup other =
      allocator.allocations.lookup other := by
  rcases allocator.perform_cases request with h | ⟨ip, _, h⟩ | ⟨ip, _, h⟩
  · rw [h]
  · rw [h, lookup_record, if_neg hother]
  · rw [h, lookup_forget, if_neg hother]

/-- A service that holds an address is given it again. -/
theorem allocate_held {allocator : IpAllocator} {serviceName : String} {ip : IpAddr}
    (h : allocator.allocations.lookup serviceName = some ip) :
    allocator.allocate serviceName = (allocator, .ok ip) := by
  unfold allocate
  rw [h]

/-- A service that holds none is given the next one. -/
theorem allocate_unheld {allocator : IpAllocator} {serviceName : String}
    (hname : allocator.allocations.lookup serviceName = none) :
    (allocator.allocate serviceName).2 = allocator.findNextAvailable ∧
      ∀ e, (allocator.allocate serviceName).2 = .error e →
        (allocator.allocate serviceName).1 = allocator := by
  unfold allocate
  rw [hname]
  dsimp only
  cases allocator.findNextAvailable with
  | error e => exact ⟨rfl, fun _ _ => rfl⟩
  | ok ip =>
    refine ⟨rfl, ?_⟩
    intro e h
    cases h

/-- In every state that calls lead to, an address has one holder, is in the subnet, in the
set, and mapped back to its holder. A call changes what its own service holds only, and
nothing if that service holds an address and asks for one. -/
theorem allocation_exclusive (subnet : IpNet) (requests : List Request) :
    let allocator := after perform (new subnet) requests
    (∀ serviceName other ip, allocator.allocations.lookup serviceName = some ip →
      allocator.allocations.lookup other = some ip → serviceName = other) ∧
    (∀ serviceName ip, allocator.allocations.lookup serviceName = some ip →
      subnet.contains ip = true ∧ ip ∈ allocator.allocatedIps ∧
        allocator.ipToService.lookup ip = some serviceName) ∧
    (∀ request other, other ≠ request.serviceName →
      (allocator.perform request).1.allocations.lookup other =
        allocator.allocations.lookup other) ∧
    ∀ serviceName ip, allocator.allocations.lookup serviceName = some ip →
      allocator.allocate serviceName = (allocator, .ok ip) := by
  intro allocator
  have hsound : allocator.Sound := sound_after subnet requests
  have hsubnet : allocator.subnet = subnet := subnet_after (new subnet) requests
  refine ⟨?_, ?_, ?_, ?_⟩
  · intro serviceName other ip hself hother
    exact hsound.exclusive hself hother
  · intro serviceName ip hheld
    obtain ⟨hcontains, hback⟩ := hsound.held serviceName ip hheld
    exact ⟨hsubnet ▸ hcontains, hsound.mem_allocatedIps hheld, hback⟩
  · intro request other hother
    exact allocator.lookup_perform_ne hother
  · intro serviceName ip hheld
    exact allocate_held hheld

end GraphHarness.ServiceRegistry.IpAllocator
