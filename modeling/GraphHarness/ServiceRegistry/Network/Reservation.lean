import GraphHarness.ServiceRegistry.Network.Allocation

/-!
# What stays reserved

`allocate_specific` does not give back the address a service had before, and takes a
service that is called `"gateway"` for the owner of the gateway's address.

> `gateway_reserved_iff` — the gateway's address stays reserved **unless a service
> `"gateway"` asks for it**.

> `no_leak_iff` — an address has an owner exactly as long as a service holds it, **unless
> a service is given an address on top of the one it has, or the gateway's**.

The two conditions are about each call in the state in which it is made. The first one is
exact because a gateway that is not reserved any more can never be again; the second one
because releasing every service at the end shows what has no holder left
(`lookup_releaseAll`). `web_leaks` is a service that asks for a second address.
-/

namespace GraphHarness.ServiceRegistry.IpAllocator

open Trace

/-! ## The gateway -/

/-- The address `.1` is taken, no service holds it, and it is reported as the gateway. -/
structure GatewayReserved (allocator : IpAllocator) : Prop where
  taken : allocator.subnet.gatewayIp ∈ allocator.allocatedIps
  notHeld : ∀ serviceName,
    allocator.allocations.lookup serviceName ≠ some allocator.subnet.gatewayIp
  owner : allocator.getServiceByIp allocator.subnet.gatewayIp = some "gateway"

/-- The call is not that of a service `"gateway"` for the gateway's address, or the subnet
does not have that address. -/
def SparesGateway (allocator : IpAllocator) (request : Request) : Prop :=
  allocator.subnet.contains allocator.subnet.gatewayIp = true →
    request ≠ .allocateSpecific "gateway" allocator.subnet.gatewayIp

/-- A new allocator has the gateway reserved. -/
theorem gatewayReserved_new (subnet : IpNet) : (new subnet).GatewayReserved := by
  refine ⟨Finset.mem_insert_self .., ?_, ?_⟩
  · intro serviceName hheld
    rw [lookup_new] at hheld
    cases hheld
  · show (new subnet).ipToService.lookup subnet.gatewayIp = _
    rw [service_new, if_pos rfl]

namespace GatewayReserved

variable {allocator : IpAllocator} (h : allocator.GatewayReserved)
include h

/-- Only its owner by name is given the gateway's address. -/
theorem granted {request : Request}
    (hgrants : allocator.Grants request allocator.subnet.gatewayIp) :
    request = .allocateSpecific "gateway" allocator.subnet.gatewayIp := by
  cases request with
  | allocate serviceName => exact absurd h.taken hgrants.2.2
  | allocateSpecific serviceName ip =>
    obtain ⟨_, rfl, hown⟩ := hgrants
    obtain rfl : "gateway" = serviceName := hown h.taken "gateway" h.owner
    rfl
  | release serviceName => exact hgrants.2.elim

/-- The gateway is granted to a service of its name. -/
theorem grants_gateway (hcontains : allocator.subnet.contains allocator.subnet.gatewayIp = true) :
    allocator.Grants (.allocateSpecific "gateway" allocator.subnet.gatewayIp)
      allocator.subnet.gatewayIp := by
  refine ⟨hcontains, rfl, ?_⟩
  intro _ existing hexisting
  rw [show allocator.ipToService.lookup allocator.subnet.gatewayIp = _ from h.owner,
    Option.mem_some_iff] at hexisting
  exact hexisting.symm

/-- A call that spares the gateway keeps it reserved. -/
theorem perform {request : Request} (hspares : allocator.SparesGateway request) :
    (allocator.perform request).1.GatewayReserved := by
  rcases allocator.perform_cases request with hsame | ⟨ip, hgrants, hnext⟩ | ⟨ip, hheld, hnext⟩
  · rw [hsame]
    exact h
  · have hne : allocator.subnet.gatewayIp ≠ ip := by
      rintro rfl
      exact hspares hgrants.1 (h.granted hgrants)
    rw [hnext]
    refine ⟨Finset.mem_insert_of_mem h.taken, ?_, ?_⟩
    · intro serviceName hheld
      rw [lookup_record] at hheld
      split at hheld
      next => exact hne (Option.some.inj hheld).symm
      next => exact h.notHeld serviceName hheld
    · show (allocator.record request.serviceName ip).ipToService.lookup _ = _
      rw [service_record]
      exact (if_neg hne).trans h.owner
  · have hne : allocator.subnet.gatewayIp ≠ ip := by
      rintro rfl
      exact h.notHeld request.serviceName hheld
    rw [hnext]
    refine ⟨Finset.mem_erase.mpr ⟨hne, h.taken⟩, ?_, ?_⟩
    · intro serviceName hheld
      rw [lookup_forget] at hheld
      split at hheld
      next => cases hheld
      next => exact h.notHeld serviceName hheld
    · show (allocator.forget request.serviceName ip).ipToService.lookup _ = _
      rw [service_forget]
      exact (if_neg hne).trans h.owner

/-- A service that is called like the owner gets the address. -/
theorem spares_of_perform {request : Request}
    (hafter : (allocator.perform request).1.GatewayReserved) :
    allocator.SparesGateway request := by
  rintro hcontains rfl
  rcases allocator.allocateSpecific_cases "gateway" allocator.subnet.gatewayIp with
    ⟨_, hcall⟩ | ⟨hrefused, _⟩
  · rw [IpAllocator.perform, hcall] at hafter
    exact hafter.notHeld "gateway" (AList.lookup_insert ..)
  · exact hrefused (h.grants_gateway hcontains)

end GatewayReserved

/-- In a run of calls the gateway's address stays reserved exactly if no service
`"gateway"` asks for it, or the subnet does not contain it. -/
theorem gateway_reserved_iff (subnet : IpNet) (requests : List Request) :
    (∀ earlier later, requests = earlier ++ later →
      (after perform (new subnet) earlier).GatewayReserved) ↔
    (subnet.contains subnet.gatewayIp = true →
      Request.allocateSpecific "gateway" subnet.gatewayIp ∉ requests) := by
  rw [throughout_iff (C := SparesGateway) GatewayReserved (fun _ h => h)
    (fun _ _ h hspares => h.perform hspares) (fun _ _ h hafter => h.spares_of_perform hafter)
    requests (gatewayReserved_new subnet)]
  constructor
  · intro h hcontains hmem
    obtain ⟨earlier, later, rfl⟩ := List.append_of_mem hmem
    have hspares := h earlier _ later rfl
    rw [SparesGateway, subnet_after] at hspares
    exact hspares hcontains rfl
  · intro h earlier request later hrequests
    rw [SparesGateway, subnet_after]
    rintro hcontains rfl
    apply h hcontains
    rw [hrequests]
    exact List.mem_append_right _ (List.mem_cons_self ..)

/-- The subnet `10.42.0.0/16`. -/
def testSubnet : IpNet := .v4 ⟨0x0A2A0000, fun ip => ip >>> 16 == 0x0A2A⟩

/-- The service `"gateway"` asks for `10.42.0.1`, and has it. -/
theorem gateway_not_reserved :
    ¬ ∀ (subnet : IpNet) (requests : List Request),
      (after perform (new subnet) requests).GatewayReserved := by
  intro h
  have hreserved := h testSubnet [.allocateSpecific "gateway" testSubnet.gatewayIp]
  exact hreserved.notHeld "gateway" (by decide)

/-! ## Every other address -/

/-- Apart from the reservation of the gateway, the reverse map is the inverse of the
allocations, and its keys are the set. When all services have given back what they hold,
the gateway's address is the only one left and every other one can be allocated. -/
structure NoLeak (allocator : IpAllocator) : Prop where
  keys : ∀ ip, ip ∈ allocator.allocatedIps ↔ ip ∈ allocator.ipToService
  inverse : ∀ ip serviceName,
    (allocator.ipToService.lookup ip = some serviceName ∧
      ¬ (ip = allocator.subnet.gatewayIp ∧ serviceName = "gateway")) ↔
    allocator.allocations.lookup serviceName = some ip
  released : ∀ serviceNames : List String,
    (∀ serviceName, serviceName ∈ allocator.allocations → serviceName ∈ serviceNames) →
    let allocator' := after perform allocator (serviceNames.map .release)
    allocator'.allocatedCount = 1 ∧
      ∀ serviceName ip, allocator.subnet.contains ip = true → ip ≠ allocator.subnet.gatewayIp →
        (allocator'.allocateSpecific serviceName ip).2 = .ok ()

/-- A specific address that is granted is not the gateway's, and the service holds no
other one. -/
def KeepsAccount (allocator : IpAllocator) : Request → Prop
  | .allocateSpecific serviceName ip =>
    allocator.Grants (.allocateSpecific serviceName ip) ip →
      ip ≠ allocator.subnet.gatewayIp ∧
        ∀ held, allocator.allocations.lookup serviceName = some held → held = ip
  | _ => True

/-- `NoLeak` as far as one call sees it. -/
structure Balanced (allocator : IpAllocator) : Prop where
  sound : allocator.Sound
  reserved : allocator.GatewayReserved
  inverse : ∀ ip serviceName,
    (allocator.ipToService.lookup ip = some serviceName ∧
      ¬ (ip = allocator.subnet.gatewayIp ∧ serviceName = "gateway")) ↔
    allocator.allocations.lookup serviceName = some ip

/-- The books of a new allocator balance. -/
theorem balanced_new (subnet : IpNet) : (new subnet).Balanced := by
  refine ⟨sound_new subnet, gatewayReserved_new subnet, ?_⟩
  intro ip serviceName
  rw [lookup_new, service_new]
  show _ ∧ ¬ (ip = subnet.gatewayIp ∧ _) ↔ _
  split
  next hip => simp [hip, eq_comm]
  next => simp

namespace Balanced

variable {allocator : IpAllocator} (h : allocator.Balanced)
include h

/-- A grant keeps the books. -/
theorem record {request : Request} {ip : IpAddr} (hgrants : allocator.Grants request ip)
    (hgateway : ip ≠ allocator.subnet.gatewayIp)
    (honly : ∀ held, allocator.allocations.lookup request.serviceName = some held → held = ip)
    (ip' : IpAddr) (serviceName : String) :
    ((allocator.record request.serviceName ip).ipToService.lookup ip' = some serviceName ∧
      ¬ (ip' = allocator.subnet.gatewayIp ∧ serviceName = "gateway")) ↔
    (allocator.record request.serviceName ip).allocations.lookup serviceName = some ip' := by
  rw [service_record, lookup_record]
  by_cases hip : ip' = ip
  · subst hip
    rw [if_pos rfl]
    by_cases hname : serviceName = request.serviceName
    · simp [hname, hgateway]
    · have hfree := h.sound.granted_not_held hgrants hname
      simp [hname, hfree, Ne.symm hname]
  · rw [if_neg hip, h.inverse]
    by_cases hname : serviceName = request.serviceName
    · -- the service holds nothing but what it is given
      subst hname
      rw [if_pos rfl]
      constructor
      · intro hheld
        exact absurd (honly ip' hheld) hip
      · intro hsome
        exact absurd (Option.some.inj hsome).symm hip
    · rw [if_neg hname]

/-- A release keeps the books. -/
theorem forget {serviceName : String} {ip : IpAddr}
    (hheld : allocator.allocations.lookup serviceName = some ip) (ip' : IpAddr)
    (serviceName' : String) :
    ((allocator.forget serviceName ip).ipToService.lookup ip' = some serviceName' ∧
      ¬ (ip' = allocator.subnet.gatewayIp ∧ serviceName' = "gateway")) ↔
    (allocator.forget serviceName ip).allocations.lookup serviceName' = some ip' := by
  rw [service_forget, lookup_forget]
  by_cases hip : ip' = ip
  · subst hip
    rw [if_pos rfl]
    by_cases hname : serviceName' = serviceName
    · simp [hname]
    · have hother : allocator.allocations.lookup serviceName' ≠ some ip' :=
        fun hother => hname (h.sound.exclusive hother hheld)
      simp [hname, hother]
  · rw [if_neg hip, h.inverse]
    by_cases hname : serviceName' = serviceName
    · subst hname
      rw [if_pos rfl, hheld]
      simp [Ne.symm hip]
    · rw [if_neg hname]

/-- A call that keeps its account keeps the books. -/
theorem perform {request : Request} (hkeeps : allocator.KeepsAccount request) :
    (allocator.perform request).1.Balanced := by
  have hspares : allocator.SparesGateway request := by
    rintro hcontains rfl
    exact (hkeeps (h.reserved.grants_gateway hcontains)).1 rfl
  refine ⟨h.sound.perform request, h.reserved.perform hspares, ?_⟩
  intro ip' serviceName
  rw [subnet_perform]
  rcases allocator.perform_cases request with hsame | ⟨ip, hgrants, hnext⟩ | ⟨ip, hheld, hnext⟩
  · rw [hsame]
    exact h.inverse ip' serviceName
  · have hgateway : ip ≠ allocator.subnet.gatewayIp := by
      rintro rfl
      exact hspares hgrants.1 (h.reserved.granted hgrants)
    rw [hnext]
    refine h.record hgrants hgateway ?_ ip' serviceName
    intro held hheld
    cases request with
    | allocate name =>
      have hnone : allocator.allocations.lookup name = none := hgrants.2.1
      exact absurd (hnone.symm.trans hheld) (by simp)
    | allocateSpecific name ip'' =>
      obtain ⟨hcontains, rfl, hown⟩ := hgrants
      exact (hkeeps ⟨hcontains, rfl, hown⟩).2 held hheld
    | release name => exact hgrants.2.elim
  · rw [hnext]
    exact h.forget hheld ip' serviceName

/-- The address before is still mapped to the service, which holds another one. -/
theorem keeps_of_perform {request : Request} (hafter : (allocator.perform request).1.NoLeak) :
    allocator.KeepsAccount request := by
  cases request with
  | allocateSpecific serviceName ip =>
    intro hgrants
    have hinverse := hafter.inverse
    rcases allocator.allocateSpecific_cases serviceName ip with ⟨_, hcall⟩ | ⟨hrefused, _⟩
    · rw [IpAllocator.perform, hcall] at hinverse
      change ∀ ip' name, ((allocator.record serviceName ip).ipToService.lookup ip' = some name ∧
        ¬ (ip' = allocator.subnet.gatewayIp ∧ name = "gateway")) ↔
        (allocator.record serviceName ip).allocations.lookup name = some ip' at hinverse
      constructor
      · rintro rfl
        have hname : Request.allocateSpecific serviceName _ = _ := h.reserved.granted hgrants
        obtain rfl : serviceName = "gateway" := by simpa using hname
        exact ((hinverse _ _).mpr (AList.lookup_insert ..)).2 ⟨rfl, rfl⟩
      · intro held hheld
        by_contra hne
        obtain ⟨hback, hnotGateway⟩ := (h.inverse held serviceName).mpr hheld
        have hstill := (hinverse held serviceName).mp
          ⟨by rw [service_record, if_neg hne]; exact hback, hnotGateway⟩
        rw [lookup_record, if_pos rfl] at hstill
        exact hne (Option.some.inj hstill).symm
    · exact absurd hgrants hrefused
  | allocate serviceName => trivial
  | release serviceName => trivial

/-- A release keeps the account. -/
theorem release (serviceNames : List String) :
    (after IpAllocator.perform allocator (serviceNames.map .release)).Balanced := by
  induction serviceNames generalizing allocator with
  | nil => exact h
  | cons serviceName serviceNames ih =>
    have hkeeps : allocator.KeepsAccount (.release serviceName) := trivial
    exact ih (h.perform hkeeps)

/-- Where no service holds an address, only the gateway's is taken. -/
theorem only_gateway (hnone : ∀ serviceName, allocator.allocations.lookup serviceName = none) :
    allocator.allocatedIps = {allocator.subnet.gatewayIp} := by
  ext ip
  rw [Finset.mem_singleton]
  constructor
  · intro htaken
    obtain ⟨serviceName, howner⟩ := Option.isSome_iff_exists.mp ((h.sound.keys ip).mp htaken)
    by_contra hne
    have hheld := (h.inverse ip serviceName).mp ⟨howner, fun hboth => hne hboth.1⟩
    rw [hnone] at hheld
    cases hheld
  · rintro rfl
    exact h.reserved.taken

end Balanced

/-- A release takes the address of one service. -/
theorem lookup_release (allocator : IpAllocator) (serviceName other : String) :
    (allocator.perform (.release serviceName)).1.allocations.lookup other =
      if other = serviceName then none else allocator.allocations.lookup other := by
  rw [perform, release]
  cases hlookup : allocator.allocations.lookup serviceName with
  | some ip => exact lookup_forget allocator serviceName other ip
  | none =>
    show allocator.allocations.lookup other = _
    split
    next hname => rw [hname, hlookup]
    next => rfl

/-- Releases take the addresses of theirs. -/
theorem lookup_releaseAll : ∀ (serviceNames : List String) (allocator : IpAllocator)
    (other : String),
    (after perform allocator (serviceNames.map .release)).allocations.lookup other =
      if other ∈ serviceNames then none else allocator.allocations.lookup other := by
  intro serviceNames
  induction serviceNames with
  | nil =>
    intro allocator other
    rfl
  | cons serviceName serviceNames ih =>
    intro allocator other
    rw [List.map_cons, after, ih, lookup_release]
    by_cases hname : other = serviceName
    · simp [hname]
    · simp [hname]

/-- Where the books balance nothing is lost. -/
theorem noLeak {allocator : IpAllocator} (h : allocator.Balanced) : allocator.NoLeak := by
  refine ⟨?_, h.inverse, ?_⟩
  · intro ip
    rw [h.sound.keys, AList.lookup_isSome]
  · intro serviceNames hall
    dsimp only
    have hnone : ∀ serviceName, AList.lookup serviceName
        (after perform allocator (serviceNames.map .release)).allocations = none := by
      intro serviceName
      rw [lookup_releaseAll]
      split
      next => rfl
      next hnot => exact AList.lookup_eq_none.mpr fun hmem => hnot (hall serviceName hmem)
    have hsubnet := subnet_after allocator (serviceNames.map .release)
    have honly := (h.release serviceNames).only_gateway hnone
    rw [hsubnet] at honly
    refine ⟨by rw [allocatedCount, honly, Finset.card_singleton], ?_⟩
    intro serviceName ip hcontains hip
    unfold allocateSpecific
    rw [hsubnet, if_pos hcontains, honly, if_neg (by rwa [Finset.mem_singleton])]

/-- In a run of calls an address has an owner exactly as long as a service holds it, if
and only if every specific address that is granted is not the gateway's and goes to a
service that holds no other one. -/
theorem no_leak_iff (subnet : IpNet) (requests : List Request) :
    (∀ earlier later, requests = earlier ++ later →
      (after perform (new subnet) earlier).NoLeak) ↔
    ∀ earlier request later, requests = earlier ++ request :: later →
      (after perform (new subnet) earlier).KeepsAccount request :=
  throughout_iff Balanced (fun _ h => noLeak h) (fun _ _ h hkeeps => h.perform hkeeps)
    (fun _ _ h hafter => h.keeps_of_perform hafter) requests (balanced_new subnet)

/-- The service `"web"` moves from `10.42.0.2` to `10.42.0.3`. -/
theorem web_leaks :
    ¬ ∀ (subnet : IpNet) (requests : List Request),
      (after perform (new subnet) requests).NoLeak := by
  intro h
  have hleft := (h testSubnet [.allocateSpecific "web" (.v4 0x0A2A0002),
    .allocateSpecific "web" (.v4 0x0A2A0003)]).inverse (.v4 0x0A2A0002) "web"
  exact absurd (hleft.mp (by decide)) (by decide)

end GraphHarness.ServiceRegistry.IpAllocator
