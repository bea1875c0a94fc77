import GraphHarness.ServiceRegistry.Client
import GraphHarness.Trace.Parties

/-!
# The map of pending requests

`Linked` says what the map has to do with the calls. It holds in every run: a call that
has not been answered has its sender in the map, whether or not anybody is left to
answer it. Nobody clears the map when the handler ends, and a call that comes later puts
its sender in all the same.

> `pending_clean_iff` — the map is empty after the handler has ended, and never has an
> entry for a call that has returned, **exactly if the handler ends only when every call
> has been answered and no call is made afterwards**.

`Tidy` is the map after the end of the handler, `Orphaned` its opposite: an entry that nobody
will take out, since only the handler does. A run is tidy until the first step that is not
`Settled`, and orphaned from there on. `never_returns` is the other side for the caller: a
call whose request is not answered when the handler ends waits for ever, as its sender stays
in the map and is never dropped.
-/

namespace GraphHarness.ServiceRegistry

open Trace (run Always run_invariant run_preserves always_of_end getElem?_append_of_some
  some_of_getElem?_concat)

namespace Client

variable {ρ V : Type}

/-- The map of pending requests, the calls and their channels belong together. -/
structure Linked (s : Client ρ V) : Prop where
  ids : ∀ {i j : Nat} {call other : Call ρ V}, s.calls[i]? = some call →
    s.calls[j]? = some other → call.id = other.id → i = j
  entries : ∀ {id : String} {i : Nat}, s.pending.lookup id = some i →
    ∃ call, s.calls[i]? = some call ∧ call.id = id ∧ call.channel = none
  held : ∀ {i : Nat} {call : Call ρ V}, s.calls[i]? = some call → call.channel = none →
    call.phase.result = none → s.pending.lookup call.id = some i
  answered : ∀ {i n : Nat} {call : Call ρ V} {result : Except Error V},
    s.calls[i]? = some call → call.channel = some (n, result) →
    s.pending.lookup call.id = none ∧ ∃ data error,
      s.received[n]? = some (.response call.id data error) ∧ result = outcome data error
  delivered : ∀ {i : Nat} {call : Call ρ V} {result : Except Error V}, s.calls[i]? = some call →
    call.phase = .answered result → ∃ n, call.channel = some (n, result)
  ended : ∀ {i : Nat} {call : Call ρ V} {result : Except Error V}, s.calls[i]? = some call →
    call.phase.result = some result → call.channel = none → s.running = false

theorem linked_connect : (connect : Client ρ V).Linked := by
  constructor
  · intro i j call other hcall
    simp [connect] at hcall
  · intro id i h
    simp [connect] at h
  · intro i call hcall
    simp [connect] at hcall
  · intro i n call result hcall
    simp [connect] at hcall
  · intro i call result hcall
    simp [connect] at hcall
  · intro i call result hcall
    simp [connect] at hcall

namespace Linked

variable {s : Client ρ V} (hs : s.Linked)
include hs

theorem register {id : String} (hfresh : ∀ call ∈ s.calls, call.id ≠ id) (request : ρ) :
    Linked { s with
      calls := s.calls ++ [⟨id, request, .registered, none⟩]
      pending := s.pending.insert id s.calls.length } := by
  have hne : ∀ {i : Nat} {call : Call ρ V}, s.calls[i]? = some call → call.id ≠ id :=
    fun h => hfresh _ (List.mem_of_getElem? h)
  constructor
  · intro i j call other hcall hother hid
    rcases some_of_getElem?_concat hcall with hcall | ⟨hi, rfl⟩
    · rcases some_of_getElem?_concat hother with hother | ⟨hj, rfl⟩
      · exact hs.ids hcall hother hid
      · exact absurd hid (hne hcall)
    · rcases some_of_getElem?_concat hother with hother | ⟨hj, rfl⟩
      · exact absurd hid.symm (hne hother)
      · rw [hi, hj]
  · intro id' i hlookup
    by_cases hid : id' = id
    · subst hid
      rw [AList.lookup_insert] at hlookup
      obtain rfl := Option.some.inj hlookup
      exact ⟨_, List.getElem?_concat_length, rfl, rfl⟩
    · rw [AList.lookup_insert_ne hid] at hlookup
      obtain ⟨call, hcall, hcid, hchannel⟩ := hs.entries hlookup
      exact ⟨call, getElem?_append_of_some hcall _, hcid, hchannel⟩
  · intro i call hcall hchannel hphase
    rcases some_of_getElem?_concat hcall with hcall | ⟨rfl, rfl⟩
    · exact (AList.lookup_insert_ne (hne hcall)).trans (hs.held hcall hchannel hphase)
    · exact AList.lookup_insert _
  · intro i n call result hcall hchannel
    rcases some_of_getElem?_concat hcall with hcall | ⟨rfl, rfl⟩
    · obtain ⟨hnone, hreceived⟩ := hs.answered hcall hchannel
      exact ⟨(AList.lookup_insert_ne (hne hcall)).trans hnone, hreceived⟩
    · simp at hchannel
  · intro i call result hcall hphase
    rcases some_of_getElem?_concat hcall with hcall | ⟨rfl, rfl⟩
    · exact hs.delivered hcall hphase
    · simp at hphase
  · intro i call result hcall hphase hchannel
    rcases some_of_getElem?_concat hcall with hcall | ⟨rfl, rfl⟩
    · exact hs.ended hcall hphase hchannel
    · simp [Phase.result] at hphase

/-- A call moves on. If it returns, then with what it was sent, or the handler has
ended. -/
theorem setPhase {i : Nat} {call : Call ρ V} (hcall : s.calls[i]? = some call)
    (hopen : call.phase.result = none) (phase : Phase V)
    (hdelivered : ∀ result, phase = .answered result → ∃ n, call.channel = some (n, result))
    (hended : ∀ result, phase.result = some result → call.channel = none → s.running = false) :
    (s.setPhase i phase).Linked := by
  have hmoved : ∀ {j : Nat} {call' : Call ρ V}, (s.setPhase i phase).calls[j]? = some call' →
      ∃ before, s.calls[j]? = some before ∧ before.id = call'.id ∧
        before.channel = call'.channel ∧ (call'.phase = before.phase ∨
          before = call ∧ call'.phase = phase) := by
    intro j call' h
    obtain ⟨before, hbefore, rfl⟩ := call_setPhase h
    refine ⟨before, hbefore, ?_⟩
    split
    next hij =>
      subst hij
      obtain rfl := Option.some.inj (hcall.symm.trans hbefore)
      exact ⟨rfl, rfl, .inr ⟨rfl, rfl⟩⟩
    next => exact ⟨rfl, rfl, .inl rfl⟩
  constructor
  · intro j k call' other hcall' hother hid
    obtain ⟨before, hbefore, hbid, _⟩ := hmoved hcall'
    obtain ⟨before', hbefore', hbid', _⟩ := hmoved hother
    exact hs.ids hbefore hbefore' (hbid.trans (hid.trans hbid'.symm))
  · intro id j hlookup
    obtain ⟨before, hbefore, hid, hchannel⟩ := hs.entries hlookup
    refine ⟨if i = j then { before with phase := phase } else before, ?_, ?_, ?_⟩
    · simp [Client.setPhase, List.getElem?_modify, hbefore]
    · split
      next => exact hid
      next => exact hid
    · split
      next => exact hchannel
      next => exact hchannel
  · intro j call' hcall' hchannel hphase
    obtain ⟨before, hbefore, hid, hbchannel, hbphase⟩ := hmoved hcall'
    rw [← hid]
    refine hs.held hbefore (hbchannel.trans hchannel) ?_
    rcases hbphase with hsame | ⟨rfl, _⟩
    · rw [← hsame]
      exact hphase
    · exact hopen
  · intro j n call' result hcall' hchannel
    obtain ⟨before, hbefore, hid, hbchannel, _⟩ := hmoved hcall'
    rw [← hid]
    exact hs.answered hbefore (hbchannel.trans hchannel)
  · intro j call' result hcall' hphase
    obtain ⟨before, hbefore, hid, hbchannel, hbphase⟩ := hmoved hcall'
    rw [← hbchannel]
    rcases hbphase with hsame | ⟨rfl, hnew⟩
    · exact hs.delivered hbefore (hsame.symm.trans hphase)
    · exact hdelivered result (hnew.symm.trans hphase)
  · intro j call' result hcall' hphase hchannel
    obtain ⟨before, hbefore, hid, hbchannel, hbphase⟩ := hmoved hcall'
    rcases hbphase with hsame | ⟨rfl, hnew⟩
    · exact hs.ended hbefore (hsame ▸ hphase) (hbchannel.trans hchannel)
    · exact hended result (hnew ▸ hphase) (hbchannel.trans hchannel)

/-- A message that is for no call. -/
theorem pass (message : Heard V) : Linked { s with received := s.received ++ [message] } := by
  refine ⟨hs.ids, hs.entries, hs.held, ?_, hs.delivered, hs.ended⟩
  intro i n call result hcall hchannel
  obtain ⟨hnone, data, error, hreceived, hresult⟩ := hs.answered hcall hchannel
  exact ⟨hnone, data, error, getElem?_append_of_some hreceived _, hresult⟩

/-- A response for a call whose sender is in the map. -/
theorem answer {id : String} {i : Nat}
    (hlookup : s.pending.lookup id = some i) (data : Option V) (error : Option String) :
    Linked { s with
      received := s.received ++ [.response id data error]
      pending := s.pending.erase id
      calls := s.calls.modify i fun call =>
        { call with channel := some (s.received.length, outcome data error) } } := by
  obtain ⟨target, htarget, hid, hopen⟩ := hs.entries hlookup
  have hmoved : ∀ {j : Nat} {call' : Call ρ V}, (s.calls.modify i fun call =>
      { call with channel := some (s.received.length, outcome data error) })[j]? = some call' →
      (j = i ∧ call' = { target with channel := some (s.received.length, outcome data error) }) ∨
        (s.calls[j]? = some call' ∧ call'.id ≠ id) := by
    intro j call' h
    rw [List.getElem?_modify] at h
    obtain ⟨before, hbefore, rfl⟩ := Option.map_eq_some_iff.mp h
    split
    next hij =>
      subst hij
      obtain rfl := Option.some.inj (htarget.symm.trans hbefore)
      exact .inl ⟨rfl, rfl⟩
    next hij =>
      refine .inr ⟨hbefore, fun hsame => hij ?_⟩
      exact hs.ids htarget hbefore (hid.trans hsame.symm)
  constructor
  · intro j k call other hcall hother hsame
    rcases hmoved hcall with ⟨rfl, rfl⟩ | ⟨hcall, hne⟩
    · rcases hmoved hother with ⟨rfl, rfl⟩ | ⟨hother, hne⟩
      · rfl
      · exact absurd (hsame.symm.trans hid) hne
    · rcases hmoved hother with ⟨rfl, rfl⟩ | ⟨hother, hne'⟩
      · exact absurd (hsame.trans hid) hne
      · exact hs.ids hcall hother hsame
  · intro id' j h
    by_cases hsame : id' = id
    · subst hsame
      rw [AList.lookup_erase] at h
      cases h
    · rw [AList.lookup_erase_ne hsame] at h
      obtain ⟨call, hcall, hcid, hchannel⟩ := hs.entries h
      refine ⟨call, ?_, hcid, hchannel⟩
      have hij : i ≠ j := by
        rintro rfl
        obtain rfl := Option.some.inj (htarget.symm.trans hcall)
        exact hsame (hcid.symm.trans hid)
      simp [hij, hcall]
  · intro j call hcall hchannel hphase
    rcases hmoved hcall with ⟨rfl, rfl⟩ | ⟨hcall, hne⟩
    · simp at hchannel
    · exact (AList.lookup_erase_ne hne).trans (hs.held hcall hchannel hphase)
  · intro j n call result hcall hchannel
    rcases hmoved hcall with ⟨rfl, rfl⟩ | ⟨hcall, hne⟩
    · obtain ⟨rfl, rfl⟩ : s.received.length = n ∧ outcome data error = result := by
        simpa using hchannel
      refine ⟨?_, data, error, ?_, rfl⟩
      · show (s.pending.erase id).lookup target.id = none
        rw [hid]
        exact AList.lookup_erase _ _
      · show (s.received ++ [_])[s.received.length]? = some (.response target.id data error)
        rw [hid]
        exact List.getElem?_concat_length
    · obtain ⟨hnone, data', error', hreceived, hresult⟩ := hs.answered hcall hchannel
      exact ⟨(AList.lookup_erase_ne hne).trans hnone, data', error',
        getElem?_append_of_some hreceived _, hresult⟩
  · intro j call result hcall hphase
    rcases hmoved hcall with ⟨rfl, rfl⟩ | ⟨hcall, _⟩
    · -- a call that was answered before has no sender in the map
      obtain ⟨n, hchannel⟩ := hs.delivered htarget hphase
      rw [hopen] at hchannel
      cases hchannel
    · exact hs.delivered hcall hphase
  · intro j call result hcall hphase hchannel
    rcases hmoved hcall with ⟨rfl, rfl⟩ | ⟨hcall, _⟩
    · simp at hchannel
    · exact hs.ended hcall hphase hchannel

theorem hear (message : Heard V) :
    (s.handleMessage message).Linked := by
  unfold handleMessage
  cases message with
  | response id data error =>
    dsimp only
    split
    next i hlookup => exact hs.answer hlookup data error
    next => exact hs.pass _
  | event => exact hs.pass _
  | request => exact hs.pass _
  | unreadable => exact hs.pass _
  | frame => exact hs.pass _

/-- A call that waits has its sender in the map, or has been answered. -/
theorem not_cancelled {i : Nat} {call : Call ρ V} (hcall : s.calls[i]? = some call)
    (hphase : call.phase = .waiting) (hchannel : call.channel = none) :
    s.pending.lookup call.id = some i :=
  hs.held hcall hchannel (by rw [hphase]; rfl)

end Linked

/-- One step keeps the map of pending calls linked with the calls. -/
theorem linked_step {s t : Client ρ V} {event : ClientEvent ρ V} (hs : s.Linked)
    (h : s.step event = some t) : t.Linked := by
  cases taken_of_step h with
  | register hfresh => exact hs.register hfresh _
  | enqueue hcall hphase =>
    have hmoved := hs.setPhase hcall (by rw [hphase]; rfl) .waiting (by simp)
      (by simp [Phase.result])
    exact ⟨hmoved.ids, hmoved.entries, hmoved.held, hmoved.answered, hmoved.delivered,
      hmoved.ended⟩
  | refuse hcall hphase hrunning =>
    exact hs.setPhase hcall (by rw [hphase]; rfl) .refused (by simp) (fun _ _ _ => hrunning)
  | complete hcall hphase hchannel =>
    refine hs.setPhase hcall (by rw [hphase]; rfl) _ ?_ (by simp [hchannel])
    intro result' hresult
    obtain rfl := Phase.answered.inj hresult
    exact ⟨_, hchannel⟩
  | cancel hcall hphase hchannel hgone =>
    exact absurd (hs.not_cancelled hcall hphase hchannel) hgone
  | abandon hcall hphase =>
    exact hs.setPhase hcall (by rw [hphase]; rfl) .abandoned (by simp) (by simp [Phase.result])
  | close => exact ⟨hs.ids, hs.entries, hs.held, hs.answered, hs.delivered, hs.ended⟩
  | closeLate => exact hs
  | dropHandles => exact ⟨hs.ids, hs.entries, hs.held, hs.answered, hs.delivered, hs.ended⟩
  | transmit => exact ⟨hs.ids, hs.entries, hs.held, hs.answered, hs.delivered, hs.ended⟩
  | hear => exact hs.hear _
  | exit =>
    exact ⟨hs.ids, hs.entries, hs.held, hs.answered, hs.delivered, fun _ _ _ => rfl⟩

/-! ## An empty map -/

/-- There is nothing in the map once the handler has ended, nor for a call that has
returned. -/
structure Clean (s : Client ρ V) : Prop where
  ended : s.running = false → ∀ id, id ∉ s.pending
  returned : ∀ call ∈ s.calls, call.phase.result.isSome = true → call.id ∉ s.pending

/-- If the handler ends, every call has been answered, and if a call is made, the handler
runs. -/
def Settled (s : Client ρ V) : ClientEvent ρ V → Prop
  | .exit _ => ∀ call ∈ s.calls, call.channel ≠ none
  | .register _ _ => s.running = true
  | _ => True

/-- A sender is left in the map for good. -/
structure Orphaned (s : Client ρ V) : Prop where
  linked : s.Linked
  ended : s.running = false
  left : ∃ id, id ∈ s.pending

variable {s t : Client ρ V} {event : ClientEvent ρ V}

theorem mem_of_lookup {pending : HashMap String Nat} {id : String} {i : Nat}
    (h : pending.lookup id = some i) : id ∈ pending :=
  AList.lookup_isSome.mp (by rw [h]; rfl)

theorem orphaned_of_not_settled (hs : s.Linked) (hsettled : ¬ s.Settled event)
    (h : s.step event = some t) : t.Orphaned := by
  have ht := linked_step hs h
  cases taken_of_step h with
  | register hfresh =>
    refine ⟨ht, Bool.eq_false_iff.mpr hsettled, _, mem_of_lookup (AList.lookup_insert _)⟩
  | exit hrunning =>
    refine ⟨ht, rfl, ?_⟩
    obtain ⟨call, hmem, hchannel⟩ : ∃ call ∈ s.calls, call.channel = none := by
      by_contra hall
      exact hsettled fun call hmem hchannel => hall ⟨call, hmem, hchannel⟩
    obtain ⟨i, hcall⟩ := List.mem_iff_getElem?.mp hmem
    have hopen : call.phase.result = none := by
      cases hresult : call.phase.result with
      | none => rfl
      | some result =>
        have hended := hs.ended hcall hresult hchannel
        rw [hrunning] at hended
        cases hended
    exact ⟨call.id, mem_of_lookup (hs.held hcall hchannel hopen)⟩
  | _ => exact absurd trivial hsettled

theorem orphaned_step (hs : s.Orphaned) (h : s.step event = some t) : t.Orphaned := by
  have ht := linked_step hs.linked h
  have hstopped : s.running ≠ true := by rw [hs.ended]; simp
  obtain ⟨id, hid⟩ := hs.left
  cases taken_of_step h with
  | register hfresh => exact ⟨ht, hs.ended, id, AList.mem_insert _ |>.mpr (.inr hid)⟩
  | enqueue hcall hphase hrunning => exact absurd hrunning hstopped
  | cancel hcall hphase hchannel hgone =>
    exact absurd (hs.linked.not_cancelled hcall hphase hchannel) hgone
  | close hrunning => exact absurd hrunning hstopped
  | hear hrunning => exact absurd hrunning hstopped
  | exit hrunning => exact absurd hrunning hstopped
  | _ => exact ⟨ht, hs.ended, id, hid⟩

/-- What holds as long as every step is settled. -/
def Tidy (s : Client ρ V) : Prop := s.Linked ∧ (s.running = false → ∀ id, id ∉ s.pending)

/-- A step that settles keeps the map tidy. -/
theorem tidy_step (hs : s.Tidy) (hsettled : s.Settled event) (h : s.step event = some t) :
    t.Tidy := by
  refine ⟨linked_step hs.1 h, ?_⟩
  cases taken_of_step h with
  | register hfresh =>
    intro hended
    rw [show s.running = true from hsettled] at hended
    cases hended
  | cancel hcall hphase hchannel hgone =>
    exact absurd (hs.1.not_cancelled hcall hphase hchannel) hgone
  | hear hrunning =>
    intro hended
    obtain ⟨calls, pending, hmessage, _⟩ := s.handleMessage_eq _
    rw [hmessage] at hended
    exact absurd hended (by simp [hrunning])
  | exit hrunning =>
    intro _ id hmem
    obtain ⟨i, hlookup⟩ := Option.isSome_iff_exists.mp (AList.lookup_isSome.mpr hmem)
    obtain ⟨call, hcall, _, hchannel⟩ := hs.1.entries hlookup
    exact hsettled call (List.mem_of_getElem? hcall) hchannel
  | _ => exact hs.2

theorem clean_of_tidy (hs : s.Tidy) : s.Clean := by
  refine ⟨hs.2, ?_⟩
  intro call hmem hreturned
  obtain ⟨i, hcall⟩ := List.mem_iff_getElem?.mp hmem
  obtain ⟨result, hresult⟩ := Option.isSome_iff_exists.mp hreturned
  cases hchannel : call.channel with
  | none => exact hs.2 (hs.1.ended hcall hresult hchannel) call.id
  | some sent =>
    obtain ⟨n, value⟩ := sent
    exact AList.lookup_eq_none.mp (hs.1.answered hcall hchannel).1

/-- A call that nobody is left to answer. -/
structure Stranded (s : Client ρ V) (i : Nat) : Prop where
  linked : s.Linked
  ended : s.running = false
  call : ∃ call, s.calls[i]? = some call ∧ call.channel = none ∧ call.phase.result = none ∧
    call.phase ≠ .registered

/-- It does not return. -/
theorem stranded_step {i : Nat} (hs : s.Stranded i) (h : s.step event = some t) :
    t.Stranded i := by
  have ht := linked_step hs.linked h
  have hstopped : s.running ≠ true := by rw [hs.ended]; simp
  obtain ⟨call, hcall, hchannel, hopen, hsent⟩ := hs.call
  -- a step of another call, or this one is dropped
  have hmove : ∀ {j : Nat} {other : Call ρ V} {phase : Phase V}, s.calls[j]? = some other →
      (i = j → phase.result = none ∧ phase ≠ .registered) →
      ∃ call, (s.setPhase j phase).calls[i]? = some call ∧ call.channel = none ∧
        call.phase.result = none ∧ call.phase ≠ .registered := by
    intro j other phase hother hphase
    refine ⟨if j = i then { call with phase := phase } else call, ?_, ?_⟩
    · simp [setPhase, List.getElem?_modify, hcall]
    · split
      next hij => exact ⟨hchannel, hphase hij.symm⟩
      next => exact ⟨hchannel, hopen, hsent⟩
  cases taken_of_step h with
  | register hfresh =>
    exact ⟨ht, hs.ended, call, getElem?_append_of_some hcall _, hchannel, hopen, hsent⟩
  | enqueue hother hphase hrunning => exact absurd hrunning hstopped
  | refuse hother hphase =>
    refine ⟨ht, hs.ended, hmove hother ?_⟩
    rintro rfl
    obtain rfl := Option.some.inj (hcall.symm.trans hother)
    exact absurd hphase hsent
  | complete hother hphase hsome =>
    refine ⟨ht, hs.ended, hmove hother ?_⟩
    rintro rfl
    obtain rfl := Option.some.inj (hcall.symm.trans hother)
    rw [hchannel] at hsome
    cases hsome
  | cancel hother hphase hnone hgone =>
    exact absurd (hs.linked.not_cancelled hother hphase hnone) hgone
  | abandon hother hphase =>
    exact ⟨ht, hs.ended, hmove hother fun _ => ⟨rfl, by simp⟩⟩
  | close hrunning => exact absurd hrunning hstopped
  | hear hrunning => exact absurd hrunning hstopped
  | exit hrunning => exact absurd hrunning hstopped
  | _ => exact ⟨ht, hs.ended, call, hcall, hchannel, hopen, hsent⟩

/-- A call whose message was sent, and that is not answered before the handler ends,
waits as long as anybody does. -/
theorem never_returns {i : Nat} {events : List (ClientEvent ρ V)} (hs : s.Stranded i)
    (hrun : run step s events = some t) :
    ∃ call, t.calls[i]? = some call ∧ call.phase.result = none := by
  have ht : t.Stranded i := run_preserves (fun _ _ _ hs h => stranded_step hs h) hs hrun
  obtain ⟨call, hcall, _, hopen, _⟩ := ht.call
  exact ⟨call, hcall, hopen⟩

/-- In every run: once the handler has ended, for whatever reason, a call that waits can
still return exactly if a response had been handed to it before. Of the others none returns,
neither with a result nor with an error. -/
theorem returns_iff {events : List (ClientEvent ρ V)} (hrun : run step connect events = some s)
    (hended : s.running = false) {i : Nat} {call : Call ρ V} (hcall : s.calls[i]? = some call)
    (hwaits : call.phase = .waiting) :
    (∃ later t call', run step s later = some t ∧ t.calls[i]? = some call' ∧
      call'.phase.result ≠ none) ↔ call.channel ≠ none := by
  constructor
  · rintro ⟨later, t, call', hlater, hcall', hreturned⟩ hunanswered
    have hlinked : s.Linked := run_preserves (fun _ _ _ hs h => linked_step hs h) linked_connect hrun
    have hstranded : s.Stranded i :=
      ⟨hlinked, hended, call, hcall, hunanswered, by rw [hwaits]; rfl, by rw [hwaits]; simp⟩
    obtain ⟨still, hstill, hopen⟩ := never_returns hstranded hlater
    obtain rfl := Option.some.inj (hcall'.symm.trans hstill)
    exact hreturned hopen
  · intro hanswered
    obtain ⟨⟨n, result⟩, hchannel⟩ := Option.ne_none_iff_exists'.mp hanswered
    have hstep : s.step (.complete i) = some (s.setPhase i (.answered result)) := by
      obtain ⟨id, request, phase, channel⟩ := call
      obtain rfl : phase = .waiting := hwaits
      obtain rfl : channel = some (n, result) := hchannel
      unfold step
      dsimp only
      rw [hcall]
    refine ⟨[.complete i], s.setPhase i (.answered result), { call with phase := .answered result },
      ?_, ?_, ?_⟩
    · rw [Trace.run_of_step hstep]
      rfl
    · simp [setPhase, hcall]
    · simp [Phase.result]

/-- Two calls, of which one has had its response when the server goes. -/
def halfAnswered : List (ClientEvent Unit Unit) :=
  [.register "1" (), .register "2" (), .enqueue 0, .enqueue 1, .transmit, .transmit,
    .hear (.response "2" (some ()) none), .exit .serverClosed]

theorem returns_iff_halfAnswered : ∃ s, run step connect halfAnswered = some s ∧
    (¬ ∃ later t call', run step s later = some t ∧ t.calls[0]? = some call' ∧
      call'.phase.result ≠ none) ∧
    ∃ later t call', run step s later = some t ∧ t.calls[1]? = some call' ∧
      call'.phase.result ≠ none := by
  obtain ⟨s, hrun⟩ : ∃ s, run step connect halfAnswered = some s := ⟨_, rfl⟩
  have hstate := Option.some.inj hrun
  refine ⟨s, hrun, ?_, ?_⟩
  · intro hreturns
    subst hstate
    exact absurd ((returns_iff hrun rfl (i := 0) rfl rfl).mp hreturns) (by simp)
  · subst hstate
    exact (returns_iff hrun rfl (i := 1) rfl rfl).mpr (by simp)

/-- For any number of calls and any interleaving, over every reason the handler ends for:
at the end of a run the map of pending requests is clean exactly if the handler has not
ended before every call had been answered, and no call was made after it. -/
theorem pending_clean_iff (events : List (ClientEvent ρ V)) (t : Client ρ V)
    (hrun : run step connect events = some t) :
    t.Clean ↔ Always step Settled connect events := by
  constructor
  · intro hclean
    have hend : ¬ t.Orphaned := by
      intro horphaned
      obtain ⟨id, hid⟩ := horphaned.left
      exact hclean.ended horphaned.ended id hid
    exact always_of_end (fun _ _ _ hs h => linked_step hs h)
      (fun _ _ _ hs hsettled h => orphaned_of_not_settled hs hsettled h)
      (fun _ _ _ hs h => orphaned_step hs h) linked_connect hrun hend
  · intro hsettled
    have hstart : (connect : Client ρ V).Tidy := ⟨linked_connect, by simp [connect]⟩
    refine clean_of_tidy ?_
    exact run_invariant (fun _ _ _ hs hC h => tidy_step hs hC h) hstart hsettled hrun

/-- The server closes the connection while a call waits. -/
def serverGone : List (ClientEvent Unit Unit) :=
  [.register "1" (), .enqueue 0, .transmit, .exit .serverClosed]

theorem serverGone_not_clean : ¬ ∀ (events : List (ClientEvent Unit Unit))
    (t : Client Unit Unit), run step connect events = some t → t.Clean := by
  intro h
  obtain ⟨t, hrun⟩ : ∃ t, run step connect serverGone = some t := ⟨_, rfl⟩
  have hclean := h serverGone t hrun
  obtain rfl := Option.some.inj hrun
  exact absurd (by decide) (hclean.ended rfl "1")

theorem pending_clean_iff_serverGone : ∃ t, run step connect serverGone = some t ∧
    (t.Clean ↔ Always step Settled connect serverGone) :=
  ⟨_, rfl, pending_clean_iff serverGone _ rfl⟩

end Client

end GraphHarness.ServiceRegistry
