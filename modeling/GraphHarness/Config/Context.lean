import GraphHarness.Config.Resolver
import GraphHarness.Trace.Latest

/-!
# The resolution context over a run of calls (`resolver.rs`)

`set_env` and `add_service` in any order, from any context. The entries of a service
should be those of its last `add_service`; `add_service` without a port leaves the
port of an earlier call where it is.

> `lastWriteWins_iff`: the context is last-write-wins exactly if no service whose last
> call is without a port had one before.

One call is described by what it does to the three maps (`ip_apply`, `host_apply`,
`port_apply`): two of them are always written, and the map of the ports only where the call
has one. Over a run this gives the last address and host name, and the last port that any
call gave, which is an older one where the last call gave none.

The context owns its maps in the source too, so nothing else can write to them between two
calls. Addresses and host names are texts, and a port is a 16 bit number.
-/

namespace GraphHarness.Resolver

open Trace (latest latest_eq_none_iff latest_map latest_bind lookup_insert_eq_or read_foldl)

/-- A call of one of the two methods that change a context. -/
inductive Call where
  | setEnv (key value : String)
  | addService (name ip : String) (port : Option UInt16) (host : String)
  deriving DecidableEq

/-- What an `add_service` says of its service. -/
structure Added where
  ip : String
  port : Option UInt16
  host : String
  deriving DecidableEq

namespace Call

/-- `set_env` or `add_service`. -/
def apply (context : ResolutionContext) : Call → ResolutionContext
  | .setEnv key value => context.setEnv key value
  | .addService name ip port host => context.addService name ip port host

/-- What the call says of service `s`. -/
def adds (s : String) : Call → Option Added
  | .setEnv _ _ => none
  | .addService name ip port host => if name = s then some ⟨ip, port, host⟩ else none

/-- The call is a `set_env`. -/
def setsEnv : Call → Bool
  | .setEnv _ _ => true
  | .addService _ _ _ _ => false

end Call

namespace ResolutionContext

/-- The context after some calls. -/
def calls (context : ResolutionContext) (ops : List Call) : ResolutionContext :=
  ops.foldl Call.apply context

/-- What `resolve_string` finds for `${s.ip}`, `${s.port}` and `${s.host}`. -/
structure Entries where
  ip : Option String
  port : Option UInt16
  host : Option String
  deriving DecidableEq

/-- What the three maps have under the name of a service. -/
def entries (context : ResolutionContext) (s : String) : Entries where
  ip := context.serviceIps.lookup s
  port := context.servicePorts.lookup s
  host := context.serviceHosts.lookup s

/-! ## One call -/

variable (context : ResolutionContext) (s : String) (op : Call)

/-- The address that a call gives replaces the one before. -/
theorem ip_apply : (op.apply context).serviceIps.lookup s =
    ((op.adds s).map Added.ip).or (context.serviceIps.lookup s) := by
  cases op with
  | setEnv key value => rfl
  | addService name ip port host =>
    refine (lookup_insert_eq_or name s ip context.serviceIps).trans ?_
    by_cases h : name = s <;> simp [Call.adds, h]

/-- The host name that a call gives replaces the one before. -/
theorem host_apply : (op.apply context).serviceHosts.lookup s =
    ((op.adds s).map Added.host).or (context.serviceHosts.lookup s) := by
  cases op with
  | setEnv key value => rfl
  | addService name ip port host =>
    refine (lookup_insert_eq_or name s host context.serviceHosts).trans ?_
    by_cases h : name = s <;> simp [Call.adds, h]

/-- A call without a port writes no port. -/
theorem port_apply : (op.apply context).servicePorts.lookup s =
    ((op.adds s).bind Added.port).or (context.servicePorts.lookup s) := by
  cases op with
  | setEnv key value => rfl
  | addService name ip port host =>
    cases port with
    | none => by_cases h : name = s <;> simp [Call.apply, addService, Call.adds, h]
    | some p =>
      refine (lookup_insert_eq_or name s p context.servicePorts).trans ?_
      by_cases h : name = s <;> simp [Call.adds, h]

/-- A call about another service leaves the entries as they are. -/
theorem entries_apply (h : op.adds s = none) : entries (op.apply context) s = entries context s := by
  unfold entries
  rw [ip_apply, host_apply, port_apply, h]
  rfl

/-- A service that is added leaves the environment as it is. -/
theorem envVars_apply (h : op.setsEnv = false) : (op.apply context).envVars = context.envVars := by
  cases op with
  | setEnv key value => simp [Call.setsEnv] at h
  | addService name ip port host => rfl

/-! ## A run of calls -/

variable (ops : List Call)

/-- The address is the one that was given last. -/
theorem ip_calls : (context.calls ops).serviceIps.lookup s =
    ((latest (Call.adds s) ops).map Added.ip).or (context.serviceIps.lookup s) := by
  rw [← latest_map]
  exact read_foldl Call.apply (fun c => c.serviceIps.lookup s) (fun c o => ip_apply c s o) ops context

/-- The host name is the one that was given last. -/
theorem host_calls : (context.calls ops).serviceHosts.lookup s =
    ((latest (Call.adds s) ops).map Added.host).or (context.serviceHosts.lookup s) := by
  rw [← latest_map]
  exact read_foldl Call.apply (fun c => c.serviceHosts.lookup s) (fun c o => host_apply c s o) ops
    context

/-- The port is that of the last call that has one, which need not be the last call. -/
theorem port_calls : (context.calls ops).servicePorts.lookup s =
    (latest (fun o => (Call.adds s o).bind Added.port) ops).or (context.servicePorts.lookup s) :=
  read_foldl Call.apply (fun c => c.servicePorts.lookup s) (fun c o => port_apply c s o) ops context

/-- No service whose last call is without a port had a port before that call. -/
def PortsRenewed : Prop :=
  ∀ s added, latest (Call.adds s) ops = some added → added.port = none →
    context.servicePorts.lookup s = none ∧
      ∀ op ∈ ops, ∀ earlier, op.adds s = some earlier → earlier.port = none

/-- The context is last-write-wins for each service. -/
structure LastWriteWins : Prop where
  found : ∀ s added, latest (Call.adds s) ops = some added →
    entries (context.calls ops) s = ⟨some added.ip, added.port, some added.host⟩
  others : ∀ before op after, ops = before ++ op :: after → ∀ s, op.adds s = none →
    entries (context.calls (before ++ [op])) s = entries (context.calls before) s
  environment : ∀ before op after, ops = before ++ op :: after → op.setsEnv = false →
    (context.calls (before ++ [op])).envVars = (context.calls before).envVars

/-- One call more. -/
theorem calls_append_singleton (before : List Call) :
    context.calls (before ++ [op]) = op.apply (context.calls before) := by
  simp [calls]

variable {context s ops}

/-- Ip and host are always those of the last call; the port is if it has one. -/
theorem entries_calls {added : Added} (hlast : latest (Call.adds s) ops = some added) :
    entries (context.calls ops) s = ⟨some added.ip, added.port, some added.host⟩ ↔
      (context.calls ops).servicePorts.lookup s = added.port := by
  simp [entries, ip_calls, host_calls, hlast]

/-- After a last call without a port there is none exactly if there was none before. -/
theorem lookup_port_none_iff :
    (context.calls ops).servicePorts.lookup s = none ↔
      context.servicePorts.lookup s = none ∧
        ∀ op ∈ ops, ∀ earlier, op.adds s = some earlier → earlier.port = none := by
  rw [port_calls, Option.or_eq_none_iff, latest_eq_none_iff]
  simp only [Option.bind_eq_none_iff]
  exact and_comm

/-- A port that was given last is found. -/
theorem lookup_port_of_some {added : Added} {port : UInt16}
    (hlast : latest (Call.adds s) ops = some added) (hport : added.port = some port) :
    (context.calls ops).servicePorts.lookup s = some port := by
  rw [port_calls, latest_bind hlast hport, Option.some_or]

/-- **A context is last-write-wins exactly if every port is renewed or was never there.** -/
theorem lastWriteWins_iff (context : ResolutionContext) (ops : List Call) :
    LastWriteWins context ops ↔ PortsRenewed context ops := by
  constructor
  · intro h s added hlast hnone
    rw [← lookup_port_none_iff, ← hnone]
    exact (entries_calls hlast).mp (h.found s added hlast)
  · intro h
    refine ⟨?_, ?_, ?_⟩
    · intro s added hlast
      rw [entries_calls hlast]
      cases hport : added.port with
      | none => exact lookup_port_none_iff.mpr (h s added hlast hport)
      | some port => exact lookup_port_of_some hlast hport
    · intro before op after _ s hother
      rw [calls_append_singleton]
      exact entries_apply _ s op hother
    · intro before op after _ hkeeps
      rw [calls_append_singleton]
      exact envVars_apply _ op hkeeps

/-- The database is added with a port and, restarted without one, keeps it. -/
theorem lastWriteWins_stale_port :
    ¬ LastWriteWins (new ∅) [
      .addService "db" "10.0.0.1" (some 5432) "db.local",
      .addService "db" "127.0.0.1" none "db.local"] := by
  intro h
  have hfound := h.found "db" ⟨"127.0.0.1", none, "db.local"⟩ (by decide)
  revert hfound
  decide

end ResolutionContext

end GraphHarness.Resolver
