import GraphHarness.ServiceRegistry.Backend
import Mathlib.Tactic.DeriveEncodable
import Mathlib.Data.Nat.Digits.Lemmas
import Mathlib.Logic.Equiv.List

/-!
# A serializer

`serde_json` is not modelled beyond what `Serde` says of it. Here is a `Serde` that
can stand for it: an entry is numbered, and the number written down in base 256.

`ServiceEntry` is countable, and `Encodable` gives each entry its number; the bytes of a
number are its digits. So the laws of `Serde` can be met, and examples over the sled backend
can be computed.
-/

namespace GraphHarness.ServiceRegistry

instance encodableUInt16 : Encodable UInt16 :=
  Encodable.ofLeftInverse UInt16.toNat UInt16.ofNat (by intro n; simp)

instance encodableUInt32 : Encodable UInt32 :=
  Encodable.ofLeftInverse UInt32.toNat UInt32.ofNat (by intro n; simp)

instance encodableUInt64 : Encodable UInt64 :=
  Encodable.ofLeftInverse UInt64.toNat UInt64.ofNat (by intro n; simp)

instance encodableBitVec (w : Nat) : Encodable (BitVec w) :=
  Encodable.ofLeftInverse BitVec.toNat (BitVec.ofNat w) (by intro n; simp)

instance encodableChar : Encodable Char :=
  Encodable.ofLeftInverse Char.toNat Char.ofNat (by intro c; simp)

instance encodableString : Encodable String :=
  Encodable.ofLeftInverse String.toList String.ofList (by intro s; simp)

instance encodableHashMap (κ ν : Type) [DecidableEq κ] [Encodable κ] [Encodable ν] :
    Encodable (HashMap κ ν) :=
  Encodable.ofLeftInjection AList.entries
    (fun entries => if h : entries.keys.Nodup then some ⟨entries, h⟩ else none)
    (by intro m; exact dif_pos m.nodupKeys)

deriving instance Encodable for SocketAddr, ExecutionInfo, Location, Protocol, Endpoint,
  ServiceState, HealthStatus, ServiceEntry

/-- The digits of a number, as bytes. -/
def toBytes (n : Nat) : ByteArray := ⟨((Nat.digits 256 n).map UInt8.ofNat).toArray⟩

/-- The number of some bytes. -/
def ofBytes (bytes : ByteArray) : Nat := Nat.ofDigits 256 (bytes.data.toList.map UInt8.toNat)

theorem ofBytes_toBytes (n : Nat) : ofBytes (toBytes n) = n := by
  have hdigits : ((Nat.digits 256 n).map UInt8.ofNat).map UInt8.toNat = Nat.digits 256 n := by
    conv_rhs => rw [← List.map_id (Nat.digits 256 n)]
    rw [List.map_map]
    apply List.map_congr_left
    intro d hd
    have hlt : d < 256 := Nat.digits_lt_base (by norm_num) hd
    show (UInt8.ofNat d).toNat = d
    rw [UInt8.toNat_ofNat']
    omega
  unfold ofBytes toBytes
  rw [hdigits, Nat.ofDigits_digits]

/-- Entries written as numbers, for examples. -/
def Serde.numbered : Serde where
  toVec entry := toBytes (Encodable.encode entry)
  fromSlice bytes :=
    match @Encodable.decode ServiceEntry _ (ofBytes bytes) with
    | some entry => .ok entry
    | none => .error "not the number of an entry"
  fromSlice_toVec := by
    intro entry
    rw [ofBytes_toBytes, Encodable.encodek]

end GraphHarness.ServiceRegistry
