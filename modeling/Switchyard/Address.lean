import Switchyard.Bytes

/-!
# Addresses

Link-layer and internet addresses are fixed-width words. On the wire they are written big-endian.
-/

namespace Switchyard

/-- A 48-bit link-layer address. -/
structure MacAddr where
  bits : BitVec 48
  deriving DecidableEq, Inhabited

/-- An IPv4 address. -/
structure Ipv4Addr where
  bits : BitVec 32
  deriving DecidableEq, Inhabited

/-- An IPv6 address. -/
structure Ipv6Addr where
  bits : BitVec 128
  deriving DecidableEq, Inhabited

/-- An internet address of either family. -/
inductive IpAddr where
  | v4 (addr : Ipv4Addr)
  | v6 (addr : Ipv6Addr)
  deriving DecidableEq, Inhabited

namespace MacAddr

/-- The address of all stations. -/
def broadcast : MacAddr := ⟨BitVec.allOnes 48⟩

/-- The locally administered address `02:00:00:00:hi:lo` of station number `index`, of which 16 bits
count. -/
def ofIndex (index : Nat) : MacAddr := ⟨BitVec.ofNat 48 (0x020000000000 + index % 65536)⟩

def toBytes (a : MacAddr) : Bytes := BigEndian.encode 6 a.bits.toNat

def ofBytes (bs : Bytes) : MacAddr := ⟨BitVec.ofNat 48 (BigEndian.value bs)⟩

end MacAddr

namespace Ipv4Addr

def ofNat (n : Nat) : Ipv4Addr := ⟨BitVec.ofNat 32 n⟩

def toNat (a : Ipv4Addr) : Nat := a.bits.toNat

def toBytes (a : Ipv4Addr) : Bytes := BigEndian.encode 4 a.toNat

def ofBytes (bs : Bytes) : Ipv4Addr := ofNat (BigEndian.value bs)

end Ipv4Addr

namespace Ipv6Addr

def ofNat (n : Nat) : Ipv6Addr := ⟨BitVec.ofNat 128 n⟩

def toNat (a : Ipv6Addr) : Nat := a.bits.toNat

def toBytes (a : Ipv6Addr) : Bytes := BigEndian.encode 16 a.toNat

def ofBytes (bs : Bytes) : Ipv6Addr := ofNat (BigEndian.value bs)

/-- The eight 16-bit groups, first group first. -/
def groups (a : Ipv6Addr) : List Nat :=
  [7, 6, 5, 4, 3, 2, 1, 0].map fun i => a.toNat / Nat.pow 65536 i % 65536

/-- The address with the given groups, first group first. -/
def ofGroups (gs : List Nat) : Ipv6Addr := ofNat (gs.foldl (fun n g => n * 65536 + g) 0)

end Ipv6Addr

namespace IpAddr

def isV4 : IpAddr → Bool
  | v4 _ => true
  | v6 _ => false

def toBytes : IpAddr → Bytes
  | v4 a => a.toBytes
  | v6 a => a.toBytes

end IpAddr

end Switchyard
