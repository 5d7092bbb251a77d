import Switchyard.Address

/-!
# Writing addresses

An IPv4 address is written as four decimal octets. An IPv6 address is written in the recommended
short form: lower-case groups without leading zeros, the first longest run of at least two zero
groups as `::`, and an IPv4-mapped address with its dotted quad.
-/

namespace Switchyard

namespace Ipv4Addr

protected def toString (a : Ipv4Addr) : String :=
  ".".intercalate (a.toBytes.map fun b => toString b.toNat)

instance : ToString Ipv4Addr := ⟨Ipv4Addr.toString⟩

end Ipv4Addr

namespace Ipv6Addr

/-- A group in hexadecimal. -/
def groupText (g : Nat) : String := String.ofList (Nat.toDigits 16 g)

def groupsText (gs : List Nat) : String := ":".intercalate (gs.map groupText)

/-- The number of zero groups in front. -/
def zeroRun (gs : List Nat) : Nat := (gs.takeWhile (· == 0)).length

/-- Start and length of the first longest run of zero groups. -/
def longestZeroRun (gs : List Nat) : Nat × Nat :=
  (List.range gs.length).foldl
    (fun best i => if best.2 < zeroRun (gs.drop i) then (i, zeroRun (gs.drop i)) else best) (0, 0)

/-- The IPv4 address that an address of the form `::ffff:a.b.c.d` holds. -/
def mapped? (a : Ipv6Addr) : Option Ipv4Addr :=
  if a.toNat / UInt32.size = 0xffff then some (Ipv4Addr.ofNat a.toNat) else none

protected def toString (a : Ipv6Addr) : String :=
  match a.mapped? with
  | some quad => "::ffff:" ++ toString quad
  | none =>
    let gs := a.groups
    let (start, length) := longestZeroRun gs
    if 1 < length then groupsText (gs.take start) ++ "::" ++ groupsText (gs.drop (start + length))
    else groupsText gs

instance : ToString Ipv6Addr := ⟨Ipv6Addr.toString⟩

end Ipv6Addr

namespace IpAddr

protected def toString : IpAddr → String
  | v4 a => toString a
  | v6 a => toString a

instance : ToString IpAddr := ⟨IpAddr.toString⟩

end IpAddr

end Switchyard
