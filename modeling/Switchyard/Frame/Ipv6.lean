import Switchyard.Address

/-!
# IPv6 headers

The fixed header of forty bytes. Extension headers count as payload.
-/

namespace Switchyard

/-- An IPv6 header. Of the flow label, twenty bits reach the wire. -/
structure Ipv6Header where
  trafficClass : UInt8
  flowLabel : UInt32
  payloadLength : UInt16
  nextHeader : UInt8
  hopLimit : UInt8
  src : Ipv6Addr
  dst : Ipv6Addr
  deriving DecidableEq, Inhabited

namespace Ipv6Header

/-- The number of bytes of a header. -/
def size : Nat := 40

/-- The first word: version, traffic class and flow label. -/
def lead (h : Ipv6Header) : Nat :=
  6 * 0x10000000 + h.trafficClass.toNat * 0x100000 + h.flowLabel.toNat % 0x100000

def encode (h : Ipv6Header) : Bytes :=
  BigEndian.encode 4 h.lead ++
    BigEndian.encode 2 h.payloadLength.toNat ++
    [h.nextHeader, h.hopLimit] ++
    h.src.toBytes ++ h.dst.toBytes

/-- The header in front of a byte string; none if the version is wrong or there are too few
bytes. -/
def decode? (bs : Bytes) : Option Ipv6Header :=
  let lead := BigEndian.read bs 0 4
  if bs.length < size ∨ lead / 0x10000000 ≠ 6 then none
  else some
    { trafficClass := UInt8.ofNat (lead / 0x100000 % 0x100)
      flowLabel := UInt32.ofNat (lead % 0x100000)
      payloadLength := UInt16.ofNat (BigEndian.read bs 4 2)
      nextHeader := UInt8.ofNat (BigEndian.read bs 6 1)
      hopLimit := UInt8.ofNat (BigEndian.read bs 7 1)
      src := Ipv6Addr.ofBytes ((bs.drop 8).take 16)
      dst := Ipv6Addr.ofBytes ((bs.drop 24).take 16) }

/-- A header for a payload of the given length. -/
def new (src dst : Ipv6Addr) (nextHeader : UInt8) (payloadLength : Nat) : Ipv6Header :=
  { trafficClass := 0
    flowLabel := 0
    payloadLength := UInt16.ofNat payloadLength
    nextHeader := nextHeader
    hopLimit := 64
    src := src
    dst := dst }

end Ipv6Header

end Switchyard
