import Switchyard.Address

/-!
# Ethernet headers

A header of fourteen bytes without a VLAN tag. Headers are written big-endian; reading a header
looks only at the bytes in front and does not mind what follows.
-/

namespace Switchyard

/-- An Ethernet header. -/
structure EthernetHeader where
  dst : MacAddr
  src : MacAddr
  etherType : UInt16
  deriving DecidableEq, Inhabited

/-- The Ethernet types of the two internet protocols. -/
def EtherType.ipv4 : UInt16 := 0x0800

def EtherType.ipv6 : UInt16 := 0x86dd

namespace EthernetHeader

/-- The number of bytes of a header. -/
def size : Nat := 14

def encode (h : EthernetHeader) : Bytes :=
  h.dst.toBytes ++ h.src.toBytes ++ BigEndian.encode 2 h.etherType.toNat

/-- The header in front of a byte string; none if there are too few bytes. -/
def decode? (bs : Bytes) : Option EthernetHeader :=
  if bs.length < size then none
  else some
    { dst := MacAddr.ofBytes (bs.take 6)
      src := MacAddr.ofBytes ((bs.drop 6).take 6)
      etherType := UInt16.ofNat (BigEndian.read bs 12 2) }

end EthernetHeader

end Switchyard
