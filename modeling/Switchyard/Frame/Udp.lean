import Switchyard.Bytes

/-!
# UDP headers
-/

namespace Switchyard

/-- A UDP header. -/
structure UdpHeader where
  srcPort : UInt16
  dstPort : UInt16
  length : UInt16
  checksum : UInt16
  deriving DecidableEq, Inhabited

namespace UdpHeader

/-- The number of bytes of a header. -/
def size : Nat := 8

def encode (h : UdpHeader) : Bytes :=
  BigEndian.encode 2 h.srcPort.toNat ++
    BigEndian.encode 2 h.dstPort.toNat ++
    BigEndian.encode 2 h.length.toNat ++
    BigEndian.encode 2 h.checksum.toNat

/-- The header in front of a byte string; none if there are too few bytes. -/
def decode? (bs : Bytes) : Option UdpHeader :=
  if bs.length < size then none
  else some
    { srcPort := UInt16.ofNat (BigEndian.read bs 0 2)
      dstPort := UInt16.ofNat (BigEndian.read bs 2 2)
      length := UInt16.ofNat (BigEndian.read bs 4 2)
      checksum := UInt16.ofNat (BigEndian.read bs 6 2) }

/-- A header without a checksum for a payload of the given length. A payload that is too long for
the length field gets the largest length. -/
def new (srcPort dstPort : UInt16) (payloadLength : Nat) : UdpHeader :=
  { srcPort := srcPort
    dstPort := dstPort
    length := UInt16.ofNat (min (payloadLength + size) 65535)
    checksum := 0 }

end UdpHeader

end Switchyard
