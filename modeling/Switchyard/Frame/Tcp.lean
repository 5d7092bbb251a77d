import Switchyard.Bytes

/-!
# TCP headers

The options are kept as raw bytes; as in IPv4, only whole words of options fit the length field.
-/

namespace Switchyard

/-- A TCP header. Of the flags, twelve bits reach the wire: four reserved ones and eight flags. -/
structure TcpHeader where
  srcPort : UInt16
  dstPort : UInt16
  seq : UInt32
  ack : UInt32
  flags : UInt16
  window : UInt16
  checksum : UInt16
  urgent : UInt16
  options : Bytes
  deriving DecidableEq, Inhabited

namespace TcpHeader

/-- The number of bytes of a header without options. -/
def minSize : Nat := 20

/-- The number of bytes of the header. -/
def size (h : TcpHeader) : Nat := minSize + h.options.length

/-- The word of header length and flags. -/
def lengthFlags (h : TcpHeader) : Nat := h.size / 4 % 16 * 0x1000 + h.flags.toNat % 0x1000

def encode (h : TcpHeader) : Bytes :=
  BigEndian.encode 2 h.srcPort.toNat ++
    BigEndian.encode 2 h.dstPort.toNat ++
    BigEndian.encode 4 h.seq.toNat ++
    BigEndian.encode 4 h.ack.toNat ++
    BigEndian.encode 2 h.lengthFlags ++
    BigEndian.encode 2 h.window.toNat ++
    BigEndian.encode 2 h.checksum.toNat ++
    BigEndian.encode 2 h.urgent.toNat ++
    h.options

/-- The header in front of a byte string; none if the header length is wrong or there are too few
bytes. -/
def decode? (bs : Bytes) : Option TcpHeader :=
  let lengthFlags := BigEndian.read bs 12 2
  let headerSize := lengthFlags / 0x1000 * 4
  if minSize ≤ bs.length ∧ minSize ≤ headerSize ∧ headerSize ≤ bs.length then
    some
      { srcPort := UInt16.ofNat (BigEndian.read bs 0 2)
        dstPort := UInt16.ofNat (BigEndian.read bs 2 2)
        seq := UInt32.ofNat (BigEndian.read bs 4 4)
        ack := UInt32.ofNat (BigEndian.read bs 8 4)
        flags := UInt16.ofNat (lengthFlags % 0x1000)
        window := UInt16.ofNat (BigEndian.read bs 14 2)
        checksum := UInt16.ofNat (BigEndian.read bs 16 2)
        urgent := UInt16.ofNat (BigEndian.read bs 18 2)
        options := (bs.drop minSize).take (headerSize - minSize) }
  else none

end TcpHeader

end Switchyard
