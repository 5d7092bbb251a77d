import Switchyard.Address
import Switchyard.InternetChecksum

/-!
# IPv4 headers

The options are kept as raw bytes. The header length on the wire is a count of 32-bit words in four
bits, so it is right only if the options come in whole words and are not too many; other options are
written all the same.
-/

namespace Switchyard

/-- An IPv4 header. `flagsFragment` holds three flag bits above thirteen bits of fragment offset. -/
structure Ipv4Header where
  tos : UInt8
  totalLength : UInt16
  identification : UInt16
  flagsFragment : UInt16
  ttl : UInt8
  protocol : UInt8
  checksum : UInt16
  src : Ipv4Addr
  dst : Ipv4Addr
  options : Bytes
  deriving DecidableEq, Inhabited

/-- The numbers of the transport protocols. -/
def IpProtocol.tcp : UInt8 := 6

def IpProtocol.udp : UInt8 := 17

/-- An IPv4 header inside an IPv4 packet. -/
def IpProtocol.ipv4 : UInt8 := 4

namespace Ipv4Header

/-- The number of bytes of a header without options. -/
def minSize : Nat := 20

/-- The number of bytes of the header. -/
def size (h : Ipv4Header) : Nat := minSize + h.options.length

/-- The first byte: the version, and the header length in words cut to four bits. -/
def lead (h : Ipv4Header) : UInt8 := UInt8.ofNat (4 * 16 + h.size / 4 % 16)

def encode (h : Ipv4Header) : Bytes :=
  [h.lead, h.tos] ++
    BigEndian.encode 2 h.totalLength.toNat ++
    BigEndian.encode 2 h.identification.toNat ++
    BigEndian.encode 2 h.flagsFragment.toNat ++
    [h.ttl, h.protocol] ++
    BigEndian.encode 2 h.checksum.toNat ++
    h.src.toBytes ++ h.dst.toBytes ++ h.options

/-- The checksum that the header should carry: that of its bytes but the sixth word, where the checksum
stands. -/
def computedChecksum (h : Ipv4Header) : UInt16 := internetChecksumWithout 5 h.encode

/-- The header with the checksum that it should carry. -/
def withChecksum (h : Ipv4Header) : Ipv4Header := { h with checksum := h.computedChecksum }

/-- The header in front of a byte string; none if the version or the header length is wrong, or if
there are too few bytes. -/
def decode? (bs : Bytes) : Option Ipv4Header :=
  let lead := BigEndian.read bs 0 1
  let headerSize := lead % 16 * 4
  if lead / 16 = 4 ∧ minSize ≤ headerSize ∧ headerSize ≤ bs.length then
    some
      { tos := UInt8.ofNat (BigEndian.read bs 1 1)
        totalLength := UInt16.ofNat (BigEndian.read bs 2 2)
        identification := UInt16.ofNat (BigEndian.read bs 4 2)
        flagsFragment := UInt16.ofNat (BigEndian.read bs 6 2)
        ttl := UInt8.ofNat (BigEndian.read bs 8 1)
        protocol := UInt8.ofNat (BigEndian.read bs 9 1)
        checksum := UInt16.ofNat (BigEndian.read bs 10 2)
        src := Ipv4Addr.ofBytes ((bs.drop 12).take 4)
        dst := Ipv4Addr.ofBytes ((bs.drop 16).take 4)
        options := (bs.drop minSize).take (headerSize - minSize) }
  else none

/-- A header without options, with a correct checksum, for a payload of the given length. A packet
that is too long for its length field says so with the largest length. -/
def new (src dst : Ipv4Addr) (protocol : UInt8) (payloadLength : Nat) : Ipv4Header :=
  withChecksum
    { tos := 0
      totalLength := UInt16.ofNat (min (payloadLength + minSize) 65535)
      identification := 0
      flagsFragment := 0x4000
      ttl := 64
      protocol := protocol
      checksum := 0
      src := src
      dst := dst
      options := [] }

end Ipv4Header

end Switchyard
