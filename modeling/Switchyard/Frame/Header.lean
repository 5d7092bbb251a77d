import Switchyard.Frame.Ethernet
import Switchyard.Frame.Ipv4
import Switchyard.Frame.Ipv6
import Switchyard.Frame.Tcp
import Switchyard.Frame.Udp

/-!
# Protocol headers

The headers that frames carry in structured form.
-/

namespace Switchyard

/-- A protocol header. -/
inductive Header where
  | ethernet (h : EthernetHeader)
  | ipv4 (h : Ipv4Header)
  | ipv6 (h : Ipv6Header)
  | tcp (h : TcpHeader)
  | udp (h : UdpHeader)
  deriving DecidableEq, Inhabited

namespace Header

/-- The name of the protocol. -/
def name : Header → String
  | ethernet _ => "ethernet"
  | ipv4 _ => "ipv4"
  | ipv6 _ => "ipv6"
  | tcp _ => "tcp"
  | udp _ => "udp"

/-- The number of bytes of the header. -/
def size : Header → Nat
  | ethernet _ => EthernetHeader.size
  | ipv4 h => h.size
  | ipv6 _ => Ipv6Header.size
  | tcp h => h.size
  | udp _ => UdpHeader.size

/-- The header as it stands on the wire. -/
def encode : Header → Bytes
  | ethernet h => h.encode
  | ipv4 h => h.encode
  | ipv6 h => h.encode
  | tcp h => h.encode
  | udp h => h.encode

theorem length_encode (h : Header) : h.encode.length = h.size := by
  cases h <;>
    simp [encode, size, EthernetHeader.encode, EthernetHeader.size, Ipv4Header.encode,
      Ipv4Header.size, Ipv4Header.minSize, Ipv6Header.encode, Ipv6Header.size, TcpHeader.encode,
      TcpHeader.size, TcpHeader.minSize, UdpHeader.encode, UdpHeader.size, MacAddr.toBytes,
      Ipv4Addr.toBytes, Ipv6Addr.toBytes] <;>
    omega

end Header

end Switchyard
