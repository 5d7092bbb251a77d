import Switchyard.Frame.Header
import Switchyard.Frame.Payload
import Switchyard.Frame.Tag

/-!
# Frames

A frame is what hosts and switches exchange: protocol headers from the outside in, a payload, and
tags beside the bytes.
-/

namespace Switchyard

/-- A frame. -/
structure Frame where
  uid : Nat
  headers : List Header
  payload : Payload
  byteTags : List ByteTag
  packetTags : List Tag
  deriving DecidableEq, Inhabited

namespace Frame

/-- A frame without tags. -/
def new (uid : Nat) (headers : List Header) (payload : Payload) : Frame :=
  ⟨uid, headers, payload, [], []⟩

/-- A frame of which nothing but the bytes is known. -/
def ofBytes (uid : Nat) (bytes : Bytes) : Frame := new uid [] (.bytes bytes)

/-- The bytes of the frame on the wire. -/
def toBytes (f : Frame) : Bytes := f.headers.flatMap Header.encode ++ f.payload.toBytes

/-- The number of bytes on the wire. -/
def length (f : Frame) : Nat := f.headers.foldr (fun h total => h.size + total) f.payload.length

theorem length_toBytes (f : Frame) : f.toBytes.length = f.length := by
  simp only [toBytes, length, List.length_append, Payload.length_toBytes]
  induction f.headers with
  | nil => simp
  | cons h hs ih =>
    rw [List.flatMap_cons, List.length_append, Header.length_encode, Nat.add_assoc, ih,
      List.foldr_cons]

@[simp] theorem toBytes_ofBytes (uid : Nat) (bytes : Bytes) : (ofBytes uid bytes).toBytes = bytes :=
  rfl

/-- The internet header of a packet of the given protocol between two addresses, with the Ethernet
type that announces it. There is none between addresses of different families. -/
def internetHeader? (src dst : IpAddr) (protocol : UInt8) (payloadLength : Nat) :
    Option (UInt16 × Header) :=
  match src, dst with
  | .v4 s, .v4 d => some (EtherType.ipv4, .ipv4 (Ipv4Header.new s d protocol payloadLength))
  | .v6 s, .v6 d => some (EtherType.ipv6, .ipv6 (Ipv6Header.new s d protocol payloadLength))
  | _, _ => none

/-- Where a datagram comes from or goes to. -/
structure Endpoint where
  mac : MacAddr
  ip : IpAddr
  port : UInt16
  deriving DecidableEq, Inhabited

/-- A UDP datagram in an Ethernet frame. The payload length is a 16-bit count, and the length fields
go by it. There is no such frame between addresses of different families. -/
def udp? (uid : Nat) (src dst : Endpoint) (payload : Payload) : Option Frame := do
  let udp := UdpHeader.new src.port dst.port (payload.length % 65536)
  let (etherType, ip) ← internetHeader? src.ip dst.ip IpProtocol.udp udp.length.toNat
  return new uid [.ethernet ⟨dst.mac, src.mac, etherType⟩, ip, .udp udp] payload

/-- Adds a tag on the frame as a whole. -/
def addPacketTag (f : Frame) (tag : Tag) : Frame := { f with packetTags := f.packetTags ++ [tag] }

/-- Adds a tag on all bytes of the frame. -/
def addByteTag (f : Frame) (tag : Tag) : Frame :=
  { f with byteTags := f.byteTags ++ [ByteTag.covering f.length tag] }

/-- The flow of the frame: the first one that its tags name, those on the whole frame first. -/
def flow? (f : Frame) : Option Nat :=
  (f.packetTags ++ f.byteTags.map (·.tag)).findSome? Tag.flow?

/-- The time at which a host sent the frame, by the tags on the whole frame. -/
def sent? (f : Frame) : Option Time := f.packetTags.findSome? Tag.sent?

/-- The names of the headers, outermost first. -/
def chain (f : Frame) : List String := f.headers.map Header.name

/-- The first Ethernet header. -/
def ethernet? (f : Frame) : Option EthernetHeader :=
  f.headers.findSome? fun | .ethernet h => some h | _ => none

/-- The first IPv4 header. -/
def ipv4? (f : Frame) : Option Ipv4Header := f.headers.findSome? fun | .ipv4 h => some h | _ => none

/-- The first IPv6 header. -/
def ipv6? (f : Frame) : Option Ipv6Header := f.headers.findSome? fun | .ipv6 h => some h | _ => none

end Frame

end Switchyard
