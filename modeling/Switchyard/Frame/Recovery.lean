import Switchyard.Frame

/-!
# Recovering headers from bytes

A rule says where one kind of header may stand and how to read it. Recovery goes through the bytes
from the front: at each place the first rule that applies and takes at least one byte decides, and
where none does, the remaining bytes are the payload. Only rules that take bytes count, and none may
take more than there are, so every step leaves fewer bytes. Reading is done on a copy of what is known, and
the copy counts only if the rule decides.
-/

namespace Switchyard

/-- The layer of the last header read. -/
inductive Layer where
  | start
  | link
  | network
  | transport
  deriving DecidableEq, Inhabited

/-- What is known from the headers read so far. -/
structure RecoveryState where
  layer : Layer
  etherType : Option UInt16
  ipProtocol : Option UInt8
  deriving DecidableEq, Inhabited

namespace RecoveryState

/-- Nothing has been read. -/
def initial : RecoveryState := ⟨.start, none, none⟩

/-- After an Ethernet header. -/
def afterEthernet (s : RecoveryState) (h : EthernetHeader) : RecoveryState :=
  { s with layer := .link, etherType := some h.etherType }

/-- After an internet header that announces a protocol. -/
def afterInternet (s : RecoveryState) (protocol : UInt8) : RecoveryState :=
  { s with layer := .network, ipProtocol := some protocol }

/-- After a transport header. -/
def afterTransport (s : RecoveryState) : RecoveryState := { s with layer := .transport }

/-- Does an internet header of the given Ethernet type come next? -/
def expectsInternet (s : RecoveryState) (etherType : UInt16) : Bool :=
  s.layer == .link && s.etherType == some etherType

/-- Does a header of the given protocol come next? -/
def expectsProtocol (s : RecoveryState) (protocol : UInt8) : Bool :=
  s.layer == .network && s.ipProtocol == some protocol

end RecoveryState

/-- A header that was read: the header, the number of bytes taken, and what is known now. -/
structure Recovered where
  header : Header
  used : Nat
  next : RecoveryState

/-- A rule of recovery. Reading answers a header and the number of bytes taken, if there is one, and may
change what is known in either case. -/
structure RecoveryRule where
  name : String
  applies : RecoveryState → Bool
  read : Bytes → StateM RecoveryState (Option (Header × Nat))

namespace RecoveryRule

/-- The header that the rule reads. What is known after reading nothing is forgotten. -/
def decode (rule : RecoveryRule) (bs : Bytes) (s : RecoveryState) : Option Recovered :=
  match rule.read bs s with
  | (some (header, used), next) => some ⟨header, used, next⟩
  | (none, _) => none

/-- Reads a header if it is there; otherwise nothing more is known than before. -/
def reading (found? : Bytes → RecoveryState → Option Recovered) (bs : Bytes) :
    StateM RecoveryState (Option (Header × Nat)) := fun s =>
  match found? bs s with
  | some r => (some (r.header, r.used), r.next)
  | none => (none, s)

theorem decode_reading (name : String) (applies : RecoveryState → Bool)
    (found? : Bytes → RecoveryState → Option Recovered) (bs : Bytes) (s : RecoveryState) :
    decode ⟨name, applies, reading found?⟩ bs s = found? bs s := by
  cases found : found? bs s with
  | none => simp only [decode, reading, found]
  | some r => simp only [decode, reading, found]

/-- Reads an Ethernet header. -/
def decodeEthernet (bs : Bytes) (s : RecoveryState) : Option Recovered :=
  (EthernetHeader.decode? bs).map fun h => ⟨.ethernet h, EthernetHeader.size, s.afterEthernet h⟩

/-- Reads an IPv4 header. -/
def decodeIpv4 (bs : Bytes) (s : RecoveryState) : Option Recovered :=
  (Ipv4Header.decode? bs).map fun h => ⟨.ipv4 h, h.size, s.afterInternet h.protocol⟩

/-- Reads an IPv6 header. -/
def decodeIpv6 (bs : Bytes) (s : RecoveryState) : Option Recovered :=
  (Ipv6Header.decode? bs).map fun h => ⟨.ipv6 h, Ipv6Header.size, s.afterInternet h.nextHeader⟩

/-- Reads a TCP header. -/
def decodeTcp (bs : Bytes) (s : RecoveryState) : Option Recovered :=
  (TcpHeader.decode? bs).map fun h => ⟨.tcp h, h.size, s.afterTransport⟩

/-- Reads a UDP header. -/
def decodeUdp (bs : Bytes) (s : RecoveryState) : Option Recovered :=
  (UdpHeader.decode? bs).map fun h => ⟨.udp h, UdpHeader.size, s.afterTransport⟩

/-- A frame starts with an Ethernet header. -/
def ethernet : RecoveryRule := ⟨"ethernet", fun s => s.layer == .start, reading decodeEthernet⟩

def ipv4 : RecoveryRule := ⟨"ipv4", (·.expectsInternet EtherType.ipv4), reading decodeIpv4⟩

def ipv6 : RecoveryRule := ⟨"ipv6", (·.expectsInternet EtherType.ipv6), reading decodeIpv6⟩

def tcp : RecoveryRule := ⟨"tcp", (·.expectsProtocol IpProtocol.tcp), reading decodeTcp⟩

def udp : RecoveryRule := ⟨"udp", (·.expectsProtocol IpProtocol.udp), reading decodeUdp⟩

/-- The rules that every recovery starts with. -/
def standard : List RecoveryRule := [ethernet, ipv4, ipv6, tcp, udp]

/-- An Ethernet header behind a transport header. -/
def innerEthernet : RecoveryRule :=
  ⟨"inner_ethernet", fun s => s.layer == .transport, reading decodeEthernet⟩

/-- An IPv4 header directly inside an internet packet. -/
def ipInIp : RecoveryRule := ⟨"ipip", (·.expectsProtocol IpProtocol.ipv4), reading decodeIpv4⟩

/-- Reads an Ethernet header anywhere but takes no byte, so it never decides. -/
def zero : RecoveryRule :=
  ⟨"zero", fun _ => true, reading fun bs s => (decodeEthernet bs s).map ({ · with used := 0 })⟩

/-- What the rule reads in front of the bytes, if it applies and takes from them. -/
def attempt? (rule : RecoveryRule) (s : RecoveryState) (bs : Bytes) : Option Recovered :=
  if rule.applies s then
    (rule.decode bs s).filter fun r => 0 < r.used && r.used ≤ bs.length
  else none

end RecoveryRule

namespace Recovery

/-- What the first rule that can go on reads. -/
def step? (rules : List RecoveryRule) (s : RecoveryState) (bs : Bytes) : Option Recovered :=
  rules.findSome? (·.attempt? s bs)

theorem used_of_step? {rules : List RecoveryRule} {s : RecoveryState} {bs : Bytes} {r : Recovered}
    (h : step? rules s bs = some r) : 0 < r.used ∧ r.used ≤ bs.length := by
  obtain ⟨rule, _, hr⟩ := List.exists_of_findSome?_eq_some h
  simp only [RecoveryRule.attempt?] at hr
  split at hr
  · have := (Option.filter_eq_some_iff.mp hr).2
    simpa using this
  · contradiction

/-- The headers that the rules find in front of the bytes, and the bytes behind them. -/
def run (rules : List RecoveryRule) (s : RecoveryState) (bs : Bytes) : List Header × Bytes :=
  match _h : step? rules s bs with
  | none => ([], bs)
  | some r =>
    let (headers, payload) := run rules r.next (bs.drop r.used)
    (r.header :: headers, payload)
termination_by bs.length
decreasing_by
  have := used_of_step? ‹step? rules s bs = some r›
  simp only [List.length_drop]
  omega

end Recovery

/-- The frame that the rules find in the bytes. -/
def Frame.recover (rules : List RecoveryRule) (uid : Nat) (bytes : Bytes) : Frame :=
  let (headers, payload) := Recovery.run rules .initial bytes
  Frame.new uid headers (.bytes payload)

end Switchyard
