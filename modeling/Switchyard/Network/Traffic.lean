import Switchyard.Network
import Switchyard.Simulation.Scheduler

/-!
# Traffic

What happens in a network while time passes. A node sends a frame by a port, and it is delivered at
the other end of the link when it arrives; by a port that is not connected it is lost. A host keeps
what it receives. A switch processes it and sends what comes out. A flow makes a host send datagrams
at regular intervals.
-/

namespace Switchyard

/-- Datagrams for a host to send: how many are left, how long their frames are, and the time between
two of them. -/
structure Flow where
  id : Nat
  source : NodeId
  destination : IpAddr
  frameBytes : Nat
  remaining : Nat
  gap : Time
  deriving DecidableEq

/-- What can happen in a network. -/
inductive NetworkEvent where
  | deliver (node : NodeId) (port : Nat) (frame : Frame)
  | inject (flow : Flow)
  deriving DecidableEq

/-- A network in which something happens, and the events that this plans, in order. -/
structure Activity where
  network : Network
  planned : List (Planned NetworkEvent)

/-- Something that happens in a network at a time. -/
abbrev ActivityM := EStateM Fault Activity

namespace Activity

/-- Does something to the network alone. -/
def onNetwork {α : Type} (op : EStateM Fault Network α) : ActivityM α := fun s =>
  match op s.network with
  | .ok a network => .ok a { s with network := network }
  | .error e network => .error e { s with network := network }

/-- Changes the network. -/
def change (f : Network → Network) : ActivityM Unit :=
  modify fun s => { s with network := f s.network }

/-- Counts something. -/
def count (f : Stats → Stats) : ActivityM Unit :=
  change fun net => { net with stats := f net.stats }

/-- Plans an event. -/
def plan (due : Time) (event : NetworkEvent) : ActivityM Unit :=
  modify fun s => { s with planned := s.planned ++ [⟨due, event⟩] }

/-- The link that goes out from a port. -/
def outgoing (node : NodeId) (port : Nat) : ActivityM (Option LinkId) := do
  if port = 0 then return none
  return (← onNetwork (Network.requireNode node)).ports[port - 1]?

/-- Sends a frame by a port of a node. -/
def transmit (now : Time) (node : NodeId) (port : Nat) (frame : Frame) : ActivityM Unit := do
  match ← outgoing node port with
  | none => count Stats.countDropped
  | some id =>
    let link := (← get).network.links.getD id default
    let (busy, arrival) := link.send now frame.length
    change fun net => { net with links := net.links.set id busy }
    plan arrival (.deliver link.target link.targetPort frame)

/-- Sends a frame by the first port of a node, which is the only one of a host. -/
def sendFromHost (now : Time) (node : NodeId) (frame : Frame) : ActivityM Unit := do
  let name := (← onNetwork (Network.requireNode node)).name
  count (·.onHost name (·.countSent frame.length))
  transmit now node 1 frame

/-- Counts how long a frame was under way, if it says when it was sent. -/
def countLatency (now : Time) (frame : Frame) : ActivityM Unit := do
  match frame.sent? with
  | none => return
  | some sent =>
    count (·.countLatency (now.toNat - sent.toNat))
    if Time.maxNanos < (← get).network.stats.totalLatency then throw .latencyOverflow

/-- A host keeps a frame. -/
def receive (now : Time) (name : String) (frame : Frame) : ActivityM Unit := do
  count (·.countDelivered name frame.length)
  countLatency now frame

/-- A pipeline processes a frame with a numbering of the network. -/
def process (now : Time) (name : String) (pipeline : Pipeline) (id : NumberingId) (port : Nat)
    (frame : Frame) : ActivityM (List Emission) := do
  let net := (← get).network
  match pipeline.process frame port now (net.numberingOf id) with
  | .error e _ => throw (.pipeline name e)
  | .ok outcome numbering =>
    change fun net =>
      { net.setNumbering id numbering with reports := net.reports ++ outcome.reports }
    return outcome.emissions

/-- A switch sends what came out of its pipeline. -/
def emit (now : Time) (node : NodeId) (e : Emission) : ActivityM Unit := do
  count Stats.countSwitchSent
  transmit now node e.port e.frame

/-- A switch passes a frame on. -/
def forward (now : Time) (node : NodeId) (name : String) (pipeline : Pipeline) (id : NumberingId)
    (port : Nat) (frame : Frame) : ActivityM Unit := do
  count Stats.countSwitchReceived
  let emissions ← process now name pipeline id port frame
  emissions.forM (emit now node)

/-- A node does with a frame what nodes of its kind do. -/
def handle (now : Time) (node : NodeId) (n : Node) (port : Nat) (frame : Frame) : ActivityM Unit :=
  match n.kind with
  | .host _ _ => receive now n.name frame
  | .switch pipeline id => forward now node n.name pipeline id port frame

/-- A frame comes in by a port of a node, which is busy until it is done with the frame. A node that
is busy already loses the frame. -/
def deliver (now : Time) (node : NodeId) (port : Nat) (frame : Frame) : ActivityM Unit := do
  let n ← onNetwork (Network.requireNode node)
  if n.busy then return
  else
    change (·.setBusy node true)
    handle now node n port frame
    change (·.setBusy node false)

end Activity

namespace Flow

/-- The bytes of a frame that are headers, by the address family of its source. -/
def headerBytes : IpAddr → Nat
  | .v4 _ => EthernetHeader.size + Ipv4Header.minSize + UdpHeader.size
  | .v6 _ => EthernetHeader.size + Ipv6Header.size + UdpHeader.size

/-- The port that a flow comes from and goes to. -/
def port (flow : Flow) : UInt16 := UInt16.ofNat (10000 + flow.id % 50000)

/-- The link-layer address to send to: that of the host with the destination address, or else all
stations. -/
def destinationMac (flow : Flow) (net : Network) : MacAddr :=
  (((net.hostByIp? flow.destination).bind net.host?).map (·.2)).getD MacAddr.broadcast

/-- The bytes of a frame that are payload: what the headers leave. -/
def payloadBytes (flow : Flow) (ip : IpAddr) : Nat := flow.frameBytes - headerBytes ip

/-- The next frame of a flow, under a number. There is none if the addresses are of different
families. -/
def nextFrame? (flow : Flow) (now : Time) (uid : Nat) (ip : IpAddr) (mac : MacAddr)
    (net : Network) : Option Frame := do
  let frame ← Frame.udp? uid ⟨mac, ip, flow.port⟩
    ⟨flow.destinationMac net, flow.destination, flow.port⟩ (.zeros (flow.payloadBytes ip))
  return ((frame.addPacketTag (.flowId flow.id)).addPacketTag (.sentAt now)).addByteTag
    (.flowId flow.id)

/-- Sends the next frame and plans the one after it. A flow whose source is no host, or is of the
wrong family, ends; in the second case the number of the frame is used up all the same. The payload
has to fit the memory. -/
def inject (flow : Flow) (now : Time) : ActivityM Unit := do
  let net := (← get).network
  match flow.remaining, net.host? flow.source with
  | 0, _ => return
  | _, none => return
  | left + 1, some (ip, mac) =>
    let length := flow.payloadBytes ip
    if Network.maxBytes < length then throw (.payloadTooLong length)
    let (uid, net) := Network.takeUid net
    Activity.change fun _ => net
    match flow.nextFrame? now uid ip mac net with
    | none => return
    | some frame =>
      Activity.sendFromHost now flow.source frame
      if 0 < left then Activity.plan (now + flow.gap) (.inject { flow with remaining := left })

end Flow

/-- What happens at an event. -/
def NetworkEvent.activity (now : Time) : NetworkEvent → ActivityM Unit
  | deliver node port frame => Activity.deliver now node port frame
  | inject flow => flow.inject now

/-- Lets something happen in a network, and answers the network after it and the events it plans. -/
def Network.perform (op : ActivityM Unit) (net : Network) :
    Except Fault (Network × List (Planned NetworkEvent)) :=
  match op ⟨net, []⟩ with
  | .ok _ s => .ok (s.network, s.planned)
  | .error e _ => .error e

/-- What the events of a network do. -/
def Network.behaviour : Behaviour NetworkEvent Network Fault where
  execute clock event net := net.perform (event.activity clock.now)
  tick net := net

end Switchyard
