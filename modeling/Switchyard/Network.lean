import Switchyard.Network.Link
import Switchyard.Network.Stats
import Switchyard.Pipeline

/-!
# Networks

Hosts and switches, joined by links. The ports of a node are numbered from one in the order in which
they were connected; each is one end of a pair of links.
-/

namespace Switchyard

/-- The position of a link in its network. -/
abbrev LinkId := Nat

/-- Where a switch takes the numbers of its packets from: the numbering that switches share, or
another one beside it. -/
inductive NumberingId where
  | shared
  | other (index : Nat)
  deriving DecidableEq

/-- What a node is. -/
inductive NodeKind where
  | host (ip : IpAddr) (mac : MacAddr)
  | switch (pipeline : Pipeline) (numbering : NumberingId)

/-- A node, with the links that go out from its ports. While it handles a frame it is busy. -/
structure Node where
  name : String
  kind : NodeKind
  ports : List LinkId
  busy : Bool

/-- A network. Frames are numbered from a counter of 64 bits. Its pipelines share one numbering unless
they are given others, and what their controls reported is kept until somebody takes it. -/
structure Network where
  nodes : List Node
  links : List Link
  nextUid : UInt64
  stats : Stats
  numbering : Numbering
  otherNumberings : Nat → Numbering
  reports : List Report

/-- What brings a simulation down. -/
inductive Fault where
  | noSuchNode (node : NodeId)
  | pipeline (switch : String) (error : PipelineError)
  | latencyOverflow
  | tooManyHosts (hosts : Nat)
  | payloadTooLong (length : Nat)
  deriving DecidableEq

def Fault.message : Fault → String
  | noSuchNode node => s!"there is no node {node}"
  | pipeline switch error => s!"{switch}: fatal pipeline error: {error.message}"
  | latencyOverflow => "the total latency does not fit 64 bits"
  | tooManyHosts hosts => s!"the addresses of {hosts} hosts do not fit the memory"
  | payloadTooLong length => s!"a payload of {length} bytes does not fit the memory"

namespace Node

def host? (n : Node) : Option (IpAddr × MacAddr) :=
  match n.kind with
  | .host ip mac => some (ip, mac)
  | .switch _ _ => none

/-- The pipeline of a switch. A busy switch cannot be reached. -/
def pipeline? (n : Node) : Option Pipeline :=
  if n.busy then none
  else
    match n.kind with
    | .host _ _ => none
    | .switch pipeline _ => some pipeline

/-- Puts another pipeline into a switch. -/
def setPipeline (n : Node) (pipeline : Pipeline) : Node :=
  match n.kind with
  | .host _ _ => n
  | .switch _ numbering => { n with kind := .switch pipeline numbering }

end Node

namespace Network

/-- The most bytes that anything can take in memory. -/
def maxBytes : Nat := UInt64.size / 2 - 1

def empty : Network :=
  ⟨[], [], 0, Stats.zero, Numbering.initial, fun _ => Numbering.initial, []⟩

/-- The numbering that goes by an identifier. -/
def numberingOf (net : Network) : NumberingId → Numbering
  | .shared => net.numbering
  | .other index => net.otherNumberings index

/-- Puts a numbering in the place of the one that goes by an identifier. -/
def setNumbering (net : Network) (id : NumberingId) (numbering : Numbering) : Network :=
  match id with
  | .shared => { net with numbering := numbering }
  | .other index =>
    { net with
      otherNumberings := fun i => if i = index then numbering else net.otherNumberings i }

def node? (net : Network) (id : NodeId) : Option Node := net.nodes[id]?

/-- The addresses of a host. -/
def host? (net : Network) (id : NodeId) : Option (IpAddr × MacAddr) := (net.node? id).bind (·.host?)

/-- The pipeline of a switch. -/
def pipeline? (net : Network) (id : NodeId) : Option Pipeline := (net.node? id).bind (·.pipeline?)

/-- The first host with an address. -/
def hostByIp? (net : Network) (ip : IpAddr) : Option NodeId :=
  net.nodes.findIdx? fun n => n.host?.any (·.1 == ip)

/-- Puts a node in the place of another. -/
def setNode (net : Network) (id : NodeId) (node : Node) : Network :=
  { net with nodes := net.nodes.set id node }

/-- Marks a node as busy, or as free again. -/
def setBusy (net : Network) (id : NodeId) (busy : Bool) : Network :=
  (net.node? id).elim net fun n => net.setNode id { n with busy := busy }

/-- Adds a node without ports. -/
def addNode (name : String) (kind : NodeKind) : StateM Network NodeId := fun net =>
  (net.nodes.length, { net with nodes := net.nodes ++ [⟨name, kind, [], false⟩] })

/-- Adds a host. Its link-layer address follows from its position. -/
def addHost (name : String) (ip : IpAddr) : StateM Network NodeId := do
  let mac := MacAddr.ofIndex (← get).nodes.length
  modify fun net => { net with stats := net.stats.onHost name id }
  addNode name (.host ip mac)

/-- Adds a switch with a numbering for its packets. -/
def addSwitchWith (numbering : NumberingId) (name : String) (pipeline : Pipeline) :
    StateM Network NodeId :=
  addNode name (.switch pipeline numbering)

/-- Adds a switch that shares its numbering. -/
def addSwitch (name : String) (pipeline : Pipeline) : StateM Network NodeId :=
  addSwitchWith .shared name pipeline

/-- Gives a node one more port. -/
def addPort (net : Network) (id : NodeId) (link : LinkId) : Network :=
  (net.node? id).elim net fun n => net.setNode id { n with ports := n.ports ++ [link] }

/-- A node that must exist. -/
def requireNode (id : NodeId) : EStateM Fault Network Node := do
  match (← get).node? id with
  | some node => return node
  | none => throw (.noSuchNode id)

/-- Connects two nodes both ways, and answers the number of the new port of each. The number is
settled before either port is made, so a node connected to itself answers one number twice. -/
def connect (a b : NodeId) (latency : Time) (bandwidth : Nat) :
    EStateM Fault Network (Nat × Nat) := do
  let portA := (← requireNode a).ports.length + 1
  let portB := (← requireNode b).ports.length + 1
  let first := (← get).links.length
  modify fun net =>
    { net with
      links := net.links ++
        [Link.new a b portB latency bandwidth, Link.new b a portA latency bandwidth] }
  modify fun net => (net.addPort a first).addPort b (first + 1)
  return (portA, portB)

/-- Takes a number for a frame. After the largest number comes zero again. -/
def takeUid : StateM Network Nat := fun net =>
  (net.nextUid.toNat, { net with nextUid := net.nextUid + 1 })

/-- Takes what the controls reported. -/
def takeReports : StateM Network (List Report) := fun net =>
  (net.reports, { net with reports := [] })

/-- Carries out a command on a switch. -/
def command (id : NodeId) (line : String) : EStateM Error Network (Option Nat) := fun net =>
  match net.node? id, net.pipeline? id with
  | some node, some pipeline =>
    match Pipeline.runLine line pipeline with
    | .ok handle pipeline => .ok handle (net.setNode id (node.setPipeline pipeline))
    | .error e pipeline => .error e (net.setNode id (node.setPipeline pipeline))
  | _, _ => .error (.badCommand line (.notASwitch id)) net

end Network

end Switchyard
