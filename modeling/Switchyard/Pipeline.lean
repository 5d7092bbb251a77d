import Switchyard.Control.Plane
import Switchyard.Packet.Deparse
import Switchyard.Packet.Parse
import Switchyard.Pipeline.Boundary
import Switchyard.Pipeline.Control
import Switchyard.Pipeline.Numbering
import Switchyard.Pipeline.Standard

/-!
# Pipelines

A pipeline takes a frame through a program. Ingress parses the packet and runs the first control.
Then the traffic manager decides, once for each frame: into the copies of a multicast group if one
is set, else to the port in `egress_spec`, unless that is the drop port. Egress runs the second
control on every copy by itself, and each copy that is not dropped there leaves as a frame.

Processing changes nothing but the packet counter: controls have no state of their own, and the
tables and the multicast engine change by commands only.
-/

namespace Switchyard

/-- What can be set for a pipeline. A packet with the drop port in `egress_spec` is dropped. -/
structure PipelineConfig where
  name : String
  maxFrame : Nat
  dropPort : Nat
  deriving DecidableEq, Inhabited

/-- The drop port, unless another one is asked for. -/
def PipelineConfig.defaultDropPort : Nat := 511

/-- The default settings under a name. -/
def PipelineConfig.named (name : String) : PipelineConfig :=
  ⟨name, Boundary.defaultMaxFrame, defaultDropPort⟩

def PipelineConfig.default : PipelineConfig := named "p4"

/-- A pipeline that is ready to process frames. -/
structure Pipeline where
  config : PipelineConfig
  boundary : Boundary
  program : Program
  controls : Controls
  fields : StandardFields
  controlPort : Nat
  plane : ControlPlane

/-- A frame to send, and the port to send it by. -/
structure Emission where
  port : Nat
  frame : Frame
  deriving DecidableEq, Inhabited

/-- A packet on its way to a port. -/
structure Queued where
  port : Nat
  packet : Packet
  deriving DecidableEq, Inhabited

/-- What became of a frame: the frames to send, and what the controls reported. -/
structure Outcome where
  emissions : List Emission
  reports : List Report
  deriving DecidableEq

/-- What became of one copy: the frame to send, unless it was dropped, and the reports. -/
structure Departure where
  emission : Option Emission
  reports : List Report
  deriving DecidableEq

namespace Pipeline

/-- A pipeline for a program. A control port is taken only if the program declares what it must. -/
def new (program : Program) (controls : Controls) (config : PipelineConfig) :
    EStateM PipelineError Numbering Pipeline := do
  let fields ← MonadExcept.ofExcept (StandardFields.ofLayout program.layout)
  let controlPort ← modifyGet Numbering.takeControlPort
  return {
    config, program, controls, fields, controlPort
    boundary := Boundary.standard config.maxFrame
    plane := ⟨program.tables, Multicast.empty⟩ }

/-- Runs an operation on the control plane of the pipeline. -/
def onPlane {α : Type} (op : ControlM α) : EStateM Error Pipeline α := fun p =>
  match op p.plane with
  | .ok a plane => .ok a { p with plane := plane }
  | .error e plane => .error e { p with plane := plane }

/-- Reads a command and carries it out. -/
def runLine (line : String) : EStateM Error Pipeline (Option Nat) :=
  onPlane (ControlPlane.runLine line)

/-- Carries out the commands of a batch, up to the first that fails. -/
def runBatch (batch : String) : EStateM Error Pipeline (List (Option Nat)) :=
  onPlane (ControlPlane.runBatch batch)

/-- Stores a value in an optional field. -/
def setOptional (id : Option FieldId) (value : Nat) (pkt : Packet) : Packet :=
  id.elim pkt fun id => pkt.set id value

/-- The packet as the parser gets it: all metadata is zero but what ingress knows. -/
def prepare (p : Pipeline) (port : Nat) (now : Time) (pkt : Packet) : Packet :=
  let length := pkt.data.length
  let pkt := pkt.resetMetadata.set p.fields.packetLength length
  let pkt := pkt.set p.fields.instanceType InstanceType.normal.code
  let pkt := setOptional p.fields.ingressTime now.toNat pkt
  pkt.set p.fields.ingressPort port

/-- Parses a packet and shows the control how that ended. -/
def parse (p : Pipeline) (pkt : Packet) : Packet :=
  let pkt := p.program.parse pkt
  let pkt := setOptional p.fields.parserError pkt.parserError.code pkt
  setOptional p.fields.checksumError pkt.checksumError.toNat pkt

/-- The ingress stage. Leaving the control early ends with the stage. -/
def ingress (p : Pipeline) (port : Nat) (now : Time) (pkt : Packet) : Packet × List Report :=
  let (pkt, reports) := p.controls.ingress p.plane.tables (p.parse (p.prepare port now pkt))
  ({ pkt with exited := false }, reports)

/-- Is the packet marked to be dropped? -/
def isDropped (p : Pipeline) (pkt : Packet) : Bool :=
  pkt.get p.fields.egressSpec == p.config.dropPort

/-- Port and group numbers have 32 bits. -/
def word (n : Nat) : Nat := n % UInt32.size

/-- The copies of a packet for a multicast group, numbered from one. -/
def multicastCopies (p : Pipeline) (pkt : Packet) (group : Nat) : List Queued :=
  (p.plane.multicast.replicate group).zipIdx.map fun (replica, index) =>
    ⟨replica.egressPort, setOptional p.fields.rid replica.rid (pkt.copy (index + 1))⟩

/-- The multicast group that is set in a packet; zero is none. -/
def groupOf (p : Pipeline) (pkt : Packet) : Nat := p.fields.group.elim 0 pkt.get

/-- The traffic manager: the packets that go to egress, with their ports. -/
def queue (p : Pipeline) (pkt : Packet) : List Queued :=
  let group := p.groupOf pkt
  if group ≠ 0 then
    p.multicastCopies (pkt.set p.fields.instanceType InstanceType.replication.code) (word group)
  else if p.isDropped pkt then []
  else
    [⟨word (pkt.get p.fields.egressSpec),
      pkt.set p.fields.instanceType InstanceType.normal.code⟩]

/-- The egress stage. A packet comes to its control with the number after the drop port in
`egress_spec`, so that it stays unless the control drops it. -/
def egress (p : Pipeline) (length : Nat) (now : Time) (queued : Queued) : Packet × List Report :=
  let pkt := setOptional p.fields.egressTime now.toNat queued.packet
  let pkt := pkt.set p.fields.egressPort queued.port
  let pkt := pkt.set p.fields.egressSpec (p.config.dropPort + 1)
  let pkt := pkt.set p.fields.packetLength length
  p.controls.egress p.plane.tables pkt

/-- Takes a copy through egress and out. -/
def depart (p : Pipeline) (origin : Frame) (now : Time) (queued : Queued) :
    Except PipelineError Departure := do
  let (pkt, reports) := p.egress origin.length now queued
  if p.isDropped pkt then return ⟨none, reports⟩
  let pkt ← p.program.deparse pkt
  return ⟨some ⟨queued.port, p.boundary.leave pkt origin⟩, reports⟩

/-- What becomes of a frame that is packet number `id`. -/
def outcome (p : Pipeline) (id : Nat) (frame : Frame) (port : Nat) (now : Time) :
    Except PipelineError Outcome := do
  let pkt ← p.boundary.enter frame id port p.program.layout
  let (pkt, reports) := p.ingress port now pkt
  let departures ← (p.queue pkt).mapM (p.depart frame now)
  return ⟨departures.filterMap (·.emission), reports ++ departures.flatMap (·.reports)⟩

/-- Processes a frame. The frame takes a packet number even if it is too large. -/
def process (p : Pipeline) (frame : Frame) (port : Nat) (now : Time) :
    EStateM PipelineError Numbering Outcome := do
  let id ← modifyGet Numbering.takePacket
  MonadExcept.ofExcept (p.outcome id frame port now)

end Pipeline

end Switchyard
