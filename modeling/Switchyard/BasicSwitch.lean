import Switchyard.BasicSwitch.Description
import Switchyard.Pipeline

/-!
# The basic switch

Ingress looks the destination address up and takes the port or the multicast group that it finds;
whatever is neither IPv4 nor IPv6, has a bad header checksum or finds nothing else is dropped.
Egress drops multicast copies that would go back where they came from or that the filter names, and
counts the time to live or the hop limit down; a packet that has no hop left is dropped.

The controls work for any program that declares the fields they use.
-/

namespace Switchyard

/-- The positions of what the controls of the basic switch use. -/
structure BasicSwitch where
  ingressPort : FieldId
  egressSpec : FieldId
  egressPort : FieldId
  instanceType : FieldId
  checksumError : FieldId
  group : FieldId
  ipv4 : HeaderId
  ttl : FieldId
  ipv6 : HeaderId
  hopLimit : FieldId
  deriving DecidableEq, Inhabited

namespace BasicSwitch

/-- The positions in a layout; the first name that is not declared is the error. -/
def ofLayout (L : Layout) : Except Error BasicSwitch := do
  return {
    ingressPort := ← L.requireField "standard_metadata.ingress_port"
    egressSpec := ← L.requireField "standard_metadata.egress_spec"
    egressPort := ← L.requireField "standard_metadata.egress_port"
    instanceType := ← L.requireField "standard_metadata.instance_type"
    checksumError := ← L.requireField "standard_metadata.checksum_error"
    group := ← L.requireField "intrinsic_metadata.mcast_grp"
    ipv4 := ← L.requireHeader "ipv4"
    ttl := ← L.requireField "ipv4.ttl"
    ipv6 := ← L.requireHeader "ipv6"
    hopLimit := ← L.requireField "ipv6.hop_limit" }

/-- Marks a packet to be dropped by a switch with the default drop port. -/
def drop (s : BasicSwitch) (pkt : Packet) : Packet :=
  pkt.set s.egressSpec PipelineConfig.defaultDropPort

/-- What the tables say of the destination of a packet. -/
def route (s : BasicSwitch) (tables : TableStore) (pkt : Packet) : Option ActionCall :=
  if pkt.isValid s.ipv4 then tables.lookupPacket "ipv4_lpm" pkt
  else if pkt.isValid s.ipv6 then tables.lookupPacket "ipv6_lpm" pkt
  else none

/-- Carries out the call that a table answered with. -/
def apply (s : BasicSwitch) (call : Option ActionCall) (pkt : Packet) : Packet :=
  match call with
  | none => s.drop pkt
  | some call =>
    if call.action = "forward" then pkt.set s.egressSpec (call.arg 0)
    else if call.action = "multicast" then pkt.set s.group (call.arg 0)
    else s.drop pkt

def ingress (s : BasicSwitch) (tables : TableStore) (pkt : Packet) : Packet :=
  if pkt.get s.checksumError ≠ 0 then s.drop pkt else s.apply (s.route tables pkt) pkt

/-- Is the packet a multicast copy that must not leave? -/
def isPruned (s : BasicSwitch) (tables : TableStore) (pkt : Packet) : Bool :=
  pkt.get s.instanceType == InstanceType.replication.code &&
    (pkt.get s.egressPort == pkt.get s.ingressPort || (tables.lookupPacket "rid_filter" pkt).isSome)

/-- The field that counts the hops left, if the packet has one. -/
def hopField? (s : BasicSwitch) (pkt : Packet) : Option FieldId :=
  if pkt.isValid s.ipv4 then some s.ttl
  else if pkt.isValid s.ipv6 then some s.hopLimit
  else none

/-- Takes a hop off, or drops the packet if none would be left. -/
def takeHop (s : BasicSwitch) (pkt : Packet) : Packet :=
  match s.hopField? pkt with
  | none => pkt
  | some id => if pkt.get id ≤ 1 then s.drop pkt else pkt.set id (pkt.get id - 1)

def egress (s : BasicSwitch) (tables : TableStore) (pkt : Packet) : Packet :=
  if s.isPruned tables pkt then s.drop pkt else s.takeHop pkt

def controls (s : BasicSwitch) : Controls := ⟨Control.silent s.ingress, Control.silent s.egress⟩

/-- A pipeline that runs a program as a basic switch. -/
def pipeline (description : Description) (config : PipelineConfig) :
    EStateM PipelineError Numbering Pipeline := do
  let program ← MonadExcept.ofExcept ((Program.load description).mapError .control)
  let s ← MonadExcept.ofExcept ((ofLayout program.layout).mapError .control)
  Pipeline.new program s.controls config

end BasicSwitch

end Switchyard
