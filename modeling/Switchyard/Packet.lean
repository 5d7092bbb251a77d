import Switchyard.Bits
import Switchyard.Program.Layout

/-!
# Packets

A packet under way through a program: its bytes, and beside them one value for each field and one
validity flag for each header of the program's layout. Metadata headers are always valid; the other
headers become valid when the parser extracts them.

Values are cut to the width of their field when they are stored.
-/

namespace Switchyard

/-- How a parse ended. -/
inductive ParserError where
  | noError
  | packetTooShort
  | noMatch
  | stackOutOfBounds
  | headerTooShort
  | parserTimeout
  deriving DecidableEq, Inhabited

namespace ParserError

/-- The code of the P4 core library. -/
def code : ParserError → Nat
  | noError => 0
  | packetTooShort => 1
  | noMatch => 2
  | stackOutOfBounds => 3
  | headerTooShort => 4
  | parserTimeout => 5

/-- All parser errors, in the order of their codes. -/
def all : List ParserError :=
  [noError, packetTooShort, noMatch, stackOutOfBounds, headerTooShort, parserTimeout]

end ParserError

/-- How a packet came about. -/
inductive InstanceType where
  | normal
  | ingressClone
  | egressClone
  | coalesced
  | recirc
  | replication
  | resubmit
  deriving DecidableEq, Inhabited

namespace InstanceType

/-- The value of `standard_metadata.instance_type`. -/
def code : InstanceType → Nat
  | normal => 0
  | ingressClone => 1
  | egressClone => 2
  | coalesced => 3
  | recirc => 4
  | replication => 5
  | resubmit => 6

/-- All instance types, in the order of their codes. -/
def all : List InstanceType :=
  [normal, ingressClone, egressClone, coalesced, recirc, replication, resubmit]

end InstanceType

/-- A packet. A packet that is no copy has copy number zero. The bytes from `payloadOffset` on are
the payload that no header covers. -/
structure Packet where
  id : Nat
  copyId : Nat
  ingressPort : Nat
  data : Bytes
  layout : Layout
  values : List Nat
  valid : List Bool
  payloadOffset : Nat
  parserError : ParserError
  checksumError : Bool
  exited : Bool
  deriving DecidableEq, Inhabited

namespace Packet

/-- A packet that has not been parsed. -/
def new (id ingressPort : Nat) (data : Bytes) (layout : Layout) : Packet :=
  { id, ingressPort, data, layout
    copyId := 0
    values := List.replicate layout.fields.length 0
    valid := layout.headers.map (·.metadata)
    payloadOffset := 0
    parserError := .noError
    checksumError := false
    exited := false }

/-- The value of a field. -/
def get (pkt : Packet) (id : FieldId) : Nat := pkt.values.getD id 0

/-- Stores the bits of a value that fit the field. -/
def set (pkt : Packet) (id : FieldId) (value : Nat) : Packet :=
  { pkt with values := pkt.values.set id (value % Nat.pow 2 (pkt.layout.width id)) }

/-- The value of a field by name. -/
def field? (pkt : Packet) (name : String) : Option Nat := (pkt.layout.fieldId? name).map pkt.get

/-- Stores a value in a field by name. -/
def setField (pkt : Packet) (name : String) (value : Nat) : Except Error Packet := do
  return pkt.set (← pkt.layout.requireField name) value

def isValid (pkt : Packet) (id : HeaderId) : Bool := pkt.valid.getD id false

def setValid (pkt : Packet) (id : HeaderId) (valid : Bool) : Packet :=
  { pkt with valid := pkt.valid.set id valid }

/-- Is the named header valid? A header that is not declared is not. -/
def headerValid (pkt : Packet) (name : String) : Bool :=
  (pkt.layout.headerId? name).any pkt.isValid

/-- Sets the validity of a header by name. -/
def setHeaderValid (pkt : Packet) (name : String) (valid : Bool) : Except Error Packet := do
  return pkt.setValid (← pkt.layout.requireHeader name) valid

/-- The positions of all metadata fields. -/
def metadataFields (layout : Layout) : List FieldId :=
  (layout.headers.filter (·.metadata)).flatMap fun h => List.range' h.first h.count

/-- Sets all metadata fields to zero. -/
def resetMetadata (pkt : Packet) : Packet :=
  { pkt with
    values := (metadataFields pkt.layout).foldl (fun values id => values.set id 0) pkt.values }

/-- Replaces the bytes. The payload offset stays as it is. -/
def setData (pkt : Packet) (data : Bytes) : Packet := { pkt with data := data }

/-- Moves the payload offset, at most to the end of the bytes. -/
def setPayloadOffset (pkt : Packet) (offset : Nat) : Packet :=
  { pkt with payloadOffset := min offset pkt.data.length }

/-- A copy with a number of its own. -/
def copy (pkt : Packet) (copyId : Nat) : Packet := { pkt with copyId := copyId }

/-- The payload: the bytes that no header covers. -/
def payload (pkt : Packet) : Bytes := pkt.data.drop pkt.payloadOffset

end Packet

end Switchyard
