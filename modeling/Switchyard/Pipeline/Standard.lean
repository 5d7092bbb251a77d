import Switchyard.Error
import Switchyard.Program.Layout

/-!
# Standard metadata

The metadata fields through which a pipeline and a program talk to each other. A program must
declare those that forwarding needs; it gets the others only if it declares them.
-/

namespace Switchyard

/-- The positions of the standard fields in the layout of a program. -/
structure StandardFields where
  ingressPort : FieldId
  packetLength : FieldId
  instanceType : FieldId
  egressSpec : FieldId
  egressPort : FieldId
  ingressTime : Option FieldId
  egressTime : Option FieldId
  parserError : Option FieldId
  checksumError : Option FieldId
  group : Option FieldId
  rid : Option FieldId
  deriving DecidableEq, Inhabited

namespace StandardFields

def ingressPortName : String := "standard_metadata.ingress_port"

def packetLengthName : String := "standard_metadata.packet_length"

def instanceTypeName : String := "standard_metadata.instance_type"

def egressSpecName : String := "standard_metadata.egress_spec"

def egressPortName : String := "standard_metadata.egress_port"

/-- The fields that every program must declare. -/
def requiredNames : List String :=
  [ingressPortName, packetLengthName, instanceTypeName, egressSpecName, egressPortName]

/-- The position of a field that must be declared. -/
def require (L : Layout) (name : String) : Except PipelineError FieldId :=
  (L.fieldId? name).elim (.error (.missingRequiredField name)) .ok

/-- The standard fields of a layout; the first required field that is missing is the error. -/
def ofLayout (L : Layout) : Except PipelineError StandardFields := do
  return {
    ingressPort := ← require L ingressPortName
    packetLength := ← require L packetLengthName
    instanceType := ← require L instanceTypeName
    egressSpec := ← require L egressSpecName
    egressPort := ← require L egressPortName
    ingressTime := L.fieldId? "intrinsic_metadata.ingress_global_timestamp"
    egressTime := L.fieldId? "intrinsic_metadata.egress_global_timestamp"
    parserError := L.fieldId? "standard_metadata.parser_error"
    checksumError := L.fieldId? "standard_metadata.checksum_error"
    group := L.fieldId? "intrinsic_metadata.mcast_grp"
    rid := L.fieldId? "intrinsic_metadata.egress_rid" }

end StandardFields

end Switchyard
