import Switchyard.Numeral
import Switchyard.Pipeline.Control

/-!
# Scripts

A script is a control written as a list of steps, run in order. A step that names what is not
declared ends the script; what the steps before it did stays done.
-/

namespace Switchyard

/-- A step of a script. -/
inductive ScriptStep where
  | set (field : String) (value : Nat)
  | copy (target source : String)
  | add (field : String) (value : Nat)
  | setValid (header : String) (valid : Bool)
  | exit
  | setData (data : Bytes)
  | setPayloadOffset (offset : Nat)
  | lookup (table target : String)
  | ifField (field : String) (value : Nat) (body : List ScriptStep)
  | ifValid (header : String) (body : List ScriptStep)
  | log (fields : List String)

/-- A script. -/
abbrev Script := List ScriptStep

/-- A packet and what has been reported about it. -/
structure ScriptState where
  packet : Packet
  reports : List Report

/-- Steps change the packet and report; an error ends the script. -/
abbrev ScriptM := EStateM Error ScriptState

namespace Script

/-- Changes the packet. -/
def change (f : Packet → Packet) : ScriptM Unit := modify fun s => { s with packet := f s.packet }

/-- Changes the packet, unless that fails. -/
def tryChange (f : Packet → Except Error Packet) : ScriptM Unit := do
  let pkt ← MonadExcept.ofExcept (f (← get).packet)
  change fun _ => pkt

/-- Reports something. -/
def tell (report : Report) : ScriptM Unit :=
  modify fun s => { s with reports := s.reports ++ [report] }

/-- Stores a value in a field. -/
def setField (field : String) (value : Nat) : ScriptM Unit := tryChange (·.setField field value)

/-- The value of a field; zero where there is no field. -/
def valueOf (field : String) : ScriptM Nat := do return ((← get).packet.field? field).getD 0

/-- Looks the packet up, reports the answer, and stores the first argument of a call in a field. -/
def lookupInto (tables : TableStore) (table target : String) : ScriptM Unit := do
  let call := tables.lookupPacket table (← get).packet
  tell (.lookup call)
  match call with
  | some call => setField target (call.arg 0)
  | none => return

/-- Reports the values of fields. -/
def logFields (stage : Stage) (fields : List String) : ScriptM Unit := do
  let pkt := (← get).packet
  tell (.fields stage pkt.copyId pkt.exited (fields.map pkt.field?))

mutual

/-- Carries out one step. -/
def runStep (stage : Stage) (tables : TableStore) : ScriptStep → ScriptM Unit
  | .set field value => setField field value
  | .copy target source => do setField target (← valueOf source)
  | .add field value => do setField field (((← valueOf field) + value) % valueBound)
  | .setValid header valid => tryChange (·.setHeaderValid header valid)
  | .exit => change ({ · with exited := true })
  | .setData data => change (·.setData data)
  | .setPayloadOffset offset => change (·.setPayloadOffset offset)
  | .lookup table target => lookupInto tables table target
  | .ifField field value body => do
    if (← get).packet.field? field = some value then runSteps stage tables body
  | .ifValid header body => do
    if (← get).packet.headerValid header then runSteps stage tables body
  | .log fields => logFields stage fields

/-- Carries out steps in order. -/
def runSteps (stage : Stage) (tables : TableStore) : List ScriptStep → ScriptM Unit
  | [] => return
  | step :: steps => do
    runStep stage tables step
    runSteps stage tables steps

end

/-- The control that a script makes for a stage. An error is the last thing that it reports. -/
def control (stage : Stage) (script : Script) : Control := fun tables pkt =>
  match runSteps stage tables script ⟨pkt, []⟩ with
  | .ok _ s => (s.packet, s.reports)
  | .error e s => (s.packet, s.reports ++ [.failure e])

end Script

/-- The controls that two scripts make. -/
def Controls.ofScripts (ingress egress : Script) : Controls :=
  ⟨Script.control .ingress ingress, Script.control .egress egress⟩

end Switchyard
