import Switchyard.Pipeline.Script
import Switchyard.Proofs.Pipeline.Forwarding

/-!
# Scripts that store a value

A script with one step that stores a value changes that field and nothing else; where the field is not
declared it changes nothing and reports so. The empty script does nothing.
-/

namespace Switchyard

open Packet

namespace Script

variable {stage : Stage} {tables : TableStore} {pkt : Packet} {field : String} {value : Nat}
  {id : FieldId}

theorem setField_declared (found : pkt.layout.fieldId? field = some id) :
    pkt.setField field value = .ok (pkt.set id value) := by
  unfold Packet.setField Layout.requireField
  rw [found]
  rfl

theorem setField_undeclared (missing : pkt.layout.fieldId? field = none) :
    pkt.setField field value = .error (.unknownField field) := by
  unfold Packet.setField Layout.requireField
  rw [missing]
  rfl

theorem tryChange_ok {f : Packet → Except Error Packet} {s : ScriptState} {changed : Packet}
    (done : f s.packet = .ok changed) : tryChange f s = .ok () { s with packet := changed } := by
  show EStateM.bind (MonadExcept.ofExcept (f s.packet)) _ s = _
  rw [done]
  rfl

theorem tryChange_error {f : Packet → Except Error Packet} {s : ScriptState} {e : Error}
    (failed : f s.packet = .error e) : tryChange f s = .error e s := by
  show EStateM.bind (MonadExcept.ofExcept (f s.packet)) _ s = _
  rw [failed]
  rfl

theorem control_set (found : pkt.layout.fieldId? field = some id) :
    Script.control stage [.set field value] tables pkt = (pkt.set id value, []) := by
  have run : runSteps stage tables [.set field value] ⟨pkt, []⟩ =
      .ok () ⟨pkt.set id value, []⟩ := by
    rw [runSteps, runStep, runSteps]
    show EStateM.bind (tryChange (·.setField field value)) _ _ = _
    unfold EStateM.bind
    rw [tryChange_ok (setField_declared found)]
    rfl
  unfold Script.control
  rw [run]

theorem control_set_undeclared (missing : pkt.layout.fieldId? field = none) :
    Script.control stage [.set field value] tables pkt =
      (pkt, [.failure (.unknownField field)]) := by
  have run : runSteps stage tables [.set field value] ⟨pkt, []⟩ =
      .error (.unknownField field) ⟨pkt, []⟩ := by
    rw [runSteps, runStep, runSteps]
    show EStateM.bind (tryChange (·.setField field value)) _ _ = _
    unfold EStateM.bind
    rw [tryChange_error (setField_undeclared missing)]
  unfold Script.control
  rw [run]
  rfl

theorem control_nil (stage : Stage) (tables : TableStore) (pkt : Packet) :
    Script.control stage [] tables pkt = (pkt, []) := by
  unfold Script.control
  rw [runSteps]
  rfl

theorem control_set_fieldsOnly (stage : Stage) (field : String) (value : Nat) :
    (Script.control stage [.set field value]).FieldsOnly := by
  refine ⟨?_, ?_⟩
  · intro tables pkt
    cases found : pkt.layout.fieldId? field with
    | none =>
      rw [control_set_undeclared found]
      exact Edits.refl
    | some id =>
      rw [control_set found]
      exact Edits.refl.set id value
  · intro tables pkt other same
    cases found : pkt.layout.fieldId? field with
    | none =>
      rw [control_set_undeclared found, control_set_undeclared (same.layout ▸ found)]
      exact same
    | some id =>
      rw [control_set found, control_set (same.layout ▸ found)]
      exact same.set id value

theorem control_nil_fieldsOnly (stage : Stage) : (Script.control stage []).FieldsOnly := by
  refine ⟨?_, ?_⟩
  · intro tables pkt
    rw [control_nil]
    exact Edits.refl
  · intro tables pkt other same
    rw [control_nil, control_nil]
    exact same

end Script

end Switchyard
