import Switchyard.Pipeline
import Switchyard.Proofs.Packet
import Switchyard.Proofs.Sequencing

/-!
# Metadata by name

A pipeline finds the standard fields once, when it is made, and later stores values at their positions,
one after another. Because no two fields share a name, that comes to the same as giving all named fields
their values at once: `Packet.assign`.
-/

namespace Switchyard

open Sequencing

namespace StandardFields

/-- The fields are those that the layout has under their names. -/
structure Resolved (L : Layout) (fields : StandardFields) : Prop where
  ingressPort : L.fieldId? ingressPortName = some fields.ingressPort
  packetLength : L.fieldId? packetLengthName = some fields.packetLength
  instanceType : L.fieldId? instanceTypeName = some fields.instanceType
  egressSpec : L.fieldId? egressSpecName = some fields.egressSpec
  egressPort : L.fieldId? egressPortName = some fields.egressPort
  ingressTime : L.fieldId? "intrinsic_metadata.ingress_global_timestamp" = fields.ingressTime
  egressTime : L.fieldId? "intrinsic_metadata.egress_global_timestamp" = fields.egressTime
  parserError : L.fieldId? "standard_metadata.parser_error" = fields.parserError
  checksumError : L.fieldId? "standard_metadata.checksum_error" = fields.checksumError
  group : L.fieldId? "intrinsic_metadata.mcast_grp" = fields.group
  rid : L.fieldId? "intrinsic_metadata.egress_rid" = fields.rid

theorem require_eq_ok {L : Layout} {name : String} {id : FieldId} :
    require L name = .ok id ↔ L.fieldId? name = some id :=
  elim_eq_ok

theorem resolved_of_ofLayout {L : Layout} {fields : StandardFields}
    (made : ofLayout L = .ok fields) : Resolved L fields := by
  obtain ⟨ingressPort, foundIngressPort, made⟩ := bind_eq_ok.mp made
  obtain ⟨packetLength, foundPacketLength, made⟩ := bind_eq_ok.mp made
  obtain ⟨instanceType, foundInstanceType, made⟩ := bind_eq_ok.mp made
  obtain ⟨egressSpec, foundEgressSpec, made⟩ := bind_eq_ok.mp made
  obtain ⟨egressPort, foundEgressPort, made⟩ := bind_eq_ok.mp made
  obtain rfl := Except.ok.inj made
  exact ⟨require_eq_ok.mp foundIngressPort, require_eq_ok.mp foundPacketLength,
    require_eq_ok.mp foundInstanceType, require_eq_ok.mp foundEgressSpec,
    require_eq_ok.mp foundEgressPort, rfl, rfl, rfl, rfl, rfl, rfl⟩

end StandardFields

namespace Packet

/-- The value that a list of named values has for a field. -/
def assigned? (L : Layout) (new : List (String × Nat)) (id : FieldId) : Option Nat :=
  L.fields[id]?.bind fun f => new.lookup f.name

/-- The packet with values for the named fields, all at once. Names that are not declared do not
count. -/
def assign (pkt : Packet) (new : List (String × Nat)) : Packet :=
  { pkt with
    values := pkt.values.mapIdx fun id old =>
      (assigned? pkt.layout new id).elim old fun value => value % Nat.pow 2 (pkt.layout.width id) }

variable {pkt : Packet} {name : String} {value : Nat} {new : List (String × Nat)}

theorem assigned?_nil (L : Layout) (id : FieldId) : assigned? L [] id = none := by
  unfold assigned?
  cases L.fields[id]? <;> rfl

/-- The first value for a name counts. -/
theorem assigned?_cons {L : Layout} (layout : L.WellFormed) (id : FieldId) :
    assigned? L ((name, value) :: new) id =
      if L.fieldId? name = some id then some value else assigned? L new id := by
  simp only [layout.fieldId?_eq_some, assigned?]
  cases L.fields[id]? with
  | none => rfl
  | some f =>
    by_cases same : f.name = name
    · simp [same]
    · have other : (f.name == name) = false := beq_eq_false_iff_ne.mpr same
      simp [same, other, List.lookup_cons]

@[simp] theorem assign_nil (pkt : Packet) : pkt.assign [] = pkt := by
  have values : (pkt.assign []).values = pkt.values := by
    apply List.ext_getElem?
    intro id
    simp [assign, List.getElem?_mapIdx, assigned?_nil]
  exact congrArg (fun values => { pkt with values := values }) values

/-- Giving values at once is the same as storing them one by one, the last name first. -/
theorem assign_cons (layout : pkt.layout.WellFormed) :
    pkt.assign ((name, value) :: new) =
      Pipeline.setOptional (pkt.layout.fieldId? name) value (pkt.assign new) := by
  have values : (pkt.assign ((name, value) :: new)).values =
      (Pipeline.setOptional (pkt.layout.fieldId? name) value (pkt.assign new)).values := by
    apply List.ext_getElem?
    intro id
    simp only [assign, List.getElem?_mapIdx, assigned?_cons layout]
    cases found : pkt.layout.fieldId? name with
    | none => simp [Pipeline.setOptional]
    | some target =>
      by_cases same : target = id
      · subst same
        by_cases declared : target < pkt.values.length
        · simp [Pipeline.setOptional, set, declared]
        · simp [Pipeline.setOptional, set, declared]
      · simp [Pipeline.setOptional, set, List.getElem?_set_ne same, List.getElem?_mapIdx, same]
  cases found : pkt.layout.fieldId? name with
  | none =>
    rw [found] at values
    exact congrArg (fun values => { pkt with values := values }) values
  | some target =>
    rw [found] at values
    exact congrArg (fun values => { pkt with values := values }) values

theorem assign_edits (layout : pkt.layout.WellFormed) (new : List (String × Nat)) :
    Edits pkt (pkt.assign new) := by
  induction new with
  | nil =>
    rw [assign_nil]
    exact Edits.refl
  | cons first new ih =>
    rw [assign_cons layout]
    cases pkt.layout.fieldId? first.1 with
    | none => exact ih
    | some id => exact ih.set id first.2

/-- An assigned value reads back, cut to the width of its field. -/
theorem get_assign (wf : pkt.WellFormed) {id : FieldId}
    (assigned : assigned? pkt.layout new id = some value) :
    (pkt.assign new).get id = value % Nat.pow 2 (pkt.layout.width id) := by
  have declared : id < pkt.values.length := by
    obtain ⟨f, found, -⟩ := Option.bind_eq_some_iff.mp assigned
    exact wf.lt_values (List.getElem?_eq_some_iff.mp found).1
  simp [get, assign, List.getElem?_mapIdx, List.getElem?_eq_getElem declared, assigned]

/-- A field without a value for its name keeps what it has. -/
theorem get_assign_of_none {id : FieldId} (unnamed : assigned? pkt.layout new id = none) :
    (pkt.assign new).get id = pkt.get id := by
  simp only [get, assign, List.getD_eq_getElem?_getD, List.getElem?_mapIdx, unnamed, Option.elim_none]
  cases pkt.values[id]? <;> rfl

end Packet

end Switchyard
