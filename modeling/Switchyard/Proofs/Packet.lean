import Switchyard.Packet
import Switchyard.Proofs.Program.Layout

/-!
# Fields and validity of packets

Storing a value changes one field and nothing else of a packet; setting a validity flag changes one
flag. A packet is well-formed when it has a value for every field, each within its width, a flag for
every header, and a payload inside its bytes; every operation keeps that. `Edits` relates two packets
of which the second comes from the first by storing values and setting flags only, `Descends` two of
which the second may also have been parsed.
-/

namespace Switchyard

namespace Packet

variable {pkt : Packet} {id other : FieldId} {value : Nat}

/-! ## Storing a value -/

@[simp] theorem set_layout (pkt : Packet) (id : FieldId) (value : Nat) :
    (pkt.set id value).layout = pkt.layout := rfl

@[simp] theorem set_data (pkt : Packet) (id : FieldId) (value : Nat) :
    (pkt.set id value).data = pkt.data := rfl

@[simp] theorem set_valid (pkt : Packet) (id : FieldId) (value : Nat) :
    (pkt.set id value).valid = pkt.valid := rfl

@[simp] theorem set_payloadOffset (pkt : Packet) (id : FieldId) (value : Nat) :
    (pkt.set id value).payloadOffset = pkt.payloadOffset := rfl

@[simp] theorem set_isValid (pkt : Packet) (id : FieldId) (value : Nat) (header : HeaderId) :
    (pkt.set id value).isValid header = pkt.isValid header := rfl

@[simp] theorem set_payload (pkt : Packet) (id : FieldId) (value : Nat) :
    (pkt.set id value).payload = pkt.payload := rfl

@[simp] theorem set_checksumError (pkt : Packet) (id : FieldId) (value : Nat) :
    (pkt.set id value).checksumError = pkt.checksumError := rfl

@[simp] theorem length_set_values (pkt : Packet) (id : FieldId) (value : Nat) :
    (pkt.set id value).values.length = pkt.values.length :=
  List.length_set

/-- A stored value reads back, cut to the width of its field. -/
theorem get_set_self (declared : id < pkt.values.length) :
    (pkt.set id value).get id = value % Nat.pow 2 (pkt.layout.width id) := by
  simp only [get, set, List.getD_eq_getElem?_getD, List.getElem?_set_self declared,
    Option.getD_some]

theorem get_set_ne (different : id ≠ other) : (pkt.set id value).get other = pkt.get other := by
  simp only [get, set, List.getD_eq_getElem?_getD, List.getElem?_set_ne different]

/-- Leaving a control is no change of a field. -/
theorem get_exited (pkt : Packet) (flag : Bool) (id : FieldId) :
    ({ pkt with exited := flag } : Packet).get id = pkt.get id := rfl

@[simp] theorem setValid_layout (pkt : Packet) (header : HeaderId) (flag : Bool) :
    (pkt.setValid header flag).layout = pkt.layout := rfl

@[simp] theorem setValid_data (pkt : Packet) (header : HeaderId) (flag : Bool) :
    (pkt.setValid header flag).data = pkt.data := rfl

@[simp] theorem setValid_get (pkt : Packet) (header : HeaderId) (flag : Bool) (id : FieldId) :
    (pkt.setValid header flag).get id = pkt.get id := rfl

theorem isValid_setValid_self {header : HeaderId} {flag : Bool}
    (declared : header < pkt.valid.length) : (pkt.setValid header flag).isValid header = flag := by
  simp only [isValid, setValid, List.getD_eq_getElem?_getD, List.getElem?_set_self declared,
    Option.getD_some]

theorem isValid_setValid_ne {header another : HeaderId} {flag : Bool}
    (different : header ≠ another) :
    (pkt.setValid header flag).isValid another = pkt.isValid another := by
  simp only [isValid, setValid, List.getD_eq_getElem?_getD, List.getElem?_set_ne different]

/-! ## Well-formed packets -/

/-- What holds of every packet under way. -/
structure WellFormed (pkt : Packet) : Prop where
  values : pkt.values.length = pkt.layout.fields.length
  valid : pkt.valid.length = pkt.layout.headers.length
  fits : ∀ id, pkt.get id < Nat.pow 2 (pkt.layout.width id)
  offset : pkt.payloadOffset ≤ pkt.data.length

theorem get_new (id port : Nat) (data : Bytes) (layout : Layout) (field : FieldId) :
    (new id port data layout).get field = 0 := by
  simp only [get, new, List.getD_eq_getElem?_getD, List.getElem?_replicate]
  split <;> rfl

theorem wellFormed_new (id port : Nat) (data : Bytes) (layout : Layout) :
    (new id port data layout).WellFormed := by
  refine ⟨List.length_replicate, List.length_map _, ?_, Nat.zero_le _⟩
  intro field
  rw [get_new]
  exact Nat.pow_pos (by decide)

theorem WellFormed.set (wf : pkt.WellFormed) (id : FieldId) (value : Nat) :
    (pkt.set id value).WellFormed := by
  refine ⟨by rw [length_set_values, wf.values, set_layout], wf.valid, ?_, wf.offset⟩
  intro other
  by_cases same : id = other
  · subst same
    by_cases declared : id < pkt.values.length
    · rw [get_set_self declared]
      exact Nat.mod_lt _ (Nat.pow_pos (by decide))
    · have unchanged : pkt.values.set id (value % Nat.pow 2 (pkt.layout.width id)) = pkt.values :=
        List.set_eq_of_length_le (Nat.le_of_not_lt declared)
      have := wf.fits id
      simpa only [get, Packet.set, unchanged] using this
  · rw [get_set_ne same]
    exact wf.fits other

theorem WellFormed.setValid (wf : pkt.WellFormed) (header : HeaderId) (flag : Bool) :
    (pkt.setValid header flag).WellFormed :=
  ⟨wf.values, List.length_set.trans wf.valid, wf.fits, wf.offset⟩

theorem WellFormed.setPayloadOffset (wf : pkt.WellFormed) (offset : Nat) :
    (pkt.setPayloadOffset offset).WellFormed :=
  ⟨wf.values, wf.valid, wf.fits, Nat.min_le_right _ _⟩

/-- The values of a well-formed packet are those of the declared fields. -/
theorem WellFormed.lt_values (wf : pkt.WellFormed) (declared : id < pkt.layout.fields.length) :
    id < pkt.values.length := by
  rw [wf.values]
  exact declared

/-- A new packet has no metadata to clear. -/
theorem resetMetadata_new (id port : Nat) (data : Bytes) (layout : Layout) :
    (new id port data layout).resetMetadata = new id port data layout := by
  have cleared : ∀ ids : List FieldId,
      ids.foldl (fun values id => values.set id 0) (List.replicate layout.fields.length 0) =
        List.replicate layout.fields.length 0 := by
    intro ids
    induction ids with
    | nil => rfl
    | cons id ids ih => rw [List.foldl_cons, List.set_replicate_self, ih]
  simp only [resetMetadata, new, cleared]

/-! ## Edits -/

/-- The second packet comes from the first by storing values and setting validity flags. -/
inductive Edits (pkt : Packet) : Packet → Prop where
  | refl : Edits pkt pkt
  | set {edited : Packet} (id : FieldId) (value : Nat) :
      Edits pkt edited → Edits pkt (edited.set id value)
  | setValid {edited : Packet} (header : HeaderId) (flag : Bool) :
      Edits pkt edited → Edits pkt (edited.setValid header flag)

namespace Edits

variable {edited : Packet}

/-- Edits change values and flags, and nothing else. -/
theorem eq (edits : Edits pkt edited) :
    edited = { pkt with values := edited.values, valid := edited.valid } := by
  induction edits with
  | refl => rfl
  | set id value _ ih => rw [ih]; rfl
  | setValid header flag _ ih => rw [ih]; rfl

theorem layout_eq (edits : Edits pkt edited) : edited.layout = pkt.layout := by
  rw [edits.eq]

theorem data_eq (edits : Edits pkt edited) : edited.data = pkt.data := by
  rw [edits.eq]

theorem payloadOffset_eq (edits : Edits pkt edited) :
    edited.payloadOffset = pkt.payloadOffset := by
  rw [edits.eq]

theorem wellFormed (edits : Edits pkt edited) (wf : pkt.WellFormed) : edited.WellFormed := by
  induction edits with
  | refl => exact wf
  | set id value _ ih => exact ih.set id value
  | setValid header flag _ ih => exact ih.setValid header flag

theorem trans {last : Packet} (edits : Edits pkt edited) (further : Edits edited last) :
    Edits pkt last := by
  induction further with
  | refl => exact edits
  | set id value _ ih => exact ih.set id value
  | setValid header flag _ ih => exact ih.setValid header flag

end Edits

/-- Clearing metadata stores zeros. -/
theorem resetMetadata_edits (pkt : Packet) : Edits pkt pkt.resetMetadata := by
  have clear : ∀ (ids : List FieldId) (edited : Packet), Edits pkt edited →
      Edits pkt { edited with values := ids.foldl (fun values id => values.set id 0) edited.values } := by
    intro ids
    induction ids with
    | nil => exact fun _ edits => edits
    | cons id ids ih =>
      intro edited edits
      have cleared := ih _ (edits.set id 0)
      simp only [Packet.set, Nat.zero_mod] at cleared
      exact cleared
  exact clear _ pkt Edits.refl

/-! ## Descent -/

/-- The second packet has the number, the layout and the bytes of the first, and stays well-formed. -/
structure Descends (pkt later : Packet) : Prop where
  id : later.id = pkt.id
  layout : later.layout = pkt.layout
  data : later.data = pkt.data
  wellFormed : pkt.WellFormed → later.WellFormed

theorem Edits.descends {edited : Packet} (edits : Edits pkt edited) : Descends pkt edited :=
  ⟨by rw [edits.eq], edits.layout_eq, edits.data_eq, edits.wellFormed⟩

theorem descends_copy (pkt : Packet) (copyId : Nat) : Descends pkt (pkt.copy copyId) :=
  ⟨rfl, rfl, rfl, fun wf => ⟨wf.values, wf.valid, wf.fits, wf.offset⟩⟩

theorem Descends.trans {middle last : Packet} (first : Descends pkt middle)
    (further : Descends middle last) : Descends pkt last :=
  ⟨further.id.trans first.id, further.layout.trans first.layout, further.data.trans first.data,
    fun wf => further.wellFormed (first.wellFormed wf)⟩

end Packet

end Switchyard
