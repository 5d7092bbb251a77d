import Switchyard.Proofs.Checked
import Switchyard.Proofs.Packet

/-!
# Checked fields

The accesses to fields and flags, checked. Each of them names a position; it comes through where the
position is declared in the layout of a well-formed packet, and does then what the plain access does. The
fields of a header are looked up one by one from the range of the header.
-/

namespace Switchyard

namespace Checked

open Sequencing

/-- The fields of a header, with their widths. -/
def headerFields (L : Layout) (header : HeaderId) : Checked (List (FieldId × Nat)) := do
  let h ← item L.headers header
  (List.range' h.first h.count).mapM fun id => do return (id, (← item L.fields id).bits)

def get (pkt : Packet) (id : FieldId) : Checked Nat := item pkt.values id

/-- Stores the bits of a value that fit the declared field. -/
def set (pkt : Packet) (id : FieldId) (value : Nat) : Checked Packet := do
  let field ← item pkt.layout.fields id
  let values ← put pkt.values id (value % Nat.pow 2 field.bits)
  return { pkt with values := values }

def isValid (pkt : Packet) (header : HeaderId) : Checked Bool := item pkt.valid header

def setValid (pkt : Packet) (header : HeaderId) (flag : Bool) : Checked Packet := do
  let valid ← put pkt.valid header flag
  return { pkt with valid := valid }

/-- Sets the values of a header's fields to zero; they are a slice of the values. -/
def clearFields (values : List Nat) (h : Layout.Header) : Checked (List Nat) := do
  let _ ← slice values h.first (h.first + h.count)
  return (List.range' h.first h.count).foldl (fun values id => values.set id 0) values

/-- Sets all metadata fields to zero. -/
def resetMetadata (pkt : Packet) : Checked Packet := do
  let values ← (pkt.layout.headers.filter (·.metadata)).foldlM clearFields pkt.values
  return { pkt with values := values }

variable {L : Layout} {pkt : Packet} {id : FieldId} {header : HeaderId}

theorem headerFields_ok (layout : L.WellFormed) (declared : header < L.headers.length) :
    headerFields L header = .ok ((L.fieldIds header).map fun id => (id, L.width id)) := by
  have found := List.getElem?_eq_getElem declared
  have ids : L.fieldIds header = List.range' L.headers[header].first L.headers[header].count := by
    rw [Layout.fieldIds, found]
  have each : ∀ id ∈ L.fieldIds header,
      (do return (id, (← item L.fields id).bits) : Checked (FieldId × Nat)) = .ok (id, L.width id) := by
    intro id member
    have field := List.getElem?_eq_getElem (layout.fieldIds_lt id member)
    rw [item_eq_ok.mpr field, Layout.width_of_get field]
    rfl
  rw [headerFields, item_eq_ok.mpr found]
  rw [ids] at each ⊢
  exact mapM_eq_ok_map each

theorem get_ok (wf : pkt.WellFormed) (declared : id < pkt.layout.fields.length) :
    get pkt id = .ok (pkt.get id) := by
  have found := List.getElem?_eq_getElem (wf.lt_values declared)
  rw [get, item_eq_ok.mpr found, Packet.get, List.getD_eq_getElem?_getD, found, Option.getD_some]

theorem set_ok (wf : pkt.WellFormed) (declared : id < pkt.layout.fields.length) (value : Nat) :
    set pkt id value = .ok (pkt.set id value) := by
  have found := List.getElem?_eq_getElem declared
  refine bind_eq_ok.mpr ⟨_, item_eq_ok.mpr found, ?_⟩
  refine bind_eq_ok.mpr ⟨_, put_ok (wf.lt_values declared) _, ?_⟩
  rw [Packet.set, Layout.width_of_get found]
  rfl

theorem isValid_ok (wf : pkt.WellFormed) (declared : header < pkt.layout.headers.length) :
    isValid pkt header = .ok (pkt.isValid header) := by
  have found := List.getElem?_eq_getElem (wf.valid ▸ declared : header < pkt.valid.length)
  rw [isValid, item_eq_ok.mpr found, Packet.isValid, List.getD_eq_getElem?_getD, found,
    Option.getD_some]

theorem setValid_ok (wf : pkt.WellFormed) (declared : header < pkt.layout.headers.length) (flag : Bool) :
    setValid pkt header flag = .ok (pkt.setValid header flag) := by
  rw [← wf.valid] at declared
  exact bind_eq_ok.mpr ⟨_, put_ok declared flag, rfl⟩

theorem length_foldl_set {values : List Nat} (ids : List FieldId) :
    (ids.foldl (fun values id => values.set id 0) values).length = values.length := by
  induction ids generalizing values with
  | nil => rfl
  | cons id ids ih => rw [List.foldl_cons, ih, List.length_set]

/-- All values of metadata are there to be cleared, one header after another. -/
theorem resetMetadata_ok (spans : pkt.layout.Spans) (wf : pkt.WellFormed) :
    resetMetadata pkt = .ok pkt.resetMetadata := by
  have cleared : (pkt.layout.headers.filter (·.metadata)).foldlM clearFields pkt.values =
      .ok ((pkt.layout.headers.filter (·.metadata)).foldl (fun values h =>
        (List.range' h.first h.count).foldl (fun values id => values.set id 0) values) pkt.values) := by
    refine foldlM_eq_ok_foldl (P := fun values => values.length = pkt.layout.fields.length) wf.values ?_
    intro values length h member
    have inside : h.first + h.count ≤ values.length := by
      rw [length]
      exact spans h (List.mem_filter.mp member).1
    refine ⟨?_, (length_foldl_set _).trans length⟩
    exact bind_eq_ok.mpr ⟨_, slice_ok (Nat.le_add_right _ _) inside, rfl⟩
  rw [resetMetadata, cleared, Packet.resetMetadata, Packet.metadataFields, List.foldl_flatMap]
  rfl

end Checked

end Switchyard
