import Switchyard.Proofs.Bits
import Switchyard.Proofs.Packet.Deparse

/-!
# The bytes that a packet holds

A packet under way keeps its headers in fields and the rest in its payload. `Leads` says that some of
its fields, one after another, are the first bits of a byte string, `Holds` that its valid headers and
its payload together are the byte string. Storing a value in a field then patches the bytes, and
deparsing writes the bytes out.
-/

namespace Switchyard

namespace Packet

variable {pkt : Packet} {ids front middle back : List FieldId} {id : FieldId} {value : Nat} {b : Bytes}

@[simp] theorem length_fieldBits (pkt : Packet) (id : FieldId) :
    (pkt.fieldBits id).length = pkt.layout.width id :=
  Bits.length_ofNat _ _

theorem length_flatMap_fieldBits (pkt : Packet) (ids : List FieldId) :
    (ids.flatMap pkt.fieldBits).length = pkt.layout.totalBits ids := by
  induction ids with
  | nil => rfl
  | cons id ids ih =>
    rw [List.flatMap_cons, List.length_append, length_fieldBits, ih, Layout.totalBits_cons]

theorem fieldBits_set_self (declared : id < pkt.values.length) :
    (pkt.set id value).fieldBits id = Bits.ofNat (pkt.layout.width id) value := by
  rw [fieldBits, get_set_self declared, set_layout, Bits.ofNat_mod]

theorem flatMap_fieldBits_congr {other : Packet}
    (same : ∀ id ∈ ids, pkt.fieldBits id = other.fieldBits id) :
    ids.flatMap pkt.fieldBits = ids.flatMap other.fieldBits := by
  induction ids with
  | nil => rfl
  | cons id ids ih =>
    rw [List.flatMap_cons, List.flatMap_cons, same id List.mem_cons_self,
      ih fun other member => same other (List.mem_cons_of_mem _ member)]

/-- Storing a value does not show in other fields. -/
theorem flatMap_fieldBits_set (apart : id ∉ ids) :
    ids.flatMap (pkt.set id value).fieldBits = ids.flatMap pkt.fieldBits := by
  apply flatMap_fieldBits_congr
  intro other member
  have different : id ≠ other := fun same => apart (same ▸ member)
  rw [fieldBits, fieldBits, get_set_ne different, set_layout]

/-- The fields, one after another, are the first bits of the bytes. -/
def Leads (pkt : Packet) (ids : List FieldId) (b : Bytes) : Prop :=
  ids.flatMap pkt.fieldBits <+: Bits.ofBytes b

namespace Leads

/-- Some of the fields are the bits where they stand. -/
theorem slice (leads : pkt.Leads ids b) (split : ids = front ++ middle ++ back) :
    middle.flatMap pkt.fieldBits =
      ((Bits.ofBytes b).drop (pkt.layout.totalBits front)).take (pkt.layout.totalBits middle) := by
  obtain ⟨rest, whole⟩ := leads
  rw [split, List.flatMap_append, List.flatMap_append, List.append_assoc, List.append_assoc]
    at whole
  rw [← whole, List.drop_left' (length_flatMap_fieldBits pkt front),
    List.take_left' (length_flatMap_fieldBits pkt middle)]

/-- A field is the number at its position. -/
theorem get_eq (leads : pkt.Leads ids b) (split : ids = front ++ id :: back)
    (fits : pkt.get id < Nat.pow 2 (pkt.layout.width id)) :
    pkt.get id = Bits.read b (pkt.layout.totalBits front) (pkt.layout.width id) := by
  have one : [id].flatMap pkt.fieldBits = pkt.fieldBits id := by
    rw [List.flatMap_cons, List.flatMap_nil, List.append_nil]
  have around : ids = front ++ [id] ++ back := by
    rw [split, List.append_assoc, List.singleton_append]
  have slice := leads.slice around
  have width : pkt.layout.totalBits [id] = pkt.layout.width id := by
    rw [Layout.totalBits_cons, Layout.totalBits_nil, Nat.add_zero]
  rw [Bits.read_eq, ← width, ← slice, one, fieldBits, Bits.toNat_ofNat_of_lt fits]

/-- A field of a header is the number where the headers have it. -/
theorem get_of_places {headers : List HeaderId} {position width : Nat} (wf : pkt.WellFormed)
    (leads : pkt.Leads (pkt.layout.fieldsOf headers) b)
    (places : pkt.layout.Places headers id position width) :
    pkt.get id = Bits.read b position width := by
  obtain ⟨front, back, split, rfl, rfl⟩ := places
  exact leads.get_eq split (wf.fits id)

theorem set_apart (leads : pkt.Leads ids b) (apart : id ∉ ids) :
    (pkt.set id value).Leads ids b := by
  rw [Leads, flatMap_fieldBits_set apart]
  exact leads

/-- Storing a value in a field of whole bytes patches the bytes. -/
theorem set_patch {start count : Nat} (leads : pkt.Leads ids b) (split : ids = front ++ id :: back)
    (distinct : ids.Nodup) (declared : id < pkt.values.length)
    (position : pkt.layout.totalBits front = 8 * start) (width : pkt.layout.width id = 8 * count) :
    (pkt.set id value).Leads ids (Bytes.patch b start (BigEndian.encode count value)) := by
  obtain ⟨rest, whole⟩ := leads
  subst split
  obtain ⟨-, later, apart⟩ := List.nodup_append.mp distinct
  have notFront : id ∉ front := fun member => apart id member id List.mem_cons_self rfl
  have notBack : id ∉ back := (List.nodup_cons.mp later).1
  rw [List.flatMap_append, List.flatMap_cons, List.append_assoc, List.append_assoc] at whole
  have frontLength : (front.flatMap pkt.fieldBits).length = 8 * start := by
    rw [length_flatMap_fieldBits, position]
  have fieldLength : (pkt.fieldBits id).length = 8 * count := by
    rw [length_fieldBits, width]
  have before : Bits.ofBytes (b.take start) = front.flatMap pkt.fieldBits := by
    rw [← Bits.take_ofBytes, ← whole, List.take_left' frontLength]
  have behind : Bits.ofBytes (b.drop (start + count)) = back.flatMap pkt.fieldBits ++ rest := by
    rw [← Bits.drop_ofBytes, Nat.mul_add, ← List.drop_drop, ← whole, List.drop_left' frontLength,
      List.drop_left' fieldLength]
  refine ⟨rest, ?_⟩
  rw [List.flatMap_append, List.flatMap_cons, flatMap_fieldBits_set notFront,
    flatMap_fieldBits_set notBack, fieldBits_set_self declared, width, Bits.ofNat_eight_mul,
    Bytes.patch, BigEndian.length_encode, Bits.ofBytes_append, Bits.ofBytes_append, before, behind]
  simp only [List.append_assoc]

end Leads

/-! ## The bytes as a whole -/

theorem flatMap_emit (pkt : Packet) (headers : List HeaderId) :
    headers.flatMap pkt.emit = (pkt.layout.fieldsOf headers).flatMap pkt.fieldBits := by
  rw [Layout.fieldsOf, List.flatMap_assoc]
  rfl

/-- The valid headers of a packet, in the order in which a program writes them, and then the payload
are the bytes. -/
structure Holds (p : Program) (pkt : Packet) (headers : List HeaderId) (b : Bytes) : Prop where
  order : p.deparseOrder.filter pkt.isValid = headers
  leads : pkt.Leads (pkt.layout.fieldsOf headers) b
  ends : pkt.layout.totalBits (pkt.layout.fieldsOf headers) = 8 * pkt.payloadOffset
  payload : pkt.payload = b.drop pkt.payloadOffset

namespace Holds

variable {p : Program} {headers : List HeaderId}

/-- The headers do not reach past the bytes. -/
theorem inside (holds : Holds p pkt headers b) : pkt.payloadOffset ≤ b.length := by
  have short := holds.leads.length_le
  rw [length_flatMap_fieldBits, holds.ends, Bits.length_ofBytes] at short
  omega

/-- The headers close into the bytes in front of the payload. -/
theorem headerBytes_eq (holds : Holds p pkt headers b) :
    p.headerBytes pkt = b.take pkt.payloadOffset := by
  have bits : headers.flatMap pkt.emit = Bits.ofBytes (b.take pkt.payloadOffset) := by
    rw [flatMap_emit, List.prefix_iff_eq_take.mp holds.leads, length_flatMap_fieldBits, holds.ends,
      Bits.take_ofBytes]
  rw [Program.headerBytes, holds.order, bits, Bits.toBytes_ofBytes]

/-- Writing the packet gives the bytes back. -/
theorem headerBytes_append_payload (holds : Holds p pkt headers b) :
    p.headerBytes pkt ++ pkt.payload = b := by
  rw [holds.headerBytes_eq, holds.payload, List.take_append_drop]

/-- Metadata is not part of the bytes. -/
theorem set_apart (holds : Holds p pkt headers b) (apart : id ∉ pkt.layout.fieldsOf headers) :
    Holds p (pkt.set id value) headers b :=
  ⟨holds.order, holds.leads.set_apart apart, holds.ends, holds.payload⟩

/-- Storing a value in a field of whole bytes patches the bytes. -/
theorem set_patch {start count : Nat} (holds : Holds p pkt headers b)
    (places : pkt.layout.Places headers id (8 * start) (8 * count))
    (distinct : (pkt.layout.fieldsOf headers).Nodup) (declared : id < pkt.values.length) :
    Holds p (pkt.set id value) headers (Bytes.patch b start (BigEndian.encode count value)) := by
  obtain ⟨front, back, split, position, width⟩ := places
  have within : start + count ≤ pkt.payloadOffset := by
    have ends := holds.ends
    rw [split, Layout.totalBits_append, Layout.totalBits_cons, position, width] at ends
    omega
  have payload : (Bytes.patch b start (BigEndian.encode count value)).drop pkt.payloadOffset =
      b.drop pkt.payloadOffset := by
    have length := BigEndian.length_encode count value
    have inside := holds.inside
    exact Bytes.drop_patch (by omega) (by omega)
  exact ⟨holds.order, holds.leads.set_patch split distinct declared position width, holds.ends,
    holds.payload.trans payload.symm⟩

end Holds

end Packet

end Switchyard
