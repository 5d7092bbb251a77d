import Switchyard.Proofs.Checked.Extraction
import Switchyard.Proofs.Packet.Parsing

/-!
# Headers written and verified, checked

Emission, checksums, parsing and deparsing with every access checked. A header may be valid or not by the
will of a control, so nothing is known of the flags; but all fields and headers that the rules name are declared,
the bytes that a length field adds to a header are cut to what is there, and the payload starts inside
the bytes. Only the length in bytes could overflow a word, and a length field of at most 62 bits is too
narrow for that.
-/

namespace Switchyard

namespace Checked

open Packet Sequencing

/-- The bits of one field. A field can be taken as zero. -/
def fieldBits (pkt : Packet) (zeroed : Option FieldId) (field : FieldId) (width : Nat) : Checked Bits := do
  let value ← if zeroed = some field then pure 0 else get pkt field
  store width value

/-- The bits of a header, field by field. -/
def emit (pkt : Packet) (header : HeaderId) (zeroed : Option FieldId) : Checked Bits := do
  let fields ← headerFields pkt.layout header
  let pieces ← fields.mapM fun field => fieldBits pkt zeroed field.1 field.2
  return pieces.flatten

/-- The payload bytes that belong to a header which has already `emitted` bytes. -/
def coveredPayload (pkt : Packet) (rule : ChecksumRule) (emitted : Nat) : Checked Bytes :=
  match rule.lengthWords with
  | none => .ok []
  | some field => do
    let words ← get pkt field
    let wanted ← word (words % UInt64.size * 4)
    -- A payload that starts behind the last byte is no breach here: there is none then.
    slice pkt.payload 0 (min (wanted - emitted) pkt.payload.length)

/-- The checksum that a header should have. -/
def headerChecksum (pkt : Packet) (rule : ChecksumRule) : Checked Nat := do
  let header := Bits.toBytes (← emit pkt rule.header (some rule.field))
  let covered ← coveredPayload pkt rule header.length
  return (internetChecksum (header ++ covered)).toNat

/-- Does a valid header have another checksum than it should? -/
def hasBadChecksum (pkt : Packet) (rule : ChecksumRule) : Checked Bool := do
  if ← isValid pkt rule.header then
    let wanted ← headerChecksum pkt rule
    return wanted != (← get pkt rule.field)
  else return false

/-- Parses a packet; every checksum rule is looked at. -/
def parse (p : Program) (pkt : Packet) : Checked Packet := do
  let (error, c) ← walk p Program.maxParseSteps p.start ⟨pkt, 0⟩
  let parsed := { c.packet with parserError := error }.setPayloadOffset ((c.position + 7) / 8)
  let bad ← p.checksums.mapM (hasBadChecksum parsed)
  return { parsed with checksumError := bad.any id }

/-- Gives a valid header the checksum that it should have. -/
def updateChecksum (pkt : Packet) (rule : ChecksumRule) : Checked Packet := do
  if ← isValid pkt rule.header then set pkt rule.field (← headerChecksum pkt rule)
  else return pkt

/-- The valid headers in deparse order, in whole bytes. -/
def headerBytes (p : Program) (pkt : Packet) : Checked Bytes := do
  let pieces ← p.deparseOrder.mapM fun header => do
    if ← isValid pkt header then emit pkt header none else return []
  return Bits.toBytes pieces.flatten

/-- Writes the bytes of a packet anew. -/
def deparse (p : Program) (pkt : Packet) : Checked Packet := do
  let pkt ← p.checksums.foldlM updateChecksum pkt
  let header ← headerBytes p pkt
  let payload ← rest pkt.data pkt.payloadOffset
  return (pkt.setData (header ++ payload)).setPayloadOffset header.length

variable {p : Program} {pkt : Packet} {header : HeaderId} {rule : ChecksumRule}

/-! ## Emission -/

/-- Taking a field as zero is storing a zero in it first. -/
theorem fieldBits_ok {zeroed : Option FieldId} {field : FieldId} (layout : pkt.layout.WellFormed)
    (wf : pkt.WellFormed) (declared : field < pkt.layout.fields.length) :
    fieldBits pkt zeroed field (pkt.layout.width field) =
      .ok ((zeroed.elim pkt fun other => pkt.set other 0).fieldBits field) := by
  have narrow := layout.width_bounds declared
  unfold fieldBits
  cases zeroed with
  | none =>
    rw [if_neg (Option.some_ne_none field).symm, get_ok wf declared]
    exact store_ok narrow _
  | some other =>
    by_cases own : other = field
    · subst own
      have zero : (pkt.set other 0).get other = 0 :=
        (get_set_self (wf.lt_values declared)).trans (Nat.zero_mod _)
      rw [if_pos rfl, Option.elim_some, Packet.fieldBits, zero]
      exact store_ok narrow 0
    · rw [if_neg fun same => own (Option.some.inj same), get_ok wf declared, Option.elim_some,
        Packet.fieldBits, get_set_ne own]
      exact store_ok narrow _

theorem emit_ok {zeroed : Option FieldId} (layout : pkt.layout.WellFormed) (wf : pkt.WellFormed)
    (declared : header < pkt.layout.headers.length) :
    emit pkt header zeroed = .ok ((zeroed.elim pkt fun field => pkt.set field 0).emit header) := by
  have ids : (zeroed.elim pkt fun field => pkt.set field 0).layout.fieldIds header =
      pkt.layout.fieldIds header := by
    cases zeroed <;> rfl
  have pieces : ((pkt.layout.fieldIds header).map fun field => (field, pkt.layout.width field)).mapM
      (fun field => fieldBits pkt zeroed field.1 field.2) = .ok ((pkt.layout.fieldIds header).map
        (zeroed.elim pkt fun field => pkt.set field 0).fieldBits) :=
    mapM_map_eq_ok fun field member => fieldBits_ok layout wf (layout.fieldIds_lt field member)
  refine bind_eq_ok.mpr ⟨_, headerFields_ok layout declared, bind_eq_ok.mpr ⟨_, pieces, ?_⟩⟩
  rw [Packet.emit, ids, List.flatMap_def]
  rfl

/-! ## Checksums -/

/-- The bytes that a length field adds are there, unless the length overflows. -/
theorem coveredPayload_eq {field : FieldId} (counted : rule.lengthWords = some field)
    (found : get pkt field = .ok (pkt.get field)) (emitted : Nat) :
    coveredPayload pkt rule emitted =
      if pkt.get field % UInt64.size * 4 < UInt64.size then .ok (pkt.coveredPayload rule emitted)
      else .error (.word (pkt.get field % UInt64.size * 4)) := by
  unfold coveredPayload Packet.coveredPayload
  rw [counted]
  dsimp only
  rw [found]
  show (word (pkt.get field % UInt64.size * 4) >>= _) = _
  rw [word_eq]
  by_cases bytes : pkt.get field % UInt64.size * 4 < UInt64.size
  · rw [if_pos bytes, if_pos bytes, lengthInBytes, Nat.mod_eq_of_lt bytes]
    show slice pkt.payload 0 _ = _
    rw [slice_ok (Nat.zero_le _) (Nat.min_le_right _ _), List.drop_zero, Nat.sub_zero,
      ← List.take_eq_take_min]
  · rw [if_neg bytes, if_neg bytes]
    rfl

/-- The bytes that a narrow length field adds are there. -/
theorem coveredPayload_ok (wf : pkt.WellFormed)
    (declared : ∀ field, rule.lengthWords = some field → field < pkt.layout.fields.length)
    (narrow : ∀ field, rule.lengthWords = some field → pkt.layout.width field ≤ 62) (emitted : Nat) :
    coveredPayload pkt rule emitted = .ok (pkt.coveredPayload rule emitted) := by
  cases counted : rule.lengthWords with
  | none =>
    rw [coveredPayload, Packet.coveredPayload, counted]
  | some field =>
    have bytes := Program.bytes_lt_of_narrow (wf.fits field) (narrow field counted)
    have small : pkt.get field < UInt64.size := by omega
    rw [coveredPayload_eq counted (get_ok wf (declared field counted)), Nat.mod_eq_of_lt small,
      if_pos bytes]

/-- A rule that a program follows, with a length field too narrow to overflow. -/
structure Bounded (L : Layout) (rule : ChecksumRule) : Prop extends Program.Covers L rule where
  narrow : ∀ field, rule.lengthWords = some field → L.width field ≤ 62

theorem headerChecksum_ok (layout : pkt.layout.WellFormed) (wf : pkt.WellFormed)
    (bounded : Bounded pkt.layout rule) : headerChecksum pkt rule = .ok (pkt.headerChecksum rule) := by
  refine bind_eq_ok.mpr ⟨_, emit_ok layout wf bounded.header, ?_⟩
  exact bind_eq_ok.mpr ⟨_, coveredPayload_ok wf bounded.lengthWords bounded.narrow _, rfl⟩

theorem hasBadChecksum_ok (layout : pkt.layout.WellFormed) (wf : pkt.WellFormed)
    (bounded : Bounded pkt.layout rule) : hasBadChecksum pkt rule = .ok (pkt.hasBadChecksum rule) := by
  refine bind_eq_ok.mpr ⟨_, isValid_ok wf bounded.header, ?_⟩
  unfold Packet.hasBadChecksum
  cases pkt.isValid rule.header with
  | false => rfl
  | true =>
    rw [if_pos rfl]
    refine bind_eq_ok.mpr ⟨_, headerChecksum_ok layout wf bounded, ?_⟩
    exact bind_eq_ok.mpr ⟨_, get_ok wf bounded.field, rfl⟩

theorem updateChecksum_ok (layout : pkt.layout.WellFormed) (wf : pkt.WellFormed)
    (bounded : Bounded pkt.layout rule) : updateChecksum pkt rule = .ok (pkt.updateChecksum rule) := by
  refine bind_eq_ok.mpr ⟨_, isValid_ok wf bounded.header, ?_⟩
  unfold Packet.updateChecksum
  cases pkt.isValid rule.header with
  | false => rfl
  | true =>
    rw [if_pos rfl, if_pos rfl]
    refine bind_eq_ok.mpr ⟨_, headerChecksum_ok layout wf bounded, ?_⟩
    exact set_ok wf bounded.field _

/-! ## Parsing and deparsing -/

section

variable (declared : p.Declared)
  (narrow : ∀ rule ∈ p.checksums, ∀ field, rule.lengthWords = some field → p.layout.width field ≤ 62)

include declared narrow

theorem bounded_of_mem (member : rule ∈ p.checksums) : Bounded p.layout rule :=
  ⟨declared.checksums rule member, narrow rule member⟩

theorem parse_ok (same : pkt.layout = p.layout) (wf : pkt.WellFormed) :
    parse p pkt = .ok (p.parse pkt) := by
  have walked : walk p Program.maxParseSteps p.start ⟨pkt, 0⟩ =
      .ok (p.walk Program.maxParseSteps p.start ⟨pkt, 0⟩) :=
    walk_ok declared (fun _ => Program.start_lt) same wf
  have edits := p.walk_edits Program.maxParseSteps p.start ⟨pkt, 0⟩
  rcases stopped : p.walk Program.maxParseSteps p.start ⟨pkt, 0⟩ with ⟨error, c⟩
  rw [stopped] at walked edits
  have layout : c.packet.layout = p.layout := edits.layout_eq.trans same
  have kept : c.packet.WellFormed := edits.wellFormed wf
  let parsed := { c.packet with parserError := error }.setPayloadOffset ((c.position + 7) / 8)
  have whole : parsed.WellFormed := ⟨kept.values, kept.valid, kept.fits, Nat.min_le_right _ _⟩
  have bad : p.checksums.mapM (hasBadChecksum parsed) = .ok (p.checksums.map parsed.hasBadChecksum) := by
    refine mapM_eq_ok_map fun rule member => ?_
    have bounded : Bounded parsed.layout rule := layout ▸ bounded_of_mem declared narrow member
    exact hasBadChecksum_ok (layout ▸ declared.layout) whole bounded
  refine bind_eq_ok.mpr ⟨_, walked, bind_eq_ok.mpr ⟨_, bad, ?_⟩⟩
  rw [List.any_map, Program.parse, stopped]
  rfl

theorem updateChecksums_ok (same : pkt.layout = p.layout) (wf : pkt.WellFormed) :
    p.checksums.foldlM updateChecksum pkt = .ok (p.updateChecksums pkt) := by
  refine foldlM_eq_ok_foldl (P := fun edited => Edits pkt edited) Edits.refl ?_
  intro edited edits rule member
  have layout : edited.layout = p.layout := edits.layout_eq.trans same
  have bounded : Bounded edited.layout rule := layout ▸ bounded_of_mem declared narrow member
  exact ⟨updateChecksum_ok (layout ▸ declared.layout) (edits.wellFormed wf) bounded,
    edits.trans (updateChecksum_edits edited rule)⟩

omit narrow in
theorem headerBytes_ok (same : pkt.layout = p.layout) (wf : pkt.WellFormed) :
    headerBytes p pkt = .ok (p.headerBytes pkt) := by
  have pieces : p.deparseOrder.mapM (fun header => do
      if ← isValid pkt header then emit pkt header none else return []) =
      .ok (p.deparseOrder.map fun header => if pkt.isValid header then pkt.emit header else []) := by
    refine mapM_eq_ok_map fun header member => ?_
    have known : header < pkt.layout.headers.length := same ▸ declared.order header member
    refine bind_eq_ok.mpr ⟨_, isValid_ok wf known, ?_⟩
    cases pkt.isValid header with
    | false => rfl
    | true => exact emit_ok (same ▸ declared.layout) wf known
  have valid : ∀ order : List HeaderId, (order.map fun header =>
      if pkt.isValid header then pkt.emit header else []).flatten =
        (order.filter pkt.isValid).flatMap pkt.emit := by
    intro order
    induction order with
    | nil => rfl
    | cons header order ih =>
      rw [List.map_cons, List.flatten_cons, ih, List.filter_cons]
      split
      · rw [List.flatMap_cons]
      · rfl
  refine bind_eq_ok.mpr ⟨_, pieces, ?_⟩
  rw [valid, Program.headerBytes]
  rfl

/-- A packet whose payload starts inside its bytes is written, and the plain deparser does not refuse it. -/
theorem deparse_ok (same : pkt.layout = p.layout) (wf : pkt.WellFormed) :
    ∃ out, deparse p pkt = .ok out ∧ p.deparse pkt = .ok out := by
  have edits := p.updateChecksums_edits pkt
  have updated := updateChecksums_ok declared narrow same wf
  have header := headerBytes_ok declared (edits.layout_eq.trans same) (edits.wellFormed wf)
  have payload := rest_ok (edits.wellFormed wf).offset
  refine ⟨_, ?_, if_neg (Nat.not_lt.mpr wf.offset)⟩
  exact bind_eq_ok.mpr ⟨_, updated, bind_eq_ok.mpr ⟨_, header, bind_eq_ok.mpr ⟨_, payload, rfl⟩⟩⟩

end

end Checked

end Switchyard
