import Switchyard.Proofs.Packet.PayloadOffset

/-!
# Packets that fill their layout

A packet fills a layout when it has a value for each field, within the field's width, and a flag for each
header. New packets do, and every operation keeps that, also where it moves the payload past the end of the
bytes.
-/

namespace Switchyard

open Sequencing

namespace Packet

variable {p : Program} {pkt edited next : Packet} {L : Layout}

/-- The packet has a value for every field of the layout, and a flag for every header. Its payload may
begin anywhere, also past the end of its bytes. -/
structure Fills (pkt : Packet) (L : Layout) : Prop where
  layout : pkt.layout = L
  wellFormed : ({ pkt with payloadOffset := 0 } : Packet).WellFormed

theorem fills_new (id port : Nat) (data : Bytes) (L : Layout) : (new id port data L).Fills L :=
  ⟨rfl, wellFormed_new id port data L⟩

theorem Fills.edits (fills : pkt.Fills L) (edits : Edits pkt edited) : edited.Fills L := by
  induction edits with
  | refl => exact fills
  | set id value _ ih => exact ⟨ih.layout, ih.wellFormed.set id value⟩
  | setValid header flag _ ih => exact ⟨ih.layout, ih.wellFormed.setValid header flag⟩

/-- Other bytes, another offset, number or verdict make no difference. -/
theorem Fills.of_same (fills : pkt.Fills L) (layout : next.layout = pkt.layout)
    (values : next.values = pkt.values) (valid : next.valid = pkt.valid) : next.Fills L := by
  have wf := fills.wellFormed
  refine ⟨layout.trans fills.layout, ?_, ?_, ?_, Nat.zero_le _⟩
  · show next.values.length = next.layout.fields.length
    rw [values, layout]
    exact wf.values
  · show next.valid.length = next.layout.headers.length
    rw [valid, layout]
    exact wf.valid
  · intro id
    show next.values.getD id 0 < Nat.pow 2 (next.layout.width id)
    rw [values, layout]
    exact wf.fits id

/-- The fields of the layout have values. -/
theorem Fills.lt_values {id : FieldId} (fills : pkt.Fills L) (declared : id < L.fields.length) :
    id < pkt.values.length := by
  obtain ⟨rfl, wf⟩ := fills
  exact wf.lt_values declared

theorem Fills.get_lt (fills : pkt.Fills L) (id : FieldId) : pkt.get id < Nat.pow 2 (L.width id) := by
  obtain ⟨rfl, wf⟩ := fills
  exact wf.fits id

/-- Every operation keeps the values and flags in step with the layout. -/
theorem Fills.run {op : Operation} (fills : pkt.Fills L) (ran : op.run p pkt = .ok next) :
    next.Fills L := by
  cases op with
  | set id value =>
    cases ran
    exact fills.edits (Edits.refl.set id value)
  | setField name value =>
    unfold Operation.run at ran
    dsimp only at ran
    split at ran
    case h_1 stored found =>
      cases ran
      obtain ⟨id, -, same⟩ := bind_eq_ok.mp found
      cases same
      exact fills.edits (Edits.refl.set id value)
    case h_2 =>
      cases ran
      exact fills
  | setValid header flag =>
    cases ran
    exact fills.edits (Edits.refl.setValid header flag)
  | resetMetadata =>
    cases ran
    exact fills.edits pkt.resetMetadata_edits
  | parse =>
    cases ran
    exact (fills.edits (p.walk_edits Program.maxParseSteps p.start ⟨pkt, 0⟩)).of_same rfl rfl rfl
  | deparse =>
    have same := Program.sameFields_of_deparse ran
    exact (fills.edits (p.updateChecksums_edits pkt)).of_same same.layout same.values same.valid
  | _ =>
    cases ran
    exact fills.of_same rfl rfl rfl

theorem Fills.runAll {ops : List Operation} (fills : pkt.Fills L)
    (ran : Operation.runAll p pkt ops = .ok next) : next.Fills L := by
  apply Operation.keeps_of_runAll (·.Fills L) fills _ ran
  intro before op after fills ran
  exact fills.run ran

/-- Whatever is done to a new packet, it keeps its layout filled. -/
theorem fills_of_runAll {id port : Nat} {data : Bytes} {ops : List Operation}
    (ran : Operation.runAll p (new id port data L) ops = .ok pkt) : pkt.Fills L :=
  (fills_new id port data L).runAll ran

end Packet

end Switchyard
