import Switchyard.Packet.Deparse
import Switchyard.Proofs.Packet

/-!
# What deparsing writes

Recomputing checksums only edits fields, so deparsing fails for no packet whose payload lies inside its
bytes. What it writes is decided by the fields, the flags and the payload; the numbers of a packet and
the record of its parse play no part.
-/

namespace Switchyard

namespace Packet

variable {pkt other : Packet}

/-- The packets agree on fields and flags. -/
structure SameFields (pkt other : Packet) : Prop where
  layout : pkt.layout = other.layout
  values : pkt.values = other.values
  valid : pkt.valid = other.valid

namespace SameFields

theorem get_eq (same : SameFields pkt other) (id : FieldId) : pkt.get id = other.get id := by
  rw [get, get, same.values]

theorem isValid_eq (same : SameFields pkt other) : pkt.isValid = other.isValid := by
  funext header
  rw [isValid, isValid, same.valid]

theorem set (same : SameFields pkt other) (id : FieldId) (value : Nat) :
    SameFields (pkt.set id value) (other.set id value) := by
  refine ⟨same.layout, ?_, same.valid⟩
  simp only [Packet.set, same.values, same.layout]

theorem emit_eq (same : SameFields pkt other) : pkt.emit = other.emit := by
  have fields : pkt.fieldBits = other.fieldBits := by
    funext id
    rw [fieldBits, fieldBits, same.layout, same.get_eq]
  funext header
  rw [emit, emit, same.layout, fields]

end SameFields

/-- The packets agree on fields, flags and payload. -/
structure Alike (pkt other : Packet) : Prop extends SameFields pkt other where
  payload : pkt.payload = other.payload

theorem Edits.payload_eq {edited : Packet} (edits : Edits pkt edited) :
    edited.payload = pkt.payload := by
  rw [payload, payload, edits.data_eq, edits.payloadOffset_eq]

theorem updateChecksum_edits (pkt : Packet) (rule : ChecksumRule) :
    Edits pkt (pkt.updateChecksum rule) := by
  unfold updateChecksum
  split
  · exact Edits.refl.set _ _
  · exact Edits.refl

namespace Alike

theorem set (alike : Alike pkt other) (id : FieldId) (value : Nat) :
    Alike (pkt.set id value) (other.set id value) :=
  ⟨alike.toSameFields.set id value, alike.payload⟩

theorem headerChecksum_eq (alike : Alike pkt other) (rule : ChecksumRule) :
    pkt.headerChecksum rule = other.headerChecksum rule := by
  have covered : pkt.coveredPayload rule = other.coveredPayload rule := by
    funext emitted
    simp only [coveredPayload, alike.get_eq, alike.payload]
  simp only [headerChecksum, (alike.toSameFields.set rule.field 0).emit_eq, covered]

theorem updateChecksum (alike : Alike pkt other) (rule : ChecksumRule) :
    Alike (pkt.updateChecksum rule) (other.updateChecksum rule) := by
  unfold Packet.updateChecksum
  rw [alike.isValid_eq, alike.headerChecksum_eq]
  split
  · exact alike.set _ _
  · exact alike

end Alike

end Packet

namespace Program

open Packet

variable {p : Program} {pkt other : Packet}

theorem updateChecksums_edits (p : Program) (pkt : Packet) : Edits pkt (p.updateChecksums pkt) := by
  have run : ∀ (rules : List ChecksumRule) (edited : Packet), Edits pkt edited →
      Edits pkt (rules.foldl Packet.updateChecksum edited) := by
    intro rules
    induction rules with
    | nil => exact fun _ edits => edits
    | cons rule rules ih =>
      intro edited edits
      exact ih _ (edits.trans (updateChecksum_edits edited rule))
  exact run p.checksums pkt Edits.refl

/-- The bytes of a packet written anew: its headers with their checksums, then the payload. -/
def written (p : Program) (pkt : Packet) : Bytes :=
  p.headerBytes (p.updateChecksums pkt) ++ pkt.payload

/-- A packet whose payload lies inside its bytes can be written. -/
theorem deparse_ok (inside : pkt.payloadOffset ≤ pkt.data.length) :
    ∃ out, p.deparse pkt = .ok out ∧ out.id = pkt.id ∧ out.data = p.written pkt := by
  have edits := p.updateChecksums_edits pkt
  refine ⟨_, if_neg (Nat.not_lt.mpr inside), ?_, ?_⟩
  · show (p.updateChecksums pkt).id = pkt.id
    rw [edits.eq]
  · show p.headerBytes (p.updateChecksums pkt) ++ (p.updateChecksums pkt).payload = _
    rw [edits.payload_eq, written]

/-- A packet that was written has the fields that were written. -/
theorem sameFields_of_deparse {out : Packet} (deparsed : p.deparse pkt = .ok out) :
    SameFields out (p.updateChecksums pkt) := by
  unfold deparse at deparsed
  split at deparsed
  case isTrue => cases deparsed
  case isFalse =>
    cases deparsed
    exact ⟨rfl, rfl, rfl⟩

theorem id_of_deparse {out : Packet} (deparsed : p.deparse pkt = .ok out) : out.id = pkt.id := by
  have edits := p.updateChecksums_edits pkt
  unfold deparse at deparsed
  split at deparsed
  case isTrue => cases deparsed
  case isFalse =>
    cases deparsed
    show (p.updateChecksums pkt).id = pkt.id
    rw [edits.eq]

theorem updateChecksums_alike (p : Program) (alike : Alike pkt other) :
    Alike (p.updateChecksums pkt) (p.updateChecksums other) := by
  have run : ∀ (rules : List ChecksumRule) (pkt other : Packet), Alike pkt other →
      Alike (rules.foldl Packet.updateChecksum pkt) (rules.foldl Packet.updateChecksum other) := by
    intro rules
    induction rules with
    | nil => exact fun _ _ alike => alike
    | cons rule rules ih =>
      intro pkt other alike
      exact ih _ _ (alike.updateChecksum rule)
  exact run p.checksums pkt other alike

/-- Packets that agree on fields, flags and payload are written as the same bytes. -/
theorem written_alike (p : Program) (alike : Alike pkt other) : p.written pkt = p.written other := by
  have updated := p.updateChecksums_alike alike
  rw [written, written, headerBytes, headerBytes, updated.isValid_eq, updated.emit_eq, alike.payload]

end Program

end Switchyard
