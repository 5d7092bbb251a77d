import Mathlib.Data.List.Nodup
import Switchyard.Proofs.Packet.Holding
import Switchyard.Proofs.Program.Resolution

/-!
# Deparsing twice

A checksum is settled in a packet when recomputing it changes nothing. Recomputing a checksum settles it,
and it stays settled as long as only fields are stored that it ignores. Where each header has at most one
checksum, in a field of its own, and no length is read from a checksum, every checksum ignores the fields
of all others. Then one pass over the checksums settles all of them, and a packet that has been written is
written again as it is.
-/

namespace Switchyard

/-- Storing the field does not show in the checksum: it is the checksum itself or a field of another
header, and not the length. -/
structure ChecksumRule.Ignores (rule : ChecksumRule) (L : Layout) (id : FieldId) : Prop where
  header : id ∈ L.fieldIds rule.header → id = rule.field
  length : rule.lengthWords ≠ some id

namespace Packet

variable {pkt : Packet} {rule other : ChecksumRule} {id : FieldId} {value : Nat}

/-! ## Storing twice -/

/-- Zero is stored in every width, and read where there is no field. -/
theorem get_set_zero (pkt : Packet) (id : FieldId) : (pkt.set id 0).get id = 0 := by
  by_cases declared : id < pkt.values.length
  · rw [get_set_self declared, Nat.zero_mod]
  · have outside : (pkt.set id 0).values.length ≤ id := by
      rw [length_set_values]
      exact Nat.le_of_not_lt declared
    rw [get, List.getD_eq_getElem?_getD, List.getElem?_eq_none outside, Option.getD_none]

theorem set_set (pkt : Packet) (id : FieldId) (first second : Nat) :
    (pkt.set id first).set id second = pkt.set id second := by
  simp only [set, List.set_set]

theorem set_comm {another : FieldId} (different : id ≠ another) (first second : Nat) :
    (pkt.set id first).set another second = (pkt.set another second).set id first := by
  simp only [set, List.set_comm _ _ different]

/-! ## What a checksum depends on -/

/-- With the checksum taken as zero, a field that it ignores does not show in the header. -/
theorem emit_set_of_ignores (ignores : rule.Ignores pkt.layout id) :
    ((pkt.set id value).set rule.field 0).emit rule.header =
      (pkt.set rule.field 0).emit rule.header := by
  refine flatMap_fieldBits_congr fun field member => ?_
  rw [fieldBits, fieldBits]
  congr 1
  by_cases checksum : rule.field = field
  · subst checksum
    rw [get_set_zero, get_set_zero]
  · have apart : id ≠ field := by
      rintro rfl
      exact checksum (ignores.header member).symm
    rw [get_set_ne checksum, get_set_ne apart, get_set_ne checksum]

theorem coveredPayload_set_of_ignores (ignores : rule.Ignores pkt.layout id) (emitted : Nat) :
    (pkt.set id value).coveredPayload rule emitted = pkt.coveredPayload rule emitted := by
  unfold coveredPayload
  split
  case h_1 => rfl
  case h_2 field length =>
    have apart : id ≠ field := by
      rintro rfl
      exact ignores.length length
    rw [get_set_ne apart, set_payload]

theorem headerChecksum_set (ignores : rule.Ignores pkt.layout id) :
    (pkt.set id value).headerChecksum rule = pkt.headerChecksum rule := by
  simp only [headerChecksum, emit_set_of_ignores ignores, coveredPayload_set_of_ignores ignores]

/-! ## Settled checksums -/

/-- Recomputing the checksum changes nothing. -/
def Settled (pkt : Packet) (rule : ChecksumRule) : Prop := pkt.updateChecksum rule = pkt

theorem updateChecksum_of_valid (valid : pkt.isValid rule.header = true) :
    pkt.updateChecksum rule = pkt.set rule.field (pkt.headerChecksum rule) := if_pos valid

theorem updateChecksum_of_invalid (invalid : ¬ pkt.isValid rule.header = true) :
    pkt.updateChecksum rule = pkt := if_neg invalid

@[simp] theorem updateChecksum_layout (pkt : Packet) (rule : ChecksumRule) :
    (pkt.updateChecksum rule).layout = pkt.layout :=
  (updateChecksum_edits pkt rule).layout_eq

/-- A checksum that ignores itself is settled once it has been recomputed. -/
theorem settled_updateChecksum (ignores : rule.Ignores pkt.layout rule.field) :
    (pkt.updateChecksum rule).Settled rule := by
  by_cases valid : pkt.isValid rule.header = true
  · rw [updateChecksum_of_valid valid, Settled, updateChecksum_of_valid (by rw [set_isValid, valid]),
      headerChecksum_set ignores, set_set]
  · rw [updateChecksum_of_invalid valid]
    exact updateChecksum_of_invalid valid

/-- A settled checksum stays settled when another one, which it ignores, is recomputed. -/
theorem Settled.updateChecksum (settled : pkt.Settled rule) (apart : other.field ≠ rule.field)
    (ignores : rule.Ignores pkt.layout other.field) : (pkt.updateChecksum other).Settled rule := by
  by_cases otherValid : pkt.isValid other.header = true
  · rw [updateChecksum_of_valid otherValid]
    by_cases valid : pkt.isValid rule.header = true
    · rw [Settled, updateChecksum_of_valid valid] at settled
      rw [Settled, updateChecksum_of_valid (by rw [set_isValid, valid]), headerChecksum_set ignores,
        set_comm apart, settled]
    · exact updateChecksum_of_invalid (by rwa [set_isValid])
  · rwa [updateChecksum_of_invalid otherValid]

end Packet

namespace Program

open Packet

variable {d : Description} {p : Program} {pkt : Packet} {rule other : ChecksumRule}

/-- Each header has at most one checksum, each checksum stands in its own header, and no length is read
from a checksum. -/
structure SeparateChecksums (p : Program) : Prop where
  single : (p.checksums.map (·.header)).Nodup
  own : ∀ rule ∈ p.checksums, rule.field ∈ p.layout.fieldIds rule.header
  lengths : ∀ rule ∈ p.checksums, ∀ other ∈ p.checksums, rule.lengthWords ≠ some other.field

namespace SeparateChecksums

/-- Checksums in the same field are the same. -/
theorem eq_of_field (separate : p.SeparateChecksums) (layout : p.layout.WellFormed)
    (mem : rule ∈ p.checksums) (otherMem : other ∈ p.checksums)
    (shared : other.field ∈ p.layout.fieldIds rule.header) : other = rule := by
  refine List.inj_on_of_nodup_map separate.single otherMem mem ?_
  by_contra different
  exact layout.fieldIds_disjoint different _ (separate.own other otherMem) _ shared rfl

theorem ignores (separate : p.SeparateChecksums) (layout : p.layout.WellFormed)
    (mem : rule ∈ p.checksums) (otherMem : other ∈ p.checksums) :
    rule.Ignores p.layout other.field :=
  ⟨fun shared => congrArg ChecksumRule.field (separate.eq_of_field layout mem otherMem shared),
    separate.lengths rule mem other otherMem⟩

/-- A settled checksum stays settled, whichever checksum is recomputed. -/
theorem settled_step (separate : p.SeparateChecksums) (layout : p.layout.WellFormed)
    (own : pkt.layout = p.layout) (mem : rule ∈ p.checksums) (otherMem : other ∈ p.checksums)
    (settled : pkt.Settled rule) : (pkt.updateChecksum other).Settled rule := by
  by_cases same : other.field = rule.field
  · have shared : other.field ∈ p.layout.fieldIds rule.header := same ▸ separate.own rule mem
    obtain rfl := separate.eq_of_field layout mem otherMem shared
    rw [settled]
    exact settled
  · exact settled.updateChecksum same (own ▸ separate.ignores layout mem otherMem)

/-- Some checksums one after another are settled then, and those that were before still are. -/
theorem settled_foldl (separate : p.SeparateChecksums) (layout : p.layout.WellFormed)
    (own : pkt.layout = p.layout) (mem : rule ∈ p.checksums) {rules : List ChecksumRule}
    (known : rules ⊆ p.checksums) (settled : rule ∈ rules ∨ pkt.Settled rule) :
    (rules.foldl Packet.updateChecksum pkt).Settled rule := by
  induction rules generalizing pkt with
  | nil => exact settled.resolve_left List.not_mem_nil
  | cons next rules ih =>
    obtain ⟨nextMem, others⟩ := List.cons_subset.mp known
    refine ih (by rw [updateChecksum_layout, own]) others ?_
    rcases settled with listed | settled
    · rcases List.mem_cons.mp listed with rfl | later
      · exact .inr (settled_updateChecksum (own ▸ separate.ignores layout mem mem))
      · exact .inl later
    · exact .inr (separate.settled_step layout own mem nextMem settled)

/-- One pass settles all checksums. -/
theorem settled_updateChecksums (separate : p.SeparateChecksums) (layout : p.layout.WellFormed)
    (own : pkt.layout = p.layout) : ∀ rule ∈ p.checksums, (p.updateChecksums pkt).Settled rule :=
  fun _ mem => separate.settled_foldl layout own mem (List.Subset.refl _) (.inl mem)

end SeparateChecksums

/-- Where all checksums are settled, recomputing them changes nothing. -/
theorem updateChecksums_of_settled (settled : ∀ rule ∈ p.checksums, pkt.Settled rule) :
    p.updateChecksums pkt = pkt := by
  have run : ∀ rules : List ChecksumRule, (∀ rule ∈ rules, pkt.Settled rule) →
      rules.foldl Packet.updateChecksum pkt = pkt := by
    intro rules
    induction rules with
    | nil => exact fun _ => rfl
    | cons rule rules ih =>
      intro settled
      obtain ⟨first, others⟩ := List.forall_mem_cons.mp settled
      rw [List.foldl_cons, first, ih others]
  exact run p.checksums settled

/-- Packets that agree on fields, flags and payload have the same checksums to recompute. -/
theorem updateChecksums_eq_self_of_alike {other : Packet} (alike : Alike pkt other)
    (settled : p.updateChecksums other = other) : p.updateChecksums pkt = pkt := by
  have updated := (p.updateChecksums_alike alike).toSameFields
  rw [settled] at updated
  rw [(p.updateChecksums_edits pkt).eq, updated.values, updated.valid, ← alike.values, ← alike.valid]

/-- The packet with its headers written in front of its payload. -/
def rewritten (p : Program) (pkt : Packet) : Packet :=
  (pkt.setData (p.headerBytes pkt ++ pkt.payload)).setPayloadOffset (p.headerBytes pkt).length

theorem deparse_eq (inside : pkt.payloadOffset ≤ pkt.data.length) :
    p.deparse pkt = .ok (p.rewritten (p.updateChecksums pkt)) :=
  if_neg (Nat.not_lt.mpr inside)

/-- Writing the headers leaves fields, flags and payload as they are. -/
theorem rewritten_alike (p : Program) (pkt : Packet) : Alike (p.rewritten pkt) pkt := by
  have offset : (p.rewritten pkt).payloadOffset = (p.headerBytes pkt).length :=
    Nat.min_eq_left (by simp [setData])
  refine ⟨⟨rfl, rfl, rfl⟩, ?_⟩
  rw [payload, offset]
  exact List.drop_left

theorem headerBytes_alike {other : Packet} (same : SameFields pkt other) :
    p.headerBytes pkt = p.headerBytes other := by
  rw [headerBytes, headerBytes, same.isValid_eq, same.emit_eq]

/-- Writing the headers again changes nothing. -/
theorem rewritten_rewritten (p : Program) (pkt : Packet) :
    p.rewritten (p.rewritten pkt) = p.rewritten pkt := by
  have alike := p.rewritten_alike pkt
  rw [rewritten, headerBytes_alike alike.toSameFields, alike.payload]
  rfl

/-- A packet of a program whose checksums are separate, whatever its fields, flags and payload are, is
written, and writing it a second time changes nothing at all. -/
theorem deparse_idempotent (loaded : load d = .ok p) (separate : p.SeparateChecksums)
    (own : pkt.layout = p.layout) (inside : pkt.payloadOffset ≤ pkt.data.length) :
    ∃ out, p.deparse pkt = .ok out ∧ p.deparse out = .ok out := by
  refine ⟨_, deparse_eq inside, ?_⟩
  have settled := separate.settled_updateChecksums (wellFormed_of_load loaded) own
  have unchanged := updateChecksums_eq_self_of_alike (p.rewritten_alike (p.updateChecksums pkt))
    (updateChecksums_of_settled settled)
  have insideAgain : (p.rewritten (p.updateChecksums pkt)).payloadOffset ≤
      (p.rewritten (p.updateChecksums pkt)).data.length := Nat.min_le_right _ _
  rw [deparse_eq insideAgain, unchanged, rewritten_rewritten]

/-- A header of 27 bits that counts the words it covers, and one of 14 bits; both have a checksum. -/
def taggedHeaders : Description where
  name := none
  headers := [⟨"tag", false, [⟨"words", 4⟩, ⟨"sum", 16⟩, ⟨"kind", 7⟩]⟩,
    ⟨"mark", false, [⟨"check", 9⟩, ⟨"level", 5⟩]⟩]
  parser := []
  deparser := ["mark", "tag"]
  tables := []
  checksums := [⟨"tag", "sum", some "words"⟩, ⟨"mark", "check", none⟩]

/-- The program of the tagged headers. -/
def taggedProgram : Program where
  description := taggedHeaders
  layout := ⟨[⟨"tag", false, 0, 3, 27⟩, ⟨"mark", false, 3, 2, 14⟩],
    [⟨"tag.words", 0, 4⟩, ⟨"tag.sum", 0, 16⟩, ⟨"tag.kind", 0, 7⟩, ⟨"mark.check", 1, 9⟩,
      ⟨"mark.level", 1, 5⟩]⟩
  states := []
  deparseOrder := [1, 0]
  checksums := [⟨0, 1, some 0⟩, ⟨1, 3, none⟩]
  tables := ⟨[]⟩

/-- Both headers are valid, with wrong checksums, in front of a payload of five bytes. The tag covers four
of these, and the first writing moves them from the second byte to the seventh. -/
def taggedPacket : Packet :=
  { Packet.new 0 3 [7, 1, 2, 3, 4, 5] taggedProgram.layout with
    values := [2, 0xbeef, 0x55, 1, 9], valid := [true, true], payloadOffset := 1 }

theorem deparse_idempotent_tagged :
    load taggedHeaders = .ok taggedProgram ∧ taggedProgram.SeparateChecksums ∧
      taggedPacket.layout = taggedProgram.layout ∧
      taggedPacket.payloadOffset ≤ taggedPacket.data.length ∧
      ∃ out, taggedProgram.deparse taggedPacket = .ok out ∧ taggedProgram.deparse out = .ok out := by
  have loaded : load taggedHeaders = .ok taggedProgram := rfl
  have separate : taggedProgram.SeparateChecksums := ⟨by decide, by decide, by decide⟩
  have inside : taggedPacket.payloadOffset ≤ taggedPacket.data.length := by decide
  exact ⟨loaded, separate, rfl, inside, deparse_idempotent loaded separate rfl inside⟩

end Program

end Switchyard
