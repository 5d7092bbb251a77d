import Switchyard.Proofs.Checked.Headers
import Switchyard.Proofs.Packet.Filling

/-!
# What a header checksum covers

A checksum with a length field covers the header and as much of the payload as the field asks for. The
field counts units of 32 bits and may itself have up to 128 bits; only 64 of them are kept, and four times
that must fit 64 bits again. So a field of up to 62 bits is always obeyed. In a wider field the upper bits do
not count: the checksum covers too little, or the multiplication overflows.
-/

namespace Switchyard

namespace Packet

variable {pkt : Packet} {rule : ChecksumRule}

/-! ## Coverage -/

/-- The header of a rule in whole bytes, the checksum taken as zero. -/
def zeroedHeader (pkt : Packet) (rule : ChecksumRule) : Bytes :=
  Bits.toBytes ((pkt.set rule.field 0).emit rule.header)

/-- How many payload bytes belong to a header that is so many units of 32 bits long. -/
def coveredBytes (pkt : Packet) (rule : ChecksumRule) (words : Nat) : Nat :=
  min (4 * words - (pkt.zeroedHeader rule).length) pkt.payload.length

/-- The header and the payload bytes that belong to it. What is not there is not covered. -/
def coverage (pkt : Packet) (rule : ChecksumRule) (words : Nat) : Bytes :=
  pkt.zeroedHeader rule ++ pkt.payload.take (pkt.coveredBytes rule words)

/-- The checksum over the header and the payload bytes that belong to it. -/
def checksumOver (pkt : Packet) (rule : ChecksumRule) (words : Nat) : Nat :=
  (internetChecksum (pkt.coverage rule words)).toNat

/-- The smallest length in units of 32 bits that is, in bytes, too large for a 64-bit count. -/
def wordLimit : Nat := UInt64.size / 4

theorem coverage_eq_iff {words others : Nat} :
    pkt.coverage rule words = pkt.coverage rule others ↔
      pkt.coveredBytes rule words = pkt.coveredBytes rule others := by
  constructor
  · intro same
    have taken := congrArg List.length (List.append_cancel_left same)
    have inside : ∀ words, pkt.coveredBytes rule words ≤ pkt.payload.length :=
      fun words => Nat.min_le_right _ _
    rwa [List.length_take, List.length_take, Nat.min_eq_left (inside _), Nat.min_eq_left (inside _)]
      at taken
  · intro same
    rw [coverage, coverage, same]

/-- A smaller length covers as much exactly if there is no more payload, or if even the larger one asks for
none. -/
theorem coveredBytes_eq_iff {words others : Nat} (fewer : words < others) :
    pkt.coveredBytes rule words = pkt.coveredBytes rule others ↔
      pkt.payload.length ≤ 4 * words - (pkt.zeroedHeader rule).length ∨
        4 * others ≤ (pkt.zeroedHeader rule).length := by
  unfold coveredBytes
  omega

/-- A length covers as much without its upper bits exactly if it has none, or if they ask for nothing that is
there. -/
theorem coverage_mod_eq_iff {words : Nat} :
    pkt.coverage rule (words % wordLimit) = pkt.coverage rule words ↔
      words < wordLimit ∨
        pkt.payload.length ≤ 4 * (words % wordLimit) - (pkt.zeroedHeader rule).length ∨
        4 * words ≤ (pkt.zeroedHeader rule).length := by
  by_cases small : words < wordLimit
  · rw [Nat.mod_eq_of_lt small]
    exact iff_of_true rfl (.inl small)
  · have fewer : words % wordLimit < words :=
      Nat.lt_of_lt_of_le (Nat.mod_lt _ (by decide)) (Nat.le_of_not_lt small)
    rw [coverage_eq_iff, coveredBytes_eq_iff fewer]
    simp only [small, false_or]

/-- Both cuts of a length, to 64 bits before and after it is multiplied, are one. -/
theorem lengthInBytes_eq (words : Nat) : lengthInBytes words = 4 * (words % wordLimit) := by
  have size : UInt64.size = 4 * wordLimit := by decide
  rw [lengthInBytes, Nat.mod_mul_mod, size, Nat.mul_comm words, Nat.mul_mod_mul_left]

/-- The upper bits of the length field do not count. -/
theorem headerChecksum_eq {field : FieldId} (counted : rule.lengthWords = some field) :
    pkt.headerChecksum rule = pkt.checksumOver rule (pkt.get field % wordLimit) := by
  unfold headerChecksum coveredPayload
  rw [counted]
  dsimp only
  rw [lengthInBytes_eq, checksumOver, coverage, coveredBytes, ← List.take_eq_take_min]
  rfl

end Packet

namespace Checked

variable {pkt : Packet} {L : Layout} {rule : ChecksumRule} {field : FieldId}

/-- Where the payload begins is no matter to the fields. -/
theorem get_of_fills {id : FieldId} (fills : pkt.Fills L) (declared : id < L.fields.length) :
    get pkt id = .ok (pkt.get id) := by
  obtain ⟨rfl, wf⟩ := fills
  have found : get { pkt with payloadOffset := 0 } id = .ok (pkt.get id) := get_ok wf declared
  exact found

theorem emit_of_fills {header : HeaderId} (layout : L.WellFormed) (fills : pkt.Fills L)
    (declared : header < L.headers.length) :
    emit pkt header (some rule.field) = .ok ((pkt.set rule.field 0).emit header) := by
  obtain ⟨rfl, wf⟩ := fills
  have emitted : emit { pkt with payloadOffset := 0 } header (some rule.field) =
      .ok ((pkt.set rule.field 0).emit header) := emit_ok layout wf declared
  exact emitted

/-- The checksum comes through unless the length overflows. -/
theorem headerChecksum_eq (layout : L.WellFormed) (covers : Program.Covers L rule)
    (counted : rule.lengthWords = some field) (fills : pkt.Fills L) :
    headerChecksum pkt rule =
      if pkt.get field % UInt64.size * 4 < UInt64.size then .ok (pkt.headerChecksum rule)
      else .error (.word (pkt.get field % UInt64.size * 4)) := by
  have found := get_of_fills fills (covers.lengthWords field counted)
  unfold headerChecksum
  rw [emit_of_fills layout fills covers.header]
  show (coveredPayload pkt rule (pkt.zeroedHeader rule).length >>= _) = _
  rw [coveredPayload_eq counted found]
  split <;> rfl

/-- A field of more than 62 bits can hold a length that overflows. -/
theorem exists_overflow (layout : L.WellFormed) (covers : Program.Covers L rule)
    (counted : rule.lengthWords = some field) (wide : 62 < L.width field) :
    ∃ pkt : Packet, pkt.Fills L ∧ headerChecksum pkt rule = .error (.word UInt64.size) := by
  have limit : Packet.wordLimit = Nat.pow 2 62 := by decide
  have fits : Packet.wordLimit < Nat.pow 2 (L.width field) := by
    rw [limit]
    exact Nat.pow_lt_pow_right (by decide) wide
  -- The smallest length that overflows is one that the field can hold.
  let pkt := (Packet.new 0 0 [] L).set field Packet.wordLimit
  have fills : pkt.Fills L := (Packet.fills_new 0 0 [] L).edits (Packet.Edits.refl.set _ _)
  have there : field < (Packet.new 0 0 [] L).values.length :=
    (Packet.wellFormed_new 0 0 [] L).lt_values (covers.lengthWords field counted)
  have words : pkt.get field = Packet.wordLimit :=
    (Packet.get_set_self there).trans (Nat.mod_eq_of_lt fits)
  refine ⟨pkt, fills, ?_⟩
  rw [headerChecksum_eq layout covers counted fills, words]
  rfl

/-- A checksum with a length field covers the header and the payload bytes up to the length that the field
gives without its upper bits. That is what the field asks for exactly if it has no upper bits, or if they
ask for nothing that is there. In all packets the checksum comes through over what the field asks for
exactly if the field has at most 62 bits. -/
theorem checksum_covers {d : Description} {p : Program} (loaded : Program.load d = .ok p)
    (member : rule ∈ p.checksums) (counted : rule.lengthWords = some field) :
    (∀ pkt : Packet, pkt.Fills p.layout →
      let words := pkt.get field
      let size := (pkt.zeroedHeader rule).length
      pkt.headerChecksum rule = pkt.checksumOver rule (words % Packet.wordLimit) ∧
      headerChecksum pkt rule = (if words % UInt64.size * 4 < UInt64.size then
        .ok (pkt.headerChecksum rule) else .error (.word (words % UInt64.size * 4))) ∧
      (pkt.coverage rule (words % Packet.wordLimit) = pkt.coverage rule words ↔
        words < Packet.wordLimit ∨ pkt.payload.length ≤ 4 * (words % Packet.wordLimit) - size ∨
          4 * words ≤ size)) ∧
    ((∀ pkt : Packet, pkt.Fills p.layout →
      headerChecksum pkt rule = .ok (pkt.checksumOver rule (pkt.get field))) ↔
        p.layout.width field ≤ 62) := by
  have declared := Program.declared_of_load loaded
  have covers := declared.checksums rule member
  have came := fun (pkt : Packet) (fills : pkt.Fills p.layout) =>
    headerChecksum_eq declared.layout covers counted fills
  refine ⟨?_, ?_, ?_⟩
  · intro pkt fills
    exact ⟨Packet.headerChecksum_eq counted, came pkt fills, Packet.coverage_mod_eq_iff⟩
  · intro all
    by_contra wide
    obtain ⟨pkt, fills, failed⟩ :=
      exists_overflow declared.layout covers counted (Nat.lt_of_not_le wide)
    rw [all pkt fills] at failed
    cases failed
  · intro narrow pkt fills
    have fits : pkt.get field < Nat.pow 2 (p.layout.width field) := by
      rw [← fills.layout]
      exact fills.wellFormed.fits field
    have bytes := Program.bytes_lt_of_narrow fits narrow
    have size : UInt64.size = Packet.wordLimit * 4 := by decide
    have small : pkt.get field < UInt64.size := by omega
    have below : pkt.get field < Packet.wordLimit := by omega
    rw [came pkt fills, Nat.mod_eq_of_lt small, if_pos bytes, Packet.headerChecksum_eq counted,
      Nat.mod_eq_of_lt below]

/-- A header with a checksum and a length of 80 bits. -/
def wideLength : Description where
  name := some "wide"
  headers := [⟨"h", false, [⟨"csum", 16⟩, ⟨"len", 80⟩]⟩]
  parser := []
  deparser := ["h"]
  tables := []
  checksums := [⟨"h", "csum", some "len"⟩]

/-- The checksum rule of `wideLength`. -/
def wideRule : ChecksumRule := ⟨0, 0, some 1⟩

/-- The program of `wideLength`. -/
def wideProgram : Program where
  description := wideLength
  layout := ⟨[⟨"h", false, 0, 2, 96⟩], [⟨"h.csum", 0, 16⟩, ⟨"h.len", 0, 80⟩]⟩
  states := []
  deparseOrder := [0]
  checksums := [wideRule]
  tables := ⟨[]⟩

/-- Two bytes of payload behind a header that says that it is `2 ^ 64` units long. -/
def longPacket : Packet := (Packet.new 0 1 [0x12, 0x34] wideProgram.layout).set 1 UInt64.size

/-- The length asks for all of the payload, and none of it is covered. -/
theorem checksum_covers_wide :
    Program.load wideLength = .ok wideProgram ∧ wideRule ∈ wideProgram.checksums ∧
      wideRule.lengthWords = some 1 ∧ longPacket.Fills wideProgram.layout ∧
      longPacket.get 1 = UInt64.size ∧
      longPacket.coverage wideRule (UInt64.size % Packet.wordLimit) ≠
        longPacket.coverage wideRule UInt64.size ∧
      longPacket.checksumOver wideRule UInt64.size = 0xedca ∧
      headerChecksum longPacket wideRule = .ok 0xfffe ∧ ¬ wideProgram.layout.width 1 ≤ 62 := by
  have loaded : Program.load wideLength = .ok wideProgram := rfl
  have member : wideRule ∈ wideProgram.checksums := List.mem_singleton.mpr rfl
  have stored : Packet.Operation.runAll wideProgram (.new 0 1 [0x12, 0x34] wideProgram.layout)
      [.set 1 UInt64.size] = .ok longPacket := rfl
  have fills := Packet.fills_of_runAll stored
  obtain ⟨each, always⟩ := checksum_covers loaded member rfl
  obtain ⟨-, checked, covered⟩ := each longPacket fills
  -- The length has upper bits, and they ask for two bytes that are there.
  have asked : ¬ (longPacket.get 1 < Packet.wordLimit ∨
      longPacket.payload.length ≤ 4 * (longPacket.get 1 % Packet.wordLimit) -
          (longPacket.zeroedHeader wideRule).length ∨
        4 * longPacket.get 1 ≤ (longPacket.zeroedHeader wideRule).length) := by decide +kernel
  have short : headerChecksum longPacket wideRule = .ok 0xfffe := by
    rw [checked]
    decide +kernel
  have whole : longPacket.checksumOver wideRule UInt64.size = 0xedca := by decide +kernel
  refine ⟨loaded, member, rfl, fills, rfl, mt covered.mp asked, whole, short, ?_⟩
  intro narrow
  have same := short.symm.trans ((always.mpr narrow longPacket fills).trans (congrArg Except.ok whole))
  exact absurd same (by decide)

end Checked

end Switchyard
