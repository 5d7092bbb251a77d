import Switchyard.Proofs.BasicSwitch.Datagram

/-!
# One checksum, computed twice

A host computes the checksum of an IPv4 header from its fields and leaves out the word where the checksum
stands. The switch computes it from the fields that it has parsed, with zero for the checksum, and takes
the options from the payload. The two agree on every header whose options fit, whatever comes behind it.
Whatever the bytes are, an IPv4 header in which the switch finds no fault verifies.
-/

namespace Switchyard

namespace BasicSwitch

open Packet Program

variable {e : EthernetHeader} {h : Ipv4Header} {start : Packet} {b : Bytes}

/-- The corrected bytes are those of the header with the checksum that it should carry. -/
theorem corrected_encode (type : e.etherType = EtherType.ipv4) (fits : OptionsFit h.options)
    (rest : Bytes) :
    corrected (e.encode ++ (h.encode ++ rest)) = e.encode ++ (h.withChecksum.encode ++ rest) := by
  have holds := holdsIpv4_encode h type rest
  have place : e.encode.length + 2 * 5 = 24 := by rw [length_ethernet]
  have inside : 2 * 5 + (BigEndian.encode 2 h.computedChecksum.toNat).length ≤ h.encode.length :=
    h.checksum_inside
  have encoded : h.withChecksum.encode =
      Bytes.patch h.encode (2 * 5) (BigEndian.encode 2 h.computedChecksum.toNat) :=
    h.encode_checksum h.computedChecksum
  rw [corrected, if_pos holds, computedChecksum_encode type fits, encoded,
    Bytes.patch_between place inside]

/-- The parser finds no bad checksum just where there is an IPv4 header with the right one, or none. -/
theorem checksumError_eq_false_iff (fresh : start.Fresh program) :
    (program.parse start).checksumError = false ↔
      (HoldsIpv4 start.data → storedChecksum start.data = computedChecksum start.data) := by
  have represents := parse_represents (parsable_of_fresh fresh)
  rw [← Bool.not_eq_true, checksumError_parse, represents.hasBadChecksum_iff, not_and,
    Classical.not_not]

/-- A packet that was parsed is written with the checksum that its bytes should carry. -/
theorem deparse_checksum (represents : Represents start b) (holds : HoldsIpv4 b) :
    ∃ out, program.deparse start = .ok out ∧ out.data = corrected b ∧
      out.field? "ipv4.hdr_checksum" = some (storedChecksum (corrected b)) := by
  obtain ⟨out, deparsed, -, data⟩ := deparse_ok (p := program) represents.wellFormed.offset
  have same := sameFields_of_deparse deparsed
  have updated := represents.updateChecksums
  have stored := (holdsIpv4_congr (shape_corrected b)).mpr holds
  have found : out.layout.fieldId? "ipv4.hdr_checksum" = some checksumField := by
    rw [same.layout, updated.layout]
    decide
  refine ⟨out, deparsed, data.trans represents.written_eq, ?_⟩
  rw [field?, found, Option.map_some, same.get_eq, updated.get_checksum stored]

/-- The checksum of a header is the one that the switch parses and writes. A frame with any IPv4 header
whose options fit, and anything behind it, is found to be right exactly if the header carries the checksum
computed from its fields; deparsing puts that checksum into the field and into the bytes. The bytes of the
header verify with it, and else only with all ones in place of zero. Conversely, whatever the bytes of a
packet are, where the parser finds an IPv4 header and no bad checksum, that header verifies with its
options, as far as there are bytes. -/
theorem checksums_agree {program : Program} (loaded : Program.load description = .ok program) :
    (∀ (e : EthernetHeader) (h : Ipv4Header) (rest : Bytes) (start : Packet),
      e.etherType = EtherType.ipv4 → OptionsFit h.options → start.Fresh program →
      start.data = e.encode ++ (h.encode ++ rest) →
        (internetChecksum h.encode = 0 ↔
          h.checksum = h.computedChecksum ∨ h.computedChecksum = 0 ∧ h.checksum = 65535) ∧
        (program.parse start).headerValid "ipv4" = true ∧
        ((program.parse start).checksumError = false ↔ h.checksum = h.computedChecksum) ∧
        ∃ out, program.deparse (program.parse start) = .ok out ∧
          out.field? "ipv4.hdr_checksum" = some h.computedChecksum.toNat ∧
          out.data = e.encode ++ (h.withChecksum.encode ++ rest)) ∧
    ∀ start : Packet, start.Fresh program → (program.parse start).headerValid "ipv4" = true →
      (program.parse start).checksumError = false → internetChecksum (covered start.data) = 0 := by
  obtain rfl : BasicSwitch.program = program := Except.ok.inj (load_description.symm.trans loaded)
  constructor
  · intro e h rest start type fits fresh data
    have represents := parse_represents (parsable_of_fresh fresh)
    have holds := holdsIpv4_encode h type rest
    have verdict := checksumError_eq_false_iff fresh
    have corrections := corrected_encode type fits rest
    rw [data] at represents verdict
    obtain ⟨-, carried, -⟩ := read_ipv4 (e := e) h rest
    obtain ⟨-, written, -⟩ := read_ipv4 (e := e) h.withChecksum rest
    obtain ⟨out, deparsed, bytes, field⟩ := deparse_checksum represents holds
    refine ⟨h.internetChecksum_encode_eq_zero_iff, represents.headerValid_ipv4.mpr holds, ?_,
      out, deparsed, ?_, bytes.trans corrections⟩
    · rw [verdict, storedChecksum, carried, computedChecksum_encode type fits, UInt16.toNat_inj]
      exact ⟨fun right => right holds, fun right _ => right⟩
    · rw [field, corrections, storedChecksum, written]
      rfl
  · intro start fresh valid noError
    have holds := (parse_represents (parsable_of_fresh fresh)).headerValid_ipv4.mp valid
    have unchanged := corrected_eq_self_iff.mpr ((checksumError_eq_false_iff fresh).mp noError)
    rw [← unchanged]
    exact internetChecksum_corrected holds

/-- A header with the router alert option, and without its checksum. -/
def routerAlert : Ipv4Header :=
  { tos := 0, totalLength := 27, identification := 9, flagsFragment := 0x4000, ttl := 64
    protocol := IpProtocol.udp, checksum := 0, src := ⟨0x0a000001#32⟩, dst := ⟨0x0a000002#32⟩
    options := [0x94, 4, 0, 0] }

/-- An odd number of bytes behind a header. -/
def routerAlertFrame (h : Ipv4Header) : Bytes :=
  (EthernetHeader.mk ⟨2#48⟩ ⟨1#48⟩ EtherType.ipv4).encode ++ (h.encode ++ [0x11, 0x22, 0x33])

def routerAlertPacket (h : Ipv4Header) : Packet := .new 0 1 (routerAlertFrame h) program.layout

/-- With its checksum the header is found to be right, without it it is not, and deparsing puts it in. -/
theorem checksums_agree_routerAlert :
    Program.load description = .ok program ∧ OptionsFit routerAlert.options ∧
      routerAlert.computedChecksum = 0x91c2 ∧
      internetChecksum routerAlert.withChecksum.encode = 0 ∧
      (program.parse (routerAlertPacket routerAlert.withChecksum)).checksumError = false ∧
      (program.parse (routerAlertPacket routerAlert)).checksumError ≠ false ∧
      (∃ out, program.deparse (program.parse (routerAlertPacket routerAlert)) = .ok out ∧
        out.field? "ipv4.hdr_checksum" = some 0x91c2 ∧
        out.data = routerAlertFrame routerAlert.withChecksum) ∧
      internetChecksum (covered (routerAlertFrame routerAlert.withChecksum)) = 0 := by
  have computed : routerAlert.computedChecksum = 0x91c2 := by
    apply UInt16.toNat_inj.mp
    rw [Ipv4Header.computedChecksum, internetChecksumWithout_toNat (by decide),
      InternetChecksum.fold_eq]
    decide
  have fits : OptionsFit routerAlert.options := by decide
  have fresh (h : Ipv4Header) : (routerAlertPacket h).Fresh program := fresh_new _ _ _ _
  obtain ⟨agree, converse⟩ := checksums_agree load_description
  obtain ⟨-, -, wrong, out, deparsed, field, data⟩ :=
    agree _ routerAlert [0x11, 0x22, 0x33] _ rfl fits (fresh routerAlert) rfl
  obtain ⟨verifies, valid, right, -⟩ :=
    agree _ routerAlert.withChecksum [0x11, 0x22, 0x33] _ rfl fits (fresh _) rfl
  have carried := right.mpr routerAlert.computedChecksum_withChecksum.symm
  refine ⟨load_description, fits, computed,
    verifies.mpr (Or.inl routerAlert.computedChecksum_withChecksum.symm), carried, ?_,
    ⟨out, deparsed, ?_, data⟩, converse _ (fresh _) valid carried⟩
  · rw [Ne, wrong, computed]
    decide
  · rw [field, computed]
    rfl

end BasicSwitch

end Switchyard
