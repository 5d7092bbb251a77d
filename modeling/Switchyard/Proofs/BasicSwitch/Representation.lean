import Switchyard.Proofs.BasicSwitch.Parsing

/-!
# Packets of the basic switch and their bytes

`Represents pkt b` says that the bytes `b` are what the packet stands for at this moment. Parsing
establishes it for the bytes that came in; storing metadata keeps it, and storing the time to live, the
hop limit or the checksum patches the bytes. So what a control does to the fields of a packet is known as
a change of its bytes, and deparsing writes these bytes with the checksum corrected.
-/

namespace Switchyard

namespace BasicSwitch

open Packet Program

/-- The packet stands for the bytes. -/
structure Represents (pkt : Packet) (b : Bytes) : Prop where
  layout : pkt.layout = layout
  wellFormed : pkt.WellFormed
  holds : Holds program pkt (headersIn b) b

/-- Parsing a packet makes it stand for its bytes. -/
theorem parse_represents {start : Packet} (parsable : Parsable start) :
    Represents (program.parse start) start.data := by
  have descends := program.parse_descends start
  have found := walk_start parsable
  have stack := headersIn_mem start.data
  have whole : ∀ stack ∈ headerStacks, layout.totalBits (layout.fieldsOf stack) =
      8 * (layout.totalBits (layout.fieldsOf stack) / 8) := by
    decide
  have sorted : ∀ stack ∈ headerStacks,
      program.deparseOrder.filter (fun h => decide (h ∈ stack)) = stack := by
    decide
  have flags : program.deparseOrder.filter (program.parse start).isValid =
      program.deparseOrder.filter fun h => decide (h ∈ headersIn start.data) := by
    apply List.filter_congr
    intro h member
    have onWire : ∀ h ∈ program.deparseOrder, ethernetHeader ≤ h := by decide
    have flag := found.valid h
    rw [parsable.fresh h (onWire h member), Bool.false_or] at flag
    rw [isValid_parse, flag]
  refine ⟨descends.layout.trans parsable.layout, descends.wellFormed parsable.wellFormed, ?_⟩
  apply parse_holds found
  · rw [parsable.layout]
    exact whole _ stack
  · exact flags.trans (sorted _ stack)

namespace Represents

variable {pkt : Packet} {b : Bytes} {value : Nat}

/-! ## Flags and fields -/

theorem isValid_iff (represents : Represents pkt b) {h : HeaderId}
    (onWire : h ∈ program.deparseOrder) : pkt.isValid h = true ↔ h ∈ headersIn b := by
  rw [← represents.holds.order, List.mem_filter]
  exact ⟨fun valid => ⟨onWire, valid⟩, fun both => both.2⟩

theorem isValid_ipv4 (represents : Represents pkt b) :
    pkt.isValid ipv4Header = true ↔ HoldsIpv4 b :=
  (represents.isValid_iff (by decide)).trans mem_headersIn_ipv4

theorem headerValid_ipv4 (represents : Represents pkt b) :
    pkt.headerValid "ipv4" = true ↔ HoldsIpv4 b := by
  have found : pkt.layout.headerId? "ipv4" = some ipv4Header := by
    rw [represents.layout]
    decide
  rw [headerValid, found]
  exact represents.isValid_ipv4

theorem isValid_ipv6 (represents : Represents pkt b) :
    pkt.isValid ipv6Header = true ↔ HoldsIpv6 b :=
  (represents.isValid_iff (by decide)).trans mem_headersIn_ipv6

/-- A field is the number where the headers have it. -/
theorem get_eq (represents : Represents pkt b) {front rest : List HeaderId} {id : FieldId}
    {position width : Nat} (stack : headersIn b = front ++ rest)
    (places : BasicSwitch.layout.Places front id position width) :
    pkt.get id = Bits.read b position width := by
  have leads := represents.holds.leads
  rw [stack] at leads
  apply leads.get_of_places represents.wellFormed
  rw [represents.layout]
  exact places.append rest

theorem get_ttl (represents : Represents pkt b) (holds : HoldsIpv4 b) :
    pkt.get ttlField = BigEndian.read b 22 1 := by
  obtain ⟨rest, stack⟩ := headersIn_ipv4 holds
  rw [represents.get_eq stack places_ttl, Bits.read_bytes]

theorem get_checksum (represents : Represents pkt b) (holds : HoldsIpv4 b) :
    pkt.get checksumField = storedChecksum b := by
  obtain ⟨rest, stack⟩ := headersIn_ipv4 holds
  rw [represents.get_eq stack places_checksum, Bits.read_bytes, storedChecksum]

theorem get_ihl (represents : Represents pkt b) (holds : HoldsIpv4 b) :
    pkt.get ihlField = headerWords b := by
  obtain ⟨rest, stack⟩ := headersIn_ipv4 holds
  have long := holds.2
  rw [represents.get_eq stack places_ihl]
  exact Bits.read_low (by omega) (by decide)

theorem get_hopLimit (represents : Represents pkt b) (holds : HoldsIpv6 b) :
    pkt.get hopLimitField = BigEndian.read b 21 1 := by
  obtain ⟨rest, stack⟩ := headersIn_ipv6 holds
  rw [represents.get_eq stack places_hopLimit, Bits.read_bytes]

theorem get_ipv4Destination (represents : Represents pkt b) (holds : HoldsIpv4 b) :
    pkt.get ipv4DestinationField = BigEndian.read b 30 4 := by
  obtain ⟨rest, stack⟩ := headersIn_ipv4 holds
  rw [represents.get_eq stack places_ipv4Destination, Bits.read_bytes]

theorem get_ipv6Destination (represents : Represents pkt b) (holds : HoldsIpv6 b) :
    pkt.get ipv6DestinationField = BigEndian.read b 38 16 := by
  obtain ⟨rest, stack⟩ := headersIn_ipv6 holds
  rw [represents.get_eq stack places_ipv6Destination, Bits.read_bytes]

/-! ## Storing values -/

theorem get_stored (represents : Represents pkt b) {id : FieldId}
    (declared : id < BasicSwitch.layout.fields.length) :
    (pkt.set id value).get id = value % Nat.pow 2 (BasicSwitch.layout.width id) := by
  have inside : id < pkt.values.length := by
    apply represents.wellFormed.lt_values
    rw [represents.layout]
    exact declared
  rw [get_set_self inside, represents.layout]

theorem set_metadata (represents : Represents pkt b) {id : Nat} (metadata : id < 13) :
    Represents (pkt.set id value) b := by
  refine ⟨represents.layout, represents.wellFormed.set id value, ?_⟩
  apply represents.holds.set_apart
  rw [represents.layout]
  exact metadata_apart (headersIn_onWire b) metadata

/-- Storing a value in a field of whole bytes, without changing the shape. -/
theorem set_patch (represents : Represents pkt b) {front rest : List HeaderId} {id : FieldId}
    {start count : Nat} (stack : headersIn b = front ++ rest)
    (places : BasicSwitch.layout.Places front id (8 * start) (8 * count))
    (declared : id < BasicSwitch.layout.fields.length)
    (same : shape (Bytes.patch b start (BigEndian.encode count value)) = shape b) :
    Represents (pkt.set id value) (Bytes.patch b start (BigEndian.encode count value)) := by
  refine ⟨represents.layout, represents.wellFormed.set id value, ?_⟩
  rw [headersIn_congr same]
  apply represents.holds.set_patch
  · rw [represents.layout, stack]
    exact places.append rest
  · rw [represents.layout]
    exact wellFormed_layout.fieldsOf_nodup (headersIn_nodup b)
  · apply represents.wellFormed.lt_values
    rw [represents.layout]
    exact declared

theorem set_ttl (represents : Represents pkt b) (holds : HoldsIpv4 b) :
    Represents (pkt.set ttlField value) (Bytes.patch b 22 (BigEndian.encode 1 value)) := by
  obtain ⟨rest, stack⟩ := headersIn_ipv4 holds
  have long := holds.2
  have length := BigEndian.length_encode 1 value
  exact represents.set_patch stack places_ttl (by decide)
    (shape_patch (by omega) (by decide) (Or.inl (by omega)))

theorem set_checksum (represents : Represents pkt b) (holds : HoldsIpv4 b) :
    Represents (pkt.set checksumField value) (Bytes.patch b 24 (BigEndian.encode 2 value)) := by
  obtain ⟨rest, stack⟩ := headersIn_ipv4 holds
  exact represents.set_patch stack places_checksum (by decide) (shape_patch_checksum holds value)

theorem set_hopLimit (represents : Represents pkt b) (holds : HoldsIpv6 b) :
    Represents (pkt.set hopLimitField value) (Bytes.patch b 21 (BigEndian.encode 1 value)) := by
  obtain ⟨rest, stack⟩ := headersIn_ipv6 holds
  have long := holds.2
  have length := BigEndian.length_encode 1 value
  exact represents.set_patch stack places_hopLimit (by decide)
    (shape_patch (by omega) (by decide) (Or.inl (by omega)))

/-! ## The checksum -/

/-- The fixed part of the IPv4 header, as it would be emitted. -/
theorem emit_ipv4 (represents : Represents pkt b) (holds : HoldsIpv4 b) :
    Bits.toBytes (pkt.emit ipv4Header) = (b.drop 14).take 20 := by
  obtain ⟨rest, stack⟩ := headersIn_ipv4 holds
  have leads := represents.holds.leads
  have split : pkt.layout.fieldsOf (headersIn b) =
      BasicSwitch.layout.fieldsOf [ethernetHeader] ++ BasicSwitch.layout.fieldIds ipv4Header ++
        BasicSwitch.layout.fieldsOf rest := by
    rw [represents.layout, stack, Layout.fieldsOf_append]
    rfl
  have bits := leads.slice split
  have before : BasicSwitch.layout.totalBits (BasicSwitch.layout.fieldsOf [ethernetHeader]) =
      8 * 14 := by
    decide
  have width : BasicSwitch.layout.totalBits (BasicSwitch.layout.fieldIds ipv4Header) = 8 * 20 := by
    decide
  rw [represents.layout, before, width, Bits.drop_ofBytes, Bits.take_ofBytes] at bits
  rw [emit, represents.layout, bits, Bits.toBytes_ofBytes]

/-- The options, as far as there are bytes. -/
theorem coveredPayload_ipv4 (represents : Represents pkt b) (holds : HoldsIpv4 b) :
    pkt.coveredPayload ipv4Checksum 20 = (b.drop 34).take (4 * headerWords b - 20) := by
  have small : headerWords b < 16 := Nat.mod_lt _ (by decide)
  have length : lengthInBytes (headerWords b) = 4 * headerWords b := by
    have wide : UInt64.size = 18446744073709551616 := rfl
    have few : headerWords b % UInt64.size = headerWords b := Nat.mod_eq_of_lt (by omega)
    rw [lengthInBytes, few, Nat.mod_eq_of_lt (by omega), Nat.mul_comm]
  show pkt.payload.take (lengthInBytes (pkt.get ihlField) - 20) = _
  rw [represents.get_ihl holds, length]
  by_cases plain : headerWords b = 5
  · rw [plain]
    rfl
  · have ends := represents.holds.ends
    have whole : BasicSwitch.layout.totalBits
        (BasicSwitch.layout.fieldsOf [ethernetHeader, ipv4Header]) = 8 * 34 := by
      decide
    rw [represents.layout, headersIn_options holds plain, whole] at ends
    have offset : pkt.payloadOffset = 34 := by omega
    rw [represents.holds.payload, offset]

/-- The checksum that the packet computes is that of its bytes. -/
theorem headerChecksum_eq (represents : Represents pkt b) (holds : HoldsIpv4 b) :
    pkt.headerChecksum ipv4Checksum = computedChecksum b := by
  have long := holds.2
  have zeroed : Represents (pkt.set checksumField 0) (Bytes.patch b 24 [0, 0]) :=
    represents.set_checksum holds
  have same : shape (Bytes.patch b 24 [0, 0]) = shape b := shape_patch_checksum holds 0
  have holdsZeroed := (holdsIpv4_congr same).mpr holds
  have emitted := zeroed.emit_ipv4 holdsZeroed
  have fixed : (((Bytes.patch b 24 [0, 0]).drop 14).take 20).length = 20 := by
    have := holdsZeroed.2
    rw [List.length_take, List.length_drop]
    omega
  have options : b.drop 34 = ((Bytes.patch b 24 [0, 0]).drop 14).drop 20 := by
    rw [List.drop_drop]
    exact (Bytes.drop_patch (by simp only [List.length_cons, List.length_nil]; omega)
      (by decide)).symm
  have reach : max 20 (4 * headerWords b) = 20 + (4 * headerWords b - 20) := by omega
  rw [computedChecksum, covered, headerWords_congr same, reach, List.take_add, ← options,
    ← represents.coveredPayload_ipv4 holds]
  show (internetChecksum (Bits.toBytes ((pkt.set checksumField 0).emit ipv4Header) ++
    pkt.coveredPayload ipv4Checksum
      (Bits.toBytes ((pkt.set checksumField 0).emit ipv4Header)).length)).toNat = _
  rw [emitted, fixed]

/-- Recomputing the checksums corrects the bytes. -/
theorem updateChecksums (represents : Represents pkt b) :
    Represents (program.updateChecksums pkt) (corrected b) := by
  show Represents (if pkt.isValid ipv4Header = true then
    pkt.set checksumField (pkt.headerChecksum ipv4Checksum) else pkt) (corrected b)
  unfold corrected
  by_cases holds : HoldsIpv4 b
  · rw [if_pos (represents.isValid_ipv4.mpr holds), if_pos holds, represents.headerChecksum_eq holds]
    exact represents.set_checksum holds
  · rw [if_neg (mt represents.isValid_ipv4.mp holds), if_neg holds]
    exact represents

/-- Deparsing writes the corrected bytes. -/
theorem written_eq (represents : Represents pkt b) : program.written pkt = corrected b := by
  have edits := program.updateChecksums_edits pkt
  rw [written, ← edits.payload_eq]
  exact represents.updateChecksums.holds.headerBytes_append_payload

/-- A checksum is found bad exactly if the bytes hold another one than they should. -/
theorem hasBadChecksum_iff (represents : Represents pkt b) :
    program.checksums.any pkt.hasBadChecksum = true ↔
      HoldsIpv4 b ∧ storedChecksum b ≠ computedChecksum b := by
  show (pkt.isValid ipv4Header &&
    pkt.headerChecksum ipv4Checksum != pkt.get checksumField || false) = true ↔ _
  rw [Bool.or_false, Bool.and_eq_true, represents.isValid_ipv4]
  apply and_congr_right
  intro holds
  rw [represents.headerChecksum_eq holds, represents.get_checksum holds, bne_iff_ne, ne_comm]

end Represents

end BasicSwitch

end Switchyard
