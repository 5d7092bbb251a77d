import Switchyard.Proofs.BasicSwitch.Wire
import Switchyard.Proofs.Packet.Walk

/-!
# What the parser of the basic switch finds

The walk through the parse graph extracts just the headers that `headersIn` finds in the bytes, state by
state: the last states first, then the states that lead to them.
-/

namespace Switchyard

namespace BasicSwitch

open Packet ParseCursor Program

variable {start : Packet} {headers : List HeaderId} {c : ParseCursor} {offset steps : Nat}

/-- What parsing starts with. -/
structure Parsable (start : Packet) : Prop where
  layout : start.layout = layout
  wellFormed : start.WellFormed
  fresh : ∀ h, ethernetHeader ≤ h → start.isValid h = false

/-- A packet that has not been parsed is parsable, whatever its metadata is. -/
theorem parsable_of_fresh (fresh : start.Fresh program) : Parsable start := by
  refine ⟨fresh.layout, fresh.wellFormed, fun h onWire => ?_⟩
  have flags : start.valid = [true, true, true, false, false, false, false, false] := by
    rw [fresh.metadata]
    decide
  rw [isValid, flags]
  by_cases declared : h < 8
  · have packet : ∀ h < 8, ethernetHeader ≤ h →
        [true, true, true, false, false, false, false, false].getD h false = false := by
      decide
    exact packet h declared onWire
  · rw [List.getD_eq_getElem?_getD, List.getElem?_eq_none (Nat.le_of_not_lt declared),
      Option.getD_none]

/-- Does a header of so many bytes fit behind the extracted ones? -/
theorem fits_iff_size (parsable : Parsable start) (extracted : Extracted start headers c)
    (position : c.position = 8 * offset) {header : HeaderId} {size : Nat}
    (width : layout.headerBits header = 8 * size) :
    c.fits header = true ↔ offset + size ≤ start.data.length := by
  rw [extracted.passed.fits_iff, position, parsable.layout, width]
  omega

/-- Extracting one more header of the basic switch. -/
theorem extract_header (parsable : Parsable start) (extracted : Extracted start headers c)
    {header : HeaderId} (declared : header < layout.headers.length)
    (distinct : (headers ++ [header]).Nodup) (fits : c.fits header = true) :
    Extracted start (headers ++ [header]) (c.extract header) :=
  extracted.extract (by rw [parsable.layout]; exact wellFormed_layout) parsable.wellFormed
    (by rw [parsable.layout]; exact declared) distinct fits

/-- The value of an extracted field is the number at its place. -/
theorem get_extracted (parsable : Parsable start) (extracted : Extracted start headers c)
    {id : FieldId} {position width : Nat} (places : layout.Places headers id position width) :
    c.packet.get id = Bits.read start.data position width := by
  have same := extracted.edits.layout_eq.trans parsable.layout
  exact extracted.leads.get_of_places (extracted.edits.wellFormed parsable.wellFormed)
    (by rw [same]; exact places)

/-- A state that extracts one header and accepts. -/
theorem walk_last (parsable : Parsable start) (extracted : Extracted start headers c)
    (position : c.position = 8 * offset) (i size : Nat) (header : HeaderId)
    (found : states[i]? = some ⟨[header], none, [], none⟩)
    (declared : header < layout.headers.length) (width : layout.headerBits header = 8 * size)
    (distinct : (headers ++ [header]).Nodup) :
    Extracted start (headers ++ if offset + size ≤ start.data.length then [header] else [])
      (program.walk (steps + 1) (.state i) c).2 := by
  have room := fits_iff_size parsable extracted position width
  by_cases fits : c.fits header = true
  · have next : program.walk (steps + 1) (.state i) c =
        program.walk steps .accept (c.extract header) :=
      walk_of_fits found rfl fits rfl
    rw [if_pos (room.mp fits), next, walk_accept]
    exact extract_header parsable extracted declared distinct fits
  · have stop : program.walk (steps + 1) (.state i) c = (.packetTooShort, c) :=
      walk_of_short found rfl (Bool.eq_false_iff.mpr fits)
    rw [if_neg (mt room.mpr fits), stop, List.append_nil]
    exact extracted

/-- A selecting state goes by the value of its field. -/
theorem next_select (extract : List HeaderId) (id : FieldId) (transitions : List (Nat × Target))
    (fallback : Option Target) (pkt : Packet) :
    (⟨extract, some id, transitions, fallback⟩ : ParseState).next? pkt =
      (transitions.lookup (pkt.get id)).or fallback := rfl

/-- A state that selects one of two values and accepts otherwise. -/
theorem next_two (extract : List HeaderId) (id : FieldId) (one another : Nat) (first second : Target)
    (pkt : Packet) :
    (⟨extract, some id, [(one, first), (another, second)], some .accept⟩ : ParseState).next? pkt =
      some (if pkt.get id = one then first
        else if pkt.get id = another then second else .accept) := by
  simp only [next_select, List.lookup_cons, List.lookup_nil]
  by_cases isOne : pkt.get id = one
  · rw [beq_iff_eq.mpr isOne, if_pos isOne]
    rfl
  · rw [beq_eq_false_iff_ne.mpr isOne, if_neg isOne]
    by_cases isAnother : pkt.get id = another
    · rw [beq_iff_eq.mpr isAnother, if_pos isAnother]
      rfl
    · rw [beq_eq_false_iff_ne.mpr isAnother, if_neg isAnother]
      rfl

/-- Where the parser goes from a protocol number. -/
def transportTarget (protocol : Nat) : Target :=
  if protocol = 6 then .state 4 else if protocol = 17 then .state 5 else .accept

/-- The transport header behind an internet header. -/
theorem walk_transport (parsable : Parsable start) (extracted : Extracted start headers c)
    (position : c.position = 8 * offset) (distinctTcp : (headers ++ [tcpHeader]).Nodup)
    (distinctUdp : (headers ++ [udpHeader]).Nodup) (protocol : Nat) :
    Extracted start (headers ++ transportIn start.data protocol offset)
      (program.walk (steps + 1) (transportTarget protocol) c).2 := by
  unfold transportIn transportTarget
  by_cases isTcp : protocol = 6
  · rw [if_pos isTcp, if_pos isTcp]
    exact walk_last parsable extracted position 4 20 tcpHeader rfl (by decide) (by decide) distinctTcp
  · rw [if_neg isTcp, if_neg isTcp]
    by_cases isUdp : protocol = 17
    · rw [if_pos isUdp, if_pos isUdp]
      exact walk_last parsable extracted position 5 8 udpHeader rfl (by decide) (by decide)
        distinctUdp
    · rw [if_neg isUdp, if_neg isUdp, walk_accept, List.append_nil]
      exact extracted

/-- From the state behind an IPv4 header without options on. -/
theorem walk_protocol (parsable : Parsable start)
    (both : Extracted start [ethernetHeader, ipv4Header] c) :
    Extracted start
      ([ethernetHeader, ipv4Header] ++ transportIn start.data (BigEndian.read start.data 23 1) 34)
      (program.walk (steps + 2) (.state 2) c).2 := by
  have protocol : c.packet.get protocolField = BigEndian.read start.data 23 1 := by
    rw [get_extracted parsable both places_protocol, Bits.read_bytes]
  have selected : program.walk (steps + 2) (.state 2) c =
      program.walk (steps + 1) (transportTarget (BigEndian.read start.data 23 1)) c := by
    rw [← protocol]
    exact walk_of_empty rfl rfl (next_two _ _ _ _ _ _ _)
  have position : c.position = 8 * 34 := by
    rw [both.position, parsable.layout]
    decide
  rw [selected]
  exact walk_transport parsable both position (by decide) (by decide) _

/-- From the state for IPv4 on. -/
theorem walk_ipv4 (parsable : Parsable start) (extracted : Extracted start [ethernetHeader] c) :
    Extracted start (ipv4In start.data) (program.walk (steps + 3) (.state 1) c).2 := by
  unfold ipv4In
  have position : c.position = 8 * 14 := by
    rw [extracted.position, parsable.layout]
    decide
  have width : layout.headerBits ipv4Header = 8 * 20 := by decide
  have room := fits_iff_size parsable extracted position width
  by_cases fits : c.fits ipv4Header = true
  · have both := extract_header parsable extracted (by decide) (by decide) fits
    have words : (c.extract ipv4Header).packet.get ihlField = headerWords start.data := by
      have inside : 14 < start.data.length := by
        have long := room.mp fits
        omega
      rw [get_extracted parsable both places_ihl]
      exact Bits.read_low inside (by decide)
    rw [if_pos (room.mp fits)]
    by_cases plain : headerWords start.data = 5
    · have entered : program.walk (steps + 3) (.state 1) c =
          program.walk (steps + 2) (.state 2) (c.extract ipv4Header) := by
        refine walk_of_fits rfl rfl fits ?_
        rw [next_select, words, plain]
        rfl
      rw [if_pos plain, entered]
      exact walk_protocol parsable both
    · have accepted : program.walk (steps + 3) (.state 1) c =
          program.walk (steps + 2) .accept (c.extract ipv4Header) := by
        refine walk_of_fits rfl rfl fits ?_
        rw [next_select, words]
        have other : (headerWords start.data == 5) = false := beq_eq_false_iff_ne.mpr plain
        simp only [List.lookup_cons, other]
        rfl
      rw [if_neg plain, accepted, walk_accept, List.append_nil]
      exact both
  · have stop : program.walk (steps + 3) (.state 1) c = (.packetTooShort, c) :=
      walk_of_short rfl rfl (Bool.eq_false_iff.mpr fits)
    rw [if_neg (mt room.mpr fits), stop]
    exact extracted

/-- From the state for IPv6 on. -/
theorem walk_ipv6 (parsable : Parsable start) (extracted : Extracted start [ethernetHeader] c) :
    Extracted start (ipv6In start.data) (program.walk (steps + 2) (.state 3) c).2 := by
  unfold ipv6In
  have position : c.position = 8 * 14 := by
    rw [extracted.position, parsable.layout]
    decide
  have width : layout.headerBits ipv6Header = 8 * 40 := by decide
  have room := fits_iff_size parsable extracted position width
  by_cases fits : c.fits ipv6Header = true
  · have both := extract_header parsable extracted (by decide) (by decide) fits
    have next : (c.extract ipv6Header).packet.get nextHeaderField =
        BigEndian.read start.data 20 1 := by
      rw [get_extracted parsable both places_nextHeader, Bits.read_bytes]
    have entered : program.walk (steps + 2) (.state 3) c =
        program.walk (steps + 1) (transportTarget (BigEndian.read start.data 20 1))
          (c.extract ipv6Header) := by
      rw [← next]
      exact walk_of_fits rfl rfl fits (next_two _ _ _ _ _ _ _)
    have behind : (c.extract ipv6Header).position = 8 * 54 := by
      rw [both.position, parsable.layout]
      decide
    rw [if_pos (room.mp fits), entered]
    exact walk_transport parsable both behind (by decide) (by decide) _
  · have stop : program.walk (steps + 2) (.state 3) c = (.packetTooShort, c) :=
      walk_of_short rfl rfl (Bool.eq_false_iff.mpr fits)
    rw [if_neg (mt room.mpr fits), stop]
    exact extracted

/-- Where the parser goes from an Ethernet type. -/
def internetTarget (etherType : Nat) : Target :=
  if etherType = 0x0800 then .state 1 else if etherType = 0x86dd then .state 3 else .accept

/-- The whole walk finds the headers that the bytes hold. -/
theorem walk_start (parsable : Parsable start) :
    Extracted start (headersIn start.data)
      (program.walk maxParseSteps program.start ⟨start, 0⟩).2 := by
  show Extracted start _ (program.walk (252 + 4) (.state 0) ⟨start, 0⟩).2
  have nothing := Extracted.nil start
  have origin : (⟨start, 0⟩ : ParseCursor).position = 8 * 0 := rfl
  have width : layout.headerBits ethernetHeader = 8 * 14 := by decide
  have room := fits_iff_size parsable nothing origin width
  unfold headersIn
  by_cases fits : (⟨start, 0⟩ : ParseCursor).fits ethernetHeader = true
  · have first := extract_header parsable nothing (by decide) (by decide) fits
    have etherType : ((⟨start, 0⟩ : ParseCursor).extract ethernetHeader).packet.get etherTypeField =
        BigEndian.read start.data 12 2 := by
      rw [get_extracted parsable first places_etherType, Bits.read_bytes]
    have entered : program.walk (252 + 4) (.state 0) ⟨start, 0⟩ =
        program.walk (252 + 3) (internetTarget (BigEndian.read start.data 12 2))
          ((⟨start, 0⟩ : ParseCursor).extract ethernetHeader) := by
      rw [← etherType]
      exact walk_of_fits rfl rfl fits (next_two _ _ _ _ _ _ _)
    have long := room.mp fits
    rw [if_neg (by omega), entered]
    unfold internetTarget
    by_cases isIpv4 : BigEndian.read start.data 12 2 = 0x0800
    · rw [if_pos isIpv4, if_pos isIpv4]
      exact walk_ipv4 parsable first
    · rw [if_neg isIpv4, if_neg isIpv4]
      by_cases isIpv6 : BigEndian.read start.data 12 2 = 0x86dd
      · rw [if_pos isIpv6, if_pos isIpv6]
        exact walk_ipv6 parsable first
      · rw [if_neg isIpv6, if_neg isIpv6, walk_accept]
        exact first
  · have stop : program.walk (252 + 4) (.state 0) ⟨start, 0⟩ = (.packetTooShort, ⟨start, 0⟩) :=
      walk_of_short rfl rfl (Bool.eq_false_iff.mpr fits)
    have short := mt room.mpr fits
    rw [if_pos (by omega), stop]
    exact nothing

end BasicSwitch

end Switchyard
