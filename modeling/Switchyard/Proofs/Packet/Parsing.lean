import Switchyard.Packet.Checksum
import Switchyard.Proofs.Packet.Walk

/-!
# What a parse leaves

A parse leaves what its walk says, whichever way the walk ends: the payload starts behind the extracted
headers, exactly these are valid beside metadata, and each field holds the bits of its last extraction.
-/

namespace Switchyard

namespace Walk

variable {p : Program} {pkt : Packet} {w : Walk} {error : ParserError}

/-- The parsed packet is what the walk says. -/
structure Describes (w : Walk) (pkt parsed : Packet) : Prop where
  /-- The payload starts at the whole byte behind the extracted headers. -/
  offset : parsed.payloadOffset =
    (pkt.layout.totalBits (pkt.layout.fieldsOf w.extracted) + 7) / 8
  inside : parsed.payloadOffset ≤ pkt.data.length
  /-- All bits that an extraction reads are there. -/
  slices : ∀ before header after front id back, w.extracted = before ++ header :: after →
    pkt.layout.fieldIds header = front ++ id :: back →
      pkt.layout.totalBits (pkt.layout.fieldsOf before ++ front) + pkt.layout.width id ≤
        8 * pkt.data.length
  valid : ∀ header (h : Layout.Header), pkt.layout.headers[header]? = some h → h.metadata = false →
    (parsed.isValid header = true ↔ header ∈ w.extracted)
  /-- A field holds the bits where the last extraction of its header has it. -/
  bits : ∀ before header after front id back, w.extracted = before ++ header :: after →
    header ∉ after → pkt.layout.fieldIds header = front ++ id :: back →
      parsed.get id = Bits.toNat (((Bits.ofBytes pkt.data).drop
        (pkt.layout.totalBits (pkt.layout.fieldsOf before ++ front))).take (pkt.layout.width id))
  kept : ∀ id : Nat, id ∉ pkt.layout.fieldsOf w.extracted → parsed.get id = pkt.get id

variable (layout : p.layout.WellFormed) (resolved : p.Resolved) (fresh : pkt.Fresh p)
include layout resolved fresh

/-- Where a walk ends, the parser ends, with a cursor that follows the walk. -/
theorem Reached.walk_eq (reached : Reached p pkt w) (ends : w.Ends pkt error) :
    w.entered.length ≤ 256 ∧ ∃ c, p.walk Program.maxParseSteps p.start ⟨pkt, 0⟩ = (error, c) ∧
      ParseCursor.Follows pkt w.extracted c := by
  obtain ⟨c, tracks⟩ := Tracks.reached layout resolved fresh reached
  exact ⟨tracks.steps, c, tracks.ends layout fresh ends, tracks.follows⟩

/-- The payload offset of a parse that stops at a cursor. -/
theorem Reached.payloadOffset_eq (reached : Reached p pkt w) (ends : w.Ends pkt error) :
    (p.parse pkt).payloadOffset =
      (pkt.layout.totalBits (pkt.layout.fieldsOf w.extracted) + 7) / 8 ∧
    pkt.layout.totalBits (pkt.layout.fieldsOf w.extracted) ≤ 8 * pkt.data.length := by
  obtain ⟨-, c, walked, follows⟩ := reached.walk_eq layout resolved fresh ends
  have inside := follows.inside
  have offset : (p.parse pkt).payloadOffset = min ((c.position + 7) / 8) c.packet.data.length := by
    rw [Program.parse, walked]
    rfl
  rw [offset, follows.edits.data_eq, ← follows.position]
  omega

theorem Reached.describes (reached : Reached p pkt w) (ends : w.Ends pkt error) :
    w.Describes pkt (p.parse pkt) := by
  obtain ⟨-, c, walked, follows⟩ := reached.walk_eq layout resolved fresh ends
  obtain ⟨offset, inside⟩ := reached.payloadOffset_eq layout resolved fresh ends
  have get : (p.parse pkt).get = c.packet.get := by rw [Program.get_parse, walked]
  have valid : (p.parse pkt).isValid = c.packet.isValid := by rw [Program.isValid_parse, walked]
  refine ⟨offset, ?_, ?_, ?_, ?_, ?_⟩
  · omega
  · intro before header after front id back split place
    rw [split, Layout.fieldsOf_append, Layout.totalBits_append, Layout.fieldsOf_cons,
      Layout.totalBits_append, place, Layout.totalBits_append, Layout.totalBits_cons] at inside
    rw [Layout.totalBits_append]
    omega
  · intro header h declared notMetadata
    have notBefore : pkt.isValid header = false := by
      rw [fresh.layout] at declared
      rw [Packet.isValid, fresh.metadata, List.getD_eq_getElem?_getD, List.getElem?_map, declared,
        Option.map_some, Option.getD_some, notMetadata]
    rw [valid, follows.valid, notBefore, Bool.false_or, decide_eq_true_iff]
  · intro before header after front id back split last place
    rw [get]
    exact follows.reads id _ (.bits split last place)
  · intro id untouched
    rw [get]
    exact follows.reads id _ (.kept untouched)

theorem Reached.parserError_eq (reached : Reached p pkt w) (ends : w.Ends pkt error) :
    (p.parse pkt).parserError = error := by
  obtain ⟨-, c, walked, -⟩ := reached.walk_eq layout resolved fresh ends
  rw [Program.parse, walked]
  rfl

end Walk

namespace Program

variable {d : Description} {p : Program} {pkt : Packet}

/-- A narrow length field counts a number of bytes that is a word. -/
theorem bytes_lt_of_narrow {words width : Nat} (fits : words < Nat.pow 2 width) (narrow : width ≤ 62) :
    words * 4 < UInt64.size := by
  have bound : Nat.pow 2 width ≤ Nat.pow 2 62 := Nat.pow_le_pow_right (by decide) narrow
  have whole : Nat.pow 2 62 * 4 = UInt64.size := by decide
  omega

/-- A narrow length field counts bytes without overflow. -/
theorem lengthInBytes_of_narrow {words width : Nat} (fits : words < Nat.pow 2 width)
    (narrow : width ≤ 62) : Packet.lengthInBytes words = words * 4 := by
  have bytes := bytes_lt_of_narrow fits narrow
  have small : words < UInt64.size := by omega
  rw [Packet.lengthInBytes, Nat.mod_eq_of_lt small, Nat.mod_eq_of_lt bytes]

/-- The walk of a parse ends, after at most 256 states, and a parse reports how: every walk that ends
says what the parse reports and what it leaves. Where length fields are narrow enough, no header length
overflows when the checksums are verified. -/
theorem parse_follows_walk (loaded : load d = .ok p) (fresh : pkt.Fresh p) :
    (∃ w, Walk.Reached p pkt w ∧ w.Ends pkt (p.parse pkt).parserError) ∧
    (∀ w error, Walk.Reached p pkt w → w.Ends pkt error → error = (p.parse pkt).parserError ∧
      w.entered.length ≤ 256 ∧ w.Describes pkt (p.parse pkt)) ∧
    ∀ rule ∈ p.checksums, ∀ id, rule.lengthWords = some id → p.layout.width id ≤ 62 →
      Packet.lengthInBytes ((p.parse pkt).get id) = (p.parse pkt).get id * 4 := by
  have layout := wellFormed_of_load loaded
  have resolved := resolved_of_load loaded
  refine ⟨?_, fun w error reached ends => ⟨?_, ?_, ?_⟩, ?_⟩
  · obtain ⟨w, error, reached, ends⟩ := (Walk.Tracks.start p pkt).exists_end layout resolved fresh
    rw [Walk.Reached.parserError_eq layout resolved fresh reached ends]
    exact ⟨w, reached, ends⟩
  · exact (reached.parserError_eq layout resolved fresh ends).symm
  · exact (reached.walk_eq layout resolved fresh ends).1
  · exact reached.describes layout resolved fresh ends
  · intro rule _ id _ narrow
    have descends := p.parse_descends pkt
    have fits := (descends.wellFormed fresh.wellFormed).fits id
    rw [descends.layout, fresh.layout] at fits
    exact lengthInBytes_of_narrow fits narrow

/-- A chain of options that follow one another until one is empty. Each counts its words and has a
checksum. -/
def optionChain : Description where
  name := none
  headers := [⟨"meta", true, [⟨"port", 9⟩]⟩, ⟨"option", false, [⟨"words", 4⟩, ⟨"sum", 16⟩]⟩]
  parser := [⟨"next", ["option"], some "option.words", [⟨0, "accept"⟩], some "next"⟩]
  deparser := ["option"]
  tables := []
  checksums := [⟨"option", "sum", some "words"⟩]

/-- The program of the chain. -/
def optionProgram : Program where
  description := optionChain
  layout := ⟨[⟨"meta", true, 0, 1, 9⟩, ⟨"option", false, 1, 2, 20⟩],
    [⟨"meta.port", 0, 9⟩, ⟨"option.words", 1, 4⟩, ⟨"option.sum", 1, 16⟩]⟩
  states := [⟨[1], some 1, [(0, .accept)], some (.state 0)⟩]
  deparseOrder := [1]
  checksums := [⟨1, 2, some 1⟩]
  tables := ⟨[]⟩

/-- Three options and a part of a fourth. -/
def optionPacket : Packet :=
  .new 0 3 [0x1a, 0xbc, 0xd2, 0xfe, 0x12, 0x34, 0x56, 0x78, 0x9a] optionProgram.layout

/-- The third option straddles bytes, and the fourth is cut off. -/
theorem parse_follows_walk_chain :
    ∃ w, Walk.Reached optionProgram optionPacket w ∧ w.Ends optionPacket .packetTooShort ∧
      w.Describes optionPacket (optionProgram.parse optionPacket) ∧
      (optionProgram.parse optionPacket).payloadOffset = 8 ∧
      (optionProgram.parse optionPacket).get 1 = 3 ∧
      (optionProgram.parse optionPacket).get 2 = 0x4567 ∧
      Packet.lengthInBytes ((optionProgram.parse optionPacket).get 1) =
        (optionProgram.parse optionPacket).get 1 * 4 := by
  have loaded : load optionChain = .ok optionProgram := rfl
  have fresh : optionPacket.Fresh optionProgram := Packet.fresh_new _ _ _ _
  have short : (optionProgram.parse optionPacket).parserError = .packetTooShort := by decide
  obtain ⟨⟨w, reached, ends⟩, all, narrow⟩ := parse_follows_walk loaded fresh
  have described := (all w _ reached ends).2.2
  rw [short] at ends
  refine ⟨w, reached, ends, described, by decide, by decide, by decide, ?_⟩
  exact narrow ⟨1, 2, some 1⟩ List.mem_cons_self 1 rfl (by decide)

end Program

end Switchyard
