import Switchyard.Proofs.Packet.Parsing

/-!
# Writing back what was parsed

When no header is extracted twice and the deparser lists the extracted headers in the order of the walk,
deparsing writes the bits that were parsed, fills them up to a whole byte with zeros, and appends the
payload, which is the rest of the bytes. Only the bits that are filled up may change.
-/

namespace Switchyard

namespace Bits

/-- Bytes whose first bits are written anew: the bits that fill up the last byte are zero, and all others
are as before. -/
theorem getElem?_ofBytes_toBytes_take_append {b : Bytes} {n : Nat} (inside : n ≤ 8 * b.length)
    (i : Nat) :
    (ofBytes (toBytes ((ofBytes b).take n) ++ b.drop ((n + 7) / 8)))[i]? =
      if n ≤ i ∧ i < 8 * ((n + 7) / 8) then some false else (ofBytes b)[i]? := by
  have length : ((ofBytes b).take n).length = n := by
    rw [List.length_take, length_ofBytes]
    omega
  have filled : n + (8 - n % 8) % 8 = 8 * ((n + 7) / 8) := by omega
  rw [ofBytes_append, ofBytes_toBytes, length, ← drop_ofBytes, ← filled]
  rcases Nat.lt_or_ge i n with early | late
  · rw [if_neg (by omega), List.append_assoc, List.getElem?_append_left (by omega),
      List.getElem?_take_of_lt early]
  · rcases Nat.lt_or_ge i (n + (8 - n % 8) % 8) with filling | behind
    · rw [if_pos ⟨late, filling⟩, List.getElem?_append_left (by simp [length]; omega),
        List.getElem?_append_right (by omega), List.getElem?_replicate, if_pos (by omega)]
    · rw [if_neg (by omega), List.getElem?_append_right (by simp [length]; omega), List.getElem?_drop]
      congr 1
      simp [length]
      omega

end Bits

namespace Program

open Packet

variable {d : Description} {p : Program} {pkt : Packet} {w : Walk} {error : ParserError}

/-- A description without checksums is a program without checksums. -/
theorem checksums_of_load (loaded : load d = .ok p) (none : d.checksums = []) : p.checksums = [] := by
  have rules := (load_eq_ok_iff.mp loaded).checksums
  rw [none] at rules
  exact (Except.ok.inj rules).symm

/-- Headers that were extracted once each are emitted as the bits in front of the payload. -/
theorem headerBytes_parse (layout : p.layout.WellFormed) (resolved : p.Resolved)
    (fresh : pkt.Fresh p) (reached : Walk.Reached p pkt w) (ends : w.Ends pkt error)
    (distinct : w.extracted.Nodup) (order : p.deparseOrder.filter (p.parse pkt).isValid = w.extracted) :
    p.headerBytes (p.parse pkt) = Bits.toBytes ((Bits.ofBytes pkt.data).take
      (pkt.layout.totalBits (pkt.layout.fieldsOf w.extracted))) := by
  obtain ⟨-, c, walked, follows⟩ := reached.walk_eq layout resolved fresh ends
  have fields : (p.parse pkt).fieldBits = c.packet.fieldBits := by
    funext id
    rw [fieldBits, fieldBits, get_parse, walked, (p.parse_descends pkt).layout,
      follows.edits.layout_eq]
  rw [headerBytes, order, flatMap_emit, (p.parse_descends pkt).layout, fields,
    (follows.distinct distinct).bits, follows.position]

/-- Parsing and writing back changes nothing but the bits that fill up the last byte of the headers, which
become zero, however the parse ends. -/
theorem deparse_parse (loaded : load d = .ok p) (noChecksums : d.checksums = []) (fresh : pkt.Fresh p)
    (reached : Walk.Reached p pkt w) (ends : w.Ends pkt error) (distinct : w.extracted.Nodup)
    (order : p.deparseOrder.filter (p.parse pkt).isValid = w.extracted) :
    ∃ out, p.deparse (p.parse pkt) = .ok out ∧
      (∀ i, (Bits.ofBytes out.data)[i]? =
        if pkt.layout.totalBits (pkt.layout.fieldsOf w.extracted) ≤ i ∧
            i < 8 * ((pkt.layout.totalBits (pkt.layout.fieldsOf w.extracted) + 7) / 8)
        then some false else (Bits.ofBytes pkt.data)[i]?) ∧
      (pkt.layout.totalBits (pkt.layout.fieldsOf w.extracted) % 8 = 0 → out.data = pkt.data) := by
  have layout := wellFormed_of_load loaded
  have resolved := resolved_of_load loaded
  obtain ⟨offset, inside⟩ := reached.payloadOffset_eq layout resolved fresh ends
  have descends := p.parse_descends pkt
  have unchanged : p.updateChecksums (p.parse pkt) = p.parse pkt := by
    rw [updateChecksums, checksums_of_load loaded noChecksums, List.foldl_nil]
  obtain ⟨out, deparsed, -, data⟩ := deparse_ok (descends.wellFormed fresh.wellFormed).offset
  rw [written, unchanged, headerBytes_parse layout resolved fresh reached ends distinct order, payload,
    descends.data, offset] at data
  refine ⟨out, deparsed, ?_, ?_⟩
  · rw [data]
    exact Bits.getElem?_ofBytes_toBytes_take_append inside
  · intro whole
    have same : Bits.ofBytes out.data = Bits.ofBytes pkt.data := by
      refine List.ext_getElem? fun i => ?_
      rw [data, Bits.getElem?_ofBytes_toBytes_take_append inside, if_neg (by omega)]
    rw [← Bits.toBytes_ofBytes out.data, same, Bits.toBytes_ofBytes]

/-- A header of seven bits, one of six behind it, and one that no short packet has room for. -/
def oddHeaders : Description where
  name := none
  headers := [⟨"first", false, [⟨"x", 5⟩, ⟨"kind", 2⟩]⟩, ⟨"second", false, [⟨"y", 6⟩]⟩,
    ⟨"third", false, [⟨"z", 128⟩]⟩]
  parser := [⟨"start", ["first"], some "first.kind", [⟨1, "more"⟩], none⟩,
    ⟨"more", ["second", "third"], none, [], none⟩]
  deparser := ["third", "first", "second"]
  tables := []
  checksums := []

/-- The state that goes on by the kind of the first header. -/
def oddFirst : ParseState := ⟨[0], some 1, [(1, .state 1)], none⟩

/-- The state behind it. -/
def oddSecond : ParseState := ⟨[1, 2], none, [], none⟩

/-- The program of the odd headers. -/
def oddProgram : Program where
  description := oddHeaders
  layout := ⟨[⟨"first", false, 0, 2, 7⟩, ⟨"second", false, 2, 1, 6⟩, ⟨"third", false, 3, 1, 128⟩],
    [⟨"first.x", 0, 5⟩, ⟨"first.kind", 0, 2⟩, ⟨"second.y", 1, 6⟩, ⟨"third.z", 2, 128⟩]⟩
  states := [oddFirst, oddSecond]
  deparseOrder := [2, 0, 1]
  checksums := []
  tables := ⟨[]⟩

/-- The two odd headers and three bits and a byte behind them. -/
def oddPacket : Packet := .new 0 3 [0xfb, 0x5f, 0xaa] oddProgram.layout

/-- The walk of the odd packet stops in its second state, at the header that does not fit. -/
def oddWalk : Walk := ⟨[0, 1], [0, 1], .within oddSecond [2]⟩

theorem oddWalk_reached : Walk.Reached oddProgram oddPacket oddWalk := by
  have kind : oddPacket.Reads [0] 1 1 := by
    have last : [0] = [] ++ 0 :: [] := rfl
    have place : oddPacket.layout.fieldIds 0 = [0] ++ 1 :: [] := rfl
    exact .bits last List.not_mem_nil place
  have split : oddFirst.transitions = [] ++ (1, .state 1) :: [] := rfl
  have enterFirst : Walk.Step oddProgram oddPacket (Walk.start oddProgram)
      ⟨[0], [], .within oddFirst [0]⟩ := .enter rfl (by decide)
  have extractFirst : Walk.Step oddProgram oddPacket ⟨[0], [], .within oddFirst [0]⟩
      ⟨[0], [0], .within oddFirst []⟩ := .extract (by decide)
  have goOn : Walk.Step oddProgram oddPacket ⟨[0], [0], .within oddFirst []⟩
      ⟨[0], [0], .before (.state 1)⟩ := .go (.taken rfl kind split (List.forall_mem_nil _))
  have enterSecond : Walk.Step oddProgram oddPacket ⟨[0], [0], .before (.state 1)⟩
      ⟨[0, 1], [0], .within oddSecond [1, 2]⟩ := .enter rfl (by decide)
  have extractSecond : Walk.Step oddProgram oddPacket ⟨[0, 1], [0], .within oddSecond [1, 2]⟩
      oddWalk := .extract (by decide)
  exact ((((Relation.ReflTransGen.single enterFirst).tail extractFirst).tail goOn).tail
    enterSecond).tail extractSecond

/-- The three bits behind the headers become zero, although the parse fails. -/
theorem deparse_parse_odd :
    (oddProgram.parse oddPacket).parserError = .packetTooShort ∧
    ∃ out, oddProgram.deparse (oddProgram.parse oddPacket) = .ok out ∧
      (∀ i, (Bits.ofBytes out.data)[i]? =
        if 13 ≤ i ∧ i < 16 then some false else (Bits.ofBytes oddPacket.data)[i]?) ∧
      (Bits.ofBytes oddPacket.data)[13]? = some true := by
  have loaded : load oddHeaders = .ok oddProgram := rfl
  have fresh : oddPacket.Fresh oddProgram := fresh_new _ _ _ _
  have ends : oddWalk.Ends oddPacket .packetTooShort := .short (by decide)
  have order : oddProgram.deparseOrder.filter (oddProgram.parse oddPacket).isValid =
      oddWalk.extracted := by decide
  obtain ⟨out, deparsed, bits, -⟩ :=
    deparse_parse loaded rfl fresh oddWalk_reached ends (by decide) order
  exact ⟨by decide, out, deparsed, bits, by decide⟩

end Program

end Switchyard
