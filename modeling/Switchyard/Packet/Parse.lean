import Switchyard.Packet.Checksum

/-!
# Parsing packets

The parse graph is walked from its first state. Each state extracts headers from the packet's bits
and then moves on by the value of a field. The walk ends when it accepts or rejects, when a header
does not fit in what is left of the packet, when no transition is there for a value, or when it
would enter one state too many. Whatever its end, the headers extracted so far stay extracted and
the payload starts at the next whole byte.
-/

namespace Switchyard

/-- A walk under way: the packet so far and the position of its next bit. -/
structure ParseCursor where
  packet : Packet
  position : Nat

namespace ParseCursor

/-- Fills fields from the packet's bits, one after another from a position on. -/
def fillFields (pkt : Packet) (position : Nat) : List FieldId → Packet
  | [] => pkt
  | id :: ids =>
    let width := pkt.layout.width id
    fillFields (pkt.set id (Bits.read pkt.data position width)) (position + width) ids

/-- Does the header fit in what is left of the packet? -/
def fits (c : ParseCursor) (header : HeaderId) : Bool :=
  c.position + c.packet.layout.headerBits header ≤ 8 * c.packet.data.length

/-- Extracts a header that fits. -/
def extract (c : ParseCursor) (header : HeaderId) : ParseCursor :=
  let filled := fillFields c.packet c.position (c.packet.layout.fieldIds header)
  { packet := filled.setValid header true
    position := c.position + c.packet.layout.headerBits header }

/-- Extracts headers until one does not fit. The flag says that all did. -/
def extractAll (c : ParseCursor) : List HeaderId → ParseCursor × Bool
  | [] => (c, true)
  | header :: headers => if c.fits header then (c.extract header).extractAll headers else (c, false)

end ParseCursor

/-- Where a state goes from a packet; nowhere if it selects on a value that it does not name. -/
def ParseState.next? (state : ParseState) (pkt : Packet) : Option Target :=
  match state.select with
  | none => some (state.fallback.getD .accept)
  | some id => (state.transitions.lookup (pkt.get id)).or state.fallback

namespace Program

/-- The number of states that a parse may enter. -/
def maxParseSteps : Nat := 256

/-- Walks the parse graph, entering at most `steps` states. -/
def walk (p : Program) : Nat → Target → ParseCursor → ParserError × ParseCursor
  | _, .accept, c => (.noError, c)
  | _, .reject, c => (.noError, c)
  | 0, .state _, c => (.parserTimeout, c)
  | steps + 1, .state i, c =>
    match p.states[i]? with
    | none => (.noError, c)
    | some state =>
      match c.extractAll state.extract with
      | (c, false) => (.packetTooShort, c)
      | (c, true) =>
        match state.next? c.packet with
        | none => (.noMatch, c)
        | some target => p.walk steps target c

/-- Where a parse starts: at the first state, if there is one. -/
def start (p : Program) : Target := if p.states.isEmpty then .accept else .state 0

/-- Parses a packet: extracts its headers, records how the parse ended, and verifies the checksums
of the headers that are valid then. -/
def parse (p : Program) (pkt : Packet) : Packet :=
  let (error, c) := p.walk maxParseSteps p.start ⟨pkt, 0⟩
  let parsed := { c.packet with parserError := error }.setPayloadOffset ((c.position + 7) / 8)
  { parsed with checksumError := p.checksums.any parsed.hasBadChecksum }

end Program

end Switchyard
