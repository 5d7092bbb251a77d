import Switchyard.Packet.Checksum

/-!
# Deparsing packets

Deparsing writes the valid headers back in front of the payload, in the program's order and with
their checksums recomputed. The headers are emitted bit by bit and filled up to a whole byte.
-/

namespace Switchyard

namespace Program

/-- The packet with the checksums of its valid headers recomputed, in the order of the rules. -/
def updateChecksums (p : Program) (pkt : Packet) : Packet :=
  p.checksums.foldl Packet.updateChecksum pkt

/-- The valid headers in deparse order, in whole bytes. -/
def headerBytes (p : Program) (pkt : Packet) : Bytes :=
  Bits.toBytes ((p.deparseOrder.filter pkt.isValid).flatMap pkt.emit)

/-- Writes the bytes of a packet anew from its headers. It fails when the payload offset lies past
the end of the bytes. -/
def deparse (p : Program) (pkt : Packet) : Except PipelineError Packet :=
  if pkt.data.length < pkt.payloadOffset then
    .error (.payloadOutOfRange pkt.payloadOffset pkt.data.length)
  else
    let pkt := p.updateChecksums pkt
    let header := p.headerBytes pkt
    .ok ((pkt.setData (header ++ pkt.payload)).setPayloadOffset header.length)

end Program

end Switchyard
