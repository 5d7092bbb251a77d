import Switchyard.InternetChecksum
import Switchyard.Packet
import Switchyard.Program

/-!
# Header checksums

A header checksum covers the header as it would be emitted, with the checksum field taken as zero
and the last byte filled up. Where a length field says that the header is longer than its fields,
the checksum also covers the bytes that follow, as far as there are any.
-/

namespace Switchyard

namespace Packet

/-- The bits of one field. -/
def fieldBits (pkt : Packet) (id : FieldId) : Bits := Bits.ofNat (pkt.layout.width id) (pkt.get id)

/-- The bits of a header, field by field. -/
def emit (pkt : Packet) (header : HeaderId) : Bits :=
  (pkt.layout.fieldIds header).flatMap pkt.fieldBits

/-- The header length in bytes that a length field in 32-bit words gives. It is a 64-bit count, and what goes
beyond that is cut off. -/
def lengthInBytes (words : Nat) : Nat := words % UInt64.size * 4 % UInt64.size

/-- The payload bytes that belong to a header which has already `emitted` bytes. -/
def coveredPayload (pkt : Packet) (rule : ChecksumRule) (emitted : Nat) : Bytes :=
  match rule.lengthWords with
  | none => []
  | some id => pkt.payload.take (lengthInBytes (pkt.get id) - emitted)

/-- The checksum that a header should have. -/
def headerChecksum (pkt : Packet) (rule : ChecksumRule) : Nat :=
  let header := Bits.toBytes ((pkt.set rule.field 0).emit rule.header)
  (internetChecksum (header ++ pkt.coveredPayload rule header.length)).toNat

/-- Does a valid header have another checksum than it should? -/
def hasBadChecksum (pkt : Packet) (rule : ChecksumRule) : Bool :=
  pkt.isValid rule.header && pkt.headerChecksum rule != pkt.get rule.field

/-- Gives a valid header the checksum that it should have. -/
def updateChecksum (pkt : Packet) (rule : ChecksumRule) : Packet :=
  if pkt.isValid rule.header then pkt.set rule.field (pkt.headerChecksum rule) else pkt

end Packet

end Switchyard
