import Switchyard.Frame.Recovery
import Switchyard.Packet

/-!
# Between frames and packets

A frame enters a pipeline as plain bytes if it is not too long. What leaves is bytes again, in which
the headers are recovered, and it carries the tags of the frame that came in; tags on bytes then
cover the whole frame.
-/

namespace Switchyard

/-- The largest frame that may enter, and the rules that recover headers. -/
structure Boundary where
  maxFrame : Nat
  rules : List RecoveryRule

namespace Boundary

/-- The largest frame, unless another limit is asked for. -/
def defaultMaxFrame : Nat := 9000

/-- The boundary with the standard rules. -/
def standard (maxFrame : Nat) : Boundary := ⟨maxFrame, RecoveryRule.standard⟩

/-- Tries more rules, after those that are there. -/
def withRules (b : Boundary) (rules : List RecoveryRule) : Boundary :=
  { b with rules := b.rules ++ rules }

/-- The packet that a frame enters as. -/
def enter (b : Boundary) (frame : Frame) (id port : Nat) (layout : Layout) :
    Except PipelineError Packet :=
  if b.maxFrame < frame.length then .error (.frameTooLarge frame.length b.maxFrame)
  else .ok (Packet.new id port frame.toBytes layout)

/-- The frame that bytes stand for. -/
def recover (b : Boundary) (uid : Nat) (bytes : Bytes) : Frame := Frame.recover b.rules uid bytes

/-- The frame that a packet leaves as, in answer to the frame `origin`. -/
def leave (b : Boundary) (pkt : Packet) (origin : Frame) : Frame :=
  let frame := b.recover pkt.id pkt.data
  { frame with
    packetTags := origin.packetTags
    byteTags := origin.byteTags.map fun t => ByteTag.covering frame.length t.tag }

end Boundary

end Switchyard
