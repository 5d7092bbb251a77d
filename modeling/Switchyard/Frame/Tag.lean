import Switchyard.Bytes
import Switchyard.Time

/-!
# Frame tags

Tags travel beside the bytes of a frame, where no switch program sees them. Every frame that a
switch sends carries the tags of the frame that it answers.
-/

namespace Switchyard

/-- A tag: the flow that a frame belongs to, the time at which a host sent it, or anything else
under a name. -/
inductive Tag where
  | flowId (id : Nat)
  | sentAt (time : Time)
  | named (name : String) (value : Bytes)
  deriving DecidableEq, Inhabited

/-- A tag on the bytes from `start` up to but not including `stop`. -/
structure ByteTag where
  start : Nat
  stop : Nat
  tag : Tag
  deriving DecidableEq, Inhabited

/-- A tag on the first `length` bytes. -/
def ByteTag.covering (length : Nat) (tag : Tag) : ByteTag := ⟨0, length, tag⟩

/-- The flow that a tag names. -/
def Tag.flow? : Tag → Option Nat
  | flowId id => some id
  | _ => none

/-- The sending time that a tag holds. -/
def Tag.sent? : Tag → Option Time
  | sentAt time => some time
  | _ => none

end Switchyard
