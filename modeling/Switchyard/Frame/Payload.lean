import Switchyard.Bytes

/-!
# Payloads

What a frame carries behind its headers: bytes, or zeros of which nothing but the number is kept.
Either stands for a byte string, and the length of a payload is the length of that.
-/

namespace Switchyard

/-- A payload: bytes, or so many zeros. -/
inductive Payload where
  | bytes (content : Bytes)
  | zeros (count : Nat)
  deriving DecidableEq, Inhabited

namespace Payload

/-- The bytes that a payload stands for. -/
def toBytes : Payload → Bytes
  | bytes content => content
  | zeros count => List.replicate count 0

/-- The number of bytes. -/
def length : Payload → Nat
  | bytes content => content.length
  | zeros count => count

@[simp] theorem length_toBytes (p : Payload) : p.toBytes.length = p.length := by
  cases p <;> simp [toBytes, length]

end Payload

end Switchyard
