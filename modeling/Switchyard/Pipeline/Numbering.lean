/-!
# Numbering

All pipelines of a simulation number their packets from one counter, and take the ports of their control
channels from another. The first has 64 bits, more than there are packets, and counts without end here.
The second counts in 32 bits, and beyond the largest port number it gives out that number.
-/

namespace Switchyard

/-- The next packet number and the next control port. -/
structure Numbering where
  nextPacket : Nat
  nextControlPort : Nat
  deriving DecidableEq, Inhabited

/-- An operation that takes numbers. -/
abbrev NumberingM := StateM Numbering

namespace Numbering

/-- The first control port, unless another one is asked for. -/
def defaultControlPort : Nat := 9090

/-- The largest port number. -/
def maxControlPort : Nat := 65535

/-- No packet has been numbered, and control ports start at the given one. -/
def startingAt (port : Nat) : Numbering := ⟨0, port⟩

def initial : Numbering := startingAt defaultControlPort

def takePacket : NumberingM Nat := fun s =>
  (s.nextPacket, { s with nextPacket := s.nextPacket + 1 })

/-- The port that is given out for a count. -/
def portNumber (count : Nat) : Nat := min count maxControlPort

def takeControlPort : NumberingM Nat := fun s =>
  (portNumber s.nextControlPort,
    { s with nextControlPort := (s.nextControlPort + 1) % UInt32.size })

/-- The number of packets numbered so far. -/
def packets (s : Numbering) : Nat := s.nextPacket

end Numbering

end Switchyard
