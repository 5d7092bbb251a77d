import Switchyard.Time

/-!
# Links

A link carries frames one way. It sends one frame at a time, and a frame that comes while it is busy
waits; how many wait does not matter. A frame arrives its latency after it has been sent.
-/

namespace Switchyard

/-- The position of a node in its network. -/
abbrev NodeId := Nat

/-- A link, with its bandwidth in bits a second and the time at which it has sent all frames so
far. -/
structure Link where
  source : NodeId
  target : NodeId
  targetPort : Nat
  latency : Time
  bandwidth : Nat
  freeAt : Time
  deriving DecidableEq, Inhabited

namespace Link

/-- A link that has sent nothing. -/
def new (source target : NodeId) (targetPort : Nat) (latency : Time) (bandwidth : Nat) : Link :=
  ⟨source, target, targetPort, latency, bandwidth, Time.zero⟩

/-- How long a link without bandwidth takes to send a frame. -/
def stalledTime : Time := .ofNanos (Time.maxNanos / 4)

/-- How long it takes to send so many bytes, rounded up to a nanosecond. -/
def sendTime (bandwidth bytes : Nat) : Time :=
  if bandwidth = 0 then stalledTime
  else .ofNanos ((bytes * 8 * 1000000000 + (bandwidth - 1)) / bandwidth)

/-- The time at which a frame of so many bytes has been sent, if it is ready now. -/
def departure (l : Link) (now : Time) (bytes : Nat) : Time :=
  now.later l.freeAt + sendTime l.bandwidth bytes

/-- Sends a frame: the link after that, and the time at which the frame arrives. -/
def send (l : Link) (now : Time) (bytes : Nat) : Link × Time :=
  let departure := l.departure now bytes
  ({ l with freeAt := departure }, departure + l.latency)

end Link

end Switchyard
