/-!
# Statistics

What a network counts: frames and bytes by host, frames through switches, frames lost, and how long
frames were under way. Hosts are counted by name, in the order of their names. The counters have 64 bits
and count without end here; only of the total of the latencies is it checked that it fits.
-/

namespace Switchyard

/-- What a host has sent and received. -/
structure HostStats where
  sentFrames : Nat
  sentBytes : Nat
  receivedFrames : Nat
  receivedBytes : Nat
  deriving DecidableEq, Inhabited

/-- The counts of a network. Latencies are in nanoseconds. -/
structure Stats where
  deliveredFrames : Nat
  deliveredBytes : Nat
  droppedNoPort : Nat
  switchReceived : Nat
  switchSent : Nat
  totalLatency : Nat
  maxLatency : Nat
  hosts : List (String × HostStats)
  deriving DecidableEq, Inhabited

namespace HostStats

def zero : HostStats := ⟨0, 0, 0, 0⟩

/-- Counts a sent frame. -/
def countSent (h : HostStats) (bytes : Nat) : HostStats :=
  { h with sentFrames := h.sentFrames + 1, sentBytes := h.sentBytes + bytes }

/-- Counts a received frame. -/
def countReceived (h : HostStats) (bytes : Nat) : HostStats :=
  { h with receivedFrames := h.receivedFrames + 1, receivedBytes := h.receivedBytes + bytes }

/-- Changes the counts of a name among names in order. A new name starts with nothing counted. -/
def update (name : String) (change : HostStats → HostStats) :
    List (String × HostStats) → List (String × HostStats)
  | [] => [(name, change zero)]
  | (other, h) :: hosts =>
    if name = other then (other, change h) :: hosts
    else if name < other then (name, change zero) :: (other, h) :: hosts
    else (other, h) :: update name change hosts

end HostStats

namespace Stats

def zero : Stats := ⟨0, 0, 0, 0, 0, 0, 0, []⟩

/-- The counts of a host. -/
def host? (s : Stats) (name : String) : Option HostStats := s.hosts.lookup name

/-- Changes the counts of a host. -/
def onHost (s : Stats) (name : String) (change : HostStats → HostStats) : Stats :=
  { s with hosts := HostStats.update name change s.hosts }

/-- Counts a frame that a host received. -/
def countDelivered (s : Stats) (name : String) (bytes : Nat) : Stats :=
  { s with
    deliveredFrames := s.deliveredFrames + 1
    deliveredBytes := s.deliveredBytes + bytes }.onHost name (·.countReceived bytes)

/-- Counts the latency of a frame that a host received. -/
def countLatency (s : Stats) (latency : Nat) : Stats :=
  { s with totalLatency := s.totalLatency + latency, maxLatency := max s.maxLatency latency }

def countDropped (s : Stats) : Stats := { s with droppedNoPort := s.droppedNoPort + 1 }

def countSwitchReceived (s : Stats) : Stats := { s with switchReceived := s.switchReceived + 1 }

def countSwitchSent (s : Stats) : Stats := { s with switchSent := s.switchSent + 1 }

/-- The mean latency over all frames delivered, rounded down; zero if there are none. -/
def averageLatency (s : Stats) : Nat := s.totalLatency / s.deliveredFrames

end Stats

end Switchyard
