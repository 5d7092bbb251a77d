import Mathlib.Algebra.Order.BigOperators.Group.Finset
import Switchyard.Proofs.Star.Answer
import Switchyard.Proofs.Star.Building

/-!
# A flow through a star

The frames of a flow pass through a star one after another: from their host up to the switch, and down from it
by the ports that the pipeline answers with. As all of them have one length, the times at which all this
happens are known beforehand.
-/

namespace Switchyard

open Sequencing

namespace Star

/-- A flow and the star that it starts in: the number of the host that sends it, and the time of its
start. -/
structure Timetable where
  options : StarOptions
  flow : Flow
  source : Nat
  start : Time

/-- A flow through a star around a pipeline, and the ports by which its frames leave the switch. -/
structure Passage extends Timetable where
  pipeline : Pipeline
  ports : List Nat

/-- How far a flow has come: how many frames the switch has handled, which frames are on their way up to it,
and which on their way down from it, with their numbers and ports. -/
structure Stage where
  handled : Nat
  rising : List Frame
  falling : List (Nat × Nat × Frame)

/-- The number of frames that have been sent. -/
def Stage.sent (x : Stage) : Nat := x.handled + x.rising.length

theorem Stage.sent_concat (x : Stage) (frame : Frame) :
    ({ x with rising := x.rising ++ [frame] } : Stage).sent = x.sent + 1 := by
  simp [sent, Nat.add_assoc]

/-- A frame that the switch handles has been sent before. -/
theorem Stage.sent_handle (handled : Nat) (frame : Frame) (rising : List Frame)
    (before after : List (Nat × Nat × Frame)) :
    (⟨handled + 1, rising, after⟩ : Stage).sent = (⟨handled, frame :: rising, before⟩ : Stage).sent := by
  simp only [sent, List.length_cons]
  omega

/-! ## The timetable -/

namespace Timetable

variable (w : Timetable)

def ip : IpAddr := hostIp w.source w.options.ipv6

/-- How long a frame takes to send, in nanoseconds. -/
def sending : Nat := (Link.sendTime w.options.bandwidth (w.flow.frameLength w.ip)).toNat

/-- How long it is on a link after that. -/
def latency : Nat := w.options.latency.toNat

/-- The time between two frames on a link. -/
def period : Nat := max w.flow.gap.toNat w.sending

/-- When a host sends a frame. -/
def sentAt (k : Nat) : Nat := w.start.toNat + k * w.flow.gap.toNat

/-- When the link of the host begins to send it. -/
def beginsAt (k : Nat) : Nat := w.start.toNat + k * w.period

/-- When it arrives at the switch. -/
def risenAt (k : Nat) : Nat := w.beginsAt k + w.sending + w.latency

/-- When it arrives at the hosts that get it. -/
def fallenAt (k : Nat) : Nat := w.risenAt k + w.sending + w.latency

/-- When its copies have left the switch: at this time the ports that they go by are free again. -/
def leavesAt (k : Nat) : Time :=
  .ofNanos (w.risenAt k) + Link.sendTime w.options.bandwidth (w.flow.frameLength w.ip)

/-- How long it has been under way then. -/
def delay (k : Nat) : Nat := w.fallenAt k - w.sentAt k

/-- What is left of the flow when so many frames have been sent. -/
def rest (k : Nat) : Flow := { w.flow with remaining := w.flow.remaining - k }

variable {w} {k : Nat}

theorem beginsAt_succ (k : Nat) : w.beginsAt (k + 1) = w.beginsAt k + w.period := by
  rw [beginsAt, beginsAt, Nat.succ_mul, Nat.add_assoc]

theorem sentAt_succ (k : Nat) : w.sentAt (k + 1) = w.sentAt k + w.flow.gap.toNat := by
  rw [sentAt, sentAt, Nat.succ_mul, Nat.add_assoc]

theorem sentAt_le_beginsAt (k : Nat) : w.sentAt k ≤ w.beginsAt k :=
  Nat.add_le_add_left (Nat.mul_le_mul_left k (Nat.le_max_left _ _)) _

/-- A link begins to send a frame when the frame is there and the one before has left. -/
theorem beginsAt_succ_eq_max (k : Nat) :
    w.beginsAt (k + 1) = max (w.sentAt (k + 1)) (w.beginsAt k + w.sending) := by
  have slower := w.sentAt_le_beginsAt (k + 1)
  rw [beginsAt_succ] at slower ⊢
  unfold period at *
  rcases Nat.le_total w.flow.gap.toNat w.sending with short | long
  · rw [Nat.max_eq_right short] at slower ⊢
    omega
  · have equal (k : Nat) : w.beginsAt k = w.sentAt k := by
      rw [beginsAt, sentAt, period, Nat.max_eq_left long]
    rw [equal, sentAt_succ, Nat.max_eq_left long]
    omega

/-- A frame has headers, and so many bytes that it takes some time to send. -/
theorem sending_pos (fast : 0 < w.options.linkGbps) : 0 < w.sending := by
  have bandwidth : 0 < w.options.bandwidth := by
    have positive : 0 < StarOptions.maxBandwidth := by decide
    unfold StarOptions.bandwidth
    omega
  have bytes : 0 < w.flow.frameLength w.ip :=
    Nat.lt_of_lt_of_le (Flow.headerBytes_bounds w.ip).1 (Nat.le_max_right _ _)
  have largest : 0 < Time.maxNanos := by decide
  have nanos : 0 < (w.flow.frameLength w.ip * 8 * 1000000000 + (w.options.bandwidth - 1)) /
      w.options.bandwidth :=
    Nat.div_pos (by omega) bandwidth
  rw [sending, Link.sendTime, if_neg (Nat.ne_of_gt bandwidth), Time.toNat_ofNanos]
  omega

/-- Frames come to the switch at different times. -/
theorem risenAt_lt (lasting : 0 < w.sending) {j : Nat} (earlier : j < k) :
    w.risenAt j < w.risenAt k := by
  have positive : 0 < w.period := Nat.lt_of_lt_of_le lasting (Nat.le_max_right _ _)
  have begins := Nat.mul_lt_mul_of_pos_right earlier positive
  unfold risenAt beginsAt
  omega

/-- A port of the switch is free again before the next frame comes. -/
theorem risenAt_add_sending_le (k : Nat) : w.risenAt k + w.sending ≤ w.risenAt (k + 1) := by
  have period : w.sending ≤ w.period := Nat.le_max_right _ _
  rw [risenAt, risenAt, beginsAt_succ]
  omega

theorem toNat_leavesAt (fits : w.fallenAt k ≤ Time.maxNanos) :
    (w.leavesAt k).toNat = w.risenAt k + w.sending := by
  unfold fallenAt at fits
  show (Time.ofNanos ((Time.ofNanos (w.risenAt k)).toNat + w.sending)).toNat = _
  rw [Time.toNat_ofNanos_of_le (show w.risenAt k ≤ Time.maxNanos by omega),
    Time.toNat_ofNanos_of_le (by omega)]

theorem leavesAt_add_latency (fits : w.fallenAt k ≤ Time.maxNanos) :
    w.leavesAt k + w.options.latency = .ofNanos (w.fallenAt k) := by
  show Time.ofNanos ((w.leavesAt k).toNat + w.latency) = _
  rw [toNat_leavesAt fits, fallenAt]

end Timetable

namespace Passage

open Timetable

variable (c : Passage)

/-- The ports that have a link. -/
def connected : List Nat := c.ports.filter (· ≠ 0)

/-- A flow that the star is able to carry: its host and its ports are there, its addresses are of one family,
and the times and the sum of all latencies are not too large. -/
structure Sound : Prop where
  source : c.source < c.options.hosts
  sends : c.flow.source = c.source + 1
  family : c.ip.isV4 = c.flow.destination.isV4
  fits : c.flow.payloadBytes c.ip ≤ Network.maxBytes
  forwards : Forwards c.pipeline c.flow c.ip (c.source + 1) c.ports
  ports : ∀ port ∈ c.ports, port ≤ c.options.hosts
  distinct : c.ports.Nodup
  lasting : 0 < c.sending
  timely : ∀ k < c.flow.remaining, c.fallenAt k ≤ Time.maxNanos
  latencies : c.connected.length * ∑ k ∈ Finset.range c.flow.remaining, c.delay k ≤ Time.maxNanos

variable {c} {k : Nat}

theorem Sound.risenAt_le (sound : c.Sound) (inside : k < c.flow.remaining) :
    c.risenAt k ≤ Time.maxNanos := by
  have := sound.timely k inside
  unfold fallenAt at this
  omega

theorem Sound.sentAt_le (sound : c.Sound) (inside : k < c.flow.remaining) :
    c.sentAt k ≤ Time.maxNanos := by
  have := sound.risenAt_le inside
  have := c.sentAt_le_beginsAt k
  unfold risenAt at *
  omega

end Passage

end Star

end Switchyard
