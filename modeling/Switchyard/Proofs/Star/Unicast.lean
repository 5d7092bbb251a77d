import Switchyard.Proofs.Star.Course
import Switchyard.Proofs.Star.Start

/-!
# Unicast in a star

A flow from one host of a star to the address of another. The tables send it to the port of that host, but
the field for the port has nine bits, and the largest number that it holds means that the packet is dropped.
So the flow reaches its host, and no other, exactly if the port is below that number.
-/

namespace Switchyard

open Sequencing

namespace Star

open Passage

variable {stats : Stats}

/-- The counts say that a flow has reached one host and no other. -/
structure ReachesOnly (hosts j frames : Nat) (stats : Stats) : Prop where
  received : ∀ k < hosts, ∃ h, stats.host? (hostName k) = some h ∧
    h.receivedFrames = if k = j then frames else 0
  switchReceived : stats.switchReceived = frames
  switchSent : stats.switchSent = frames
  droppedNoPort : stats.droppedNoPort = 0

section Counts

variable {hosts j frames : Nat}

/-- What is counted says that the flow has reached its destination alone exactly if there was nothing to send
or the port of the destination is below the drop port. -/
theorem reachesOnly_iff (inside : j < hosts)
    (received : ∀ k < hosts, ∃ h, stats.host? (hostName k) = some h ∧
      h.receivedFrames = if k + 1 = portOf j ∧ portOf j ≠ 511 then frames else 0)
    (switchReceived : stats.switchReceived = frames)
    (switchSent : stats.switchSent = if portOf j = 511 then 0 else frames)
    (dropped : stats.droppedNoPort = if portOf j = 0 then frames else 0) :
    ReachesOnly hosts j frames stats ↔ frames = 0 ∨ j + 1 < 511 := by
  unfold portOf at *
  constructor
  · intro reaches
    obtain ⟨h, found, counted⟩ := received j inside
    obtain ⟨h', found', all⟩ := reaches.received j inside
    obtain rfl := Option.some.inj (found.symm.trans found')
    have sent := reaches.switchSent
    rw [if_pos rfl] at all
    rw [switchSent] at sent
    by_cases kept : j + 1 = (j + 1) % 512 ∧ (j + 1) % 512 ≠ 511
    · right
      omega
    · left
      rw [← all, counted, if_neg kept]
  · intro small
    have same (k : Nat) : (if k + 1 = (j + 1) % 512 ∧ (j + 1) % 512 ≠ 511 then frames else 0) =
        if k = j then frames else 0 := by
      split <;> split <;> omega
    refine ⟨fun k below => ?_, switchReceived, ?_, ?_⟩
    · obtain ⟨h, found, counted⟩ := received k below
      exact ⟨h, found, counted.trans (same k)⟩
    · rw [switchSent]
      split <;> omega
    · rw [dropped]
      split <;> omega

end Counts

/-- A flow from a host of a star to the address of a host. A star can be started with up to 65535 hosts. The
run ends with all frames received by the switch; if the last nine bits of the port of the destination are the
drop port, none is sent, and else all go to the host on the port that these bits name, if there is such a
port. So the flow reaches its destination, and no other host, exactly if the port is below the drop port. -/
theorem unicast_in_star (w : Timetable) {j : Nat} (source : w.source < w.options.hosts)
    (sends : w.flow.source = w.source + 1) (inside : j < w.options.hosts)
    (destination : w.flow.destination = hostIp j w.options.ipv6)
    (short : w.flow.frameBytes ≤ Boundary.defaultMaxFrame) (fast : 0 < w.options.linkGbps)
    (timely : ∀ k < w.flow.remaining, w.fallenAt k ≤ Time.maxNanos)
    (latencies : ∑ k ∈ Finset.range w.flow.remaining, w.delay k ≤ Time.maxNanos)
    (few : w.flow.remaining * 3 ≤ Scheduler.maxEvents) :
    ((∃ star s, Starts w.options star s) ↔ w.options.hosts < UInt16.size) ∧
    ∀ star s, Starts w.options star s → star.hosts[w.source]? = some w.flow.source ∧
      ∃ after, (NetworkSimulation.schedule w.start (.inject w.flow) >>= fun _ =>
          NetworkSimulation.run) s = .ok () after ∧
        (∀ k < w.options.hosts, ∃ h, after.network.stats.host? (hostName k) = some h ∧
          h.receivedFrames = if k + 1 = portOf j ∧ portOf j ≠ 511 then w.flow.remaining else 0) ∧
        after.network.stats.switchReceived = w.flow.remaining ∧
        after.network.stats.switchSent = (if portOf j = 511 then 0 else w.flow.remaining) ∧
        after.network.stats.droppedNoPort = (if portOf j = 0 then w.flow.remaining else 0) ∧
        (ReachesOnly w.options.hosts j w.flow.remaining after.network.stats ↔
          w.flow.remaining = 0 ∨ j + 1 < 511) := by
  refine ⟨exists_starts_iff, ?_⟩
  intro star s starts
  obtain ⟨narrow, rfl, loaded, numbering, serves, rfl⟩ := starts.serves
  let c : Passage := ⟨w, loaded, unicastPorts j⟩
  have place : (hostIps w.options.hosts w.options.ipv6).idxOf? w.flow.destination = some j := by
    rw [destination]
    exact idxOf?_hostIps narrow inside
  have one : c.connected.length ≤ 1 := by
    refine Nat.le_trans (List.length_filter_le _ _) ?_
    rw [length_unicastPorts]
    split <;> decide
  have sound : c.Sound := by
    constructor
    case source => exact source
    case sends => exact sends
    case family =>
      show (hostIp w.source w.options.ipv6).isV4 = w.flow.destination.isV4
      rw [destination, isV4_hostIp, isV4_hostIp]
    case fits =>
      have room : Boundary.defaultMaxFrame ≤ Network.maxBytes := by decide
      exact Nat.le_trans (Nat.sub_le _ _) (Nat.le_trans short room)
    case forwards => exact serves.forwards_unicast place (Flow.frameLength_le short) _
    case ports =>
      intro port member
      rw [(mem_unicastPorts.mp member).1]
      exact Nat.le_trans (Nat.mod_le _ _) inside
    case distinct => exact nodup_unicastPorts j
    case lasting => exact Timetable.sending_pos fast
    case timely => exact timely
    case latencies =>
      exact Nat.le_trans (Nat.mul_le_mul_right _ one) (by rw [Nat.one_mul]; exact latencies)
  obtain ⟨after, ran, counted⟩ := sound.run numbering
    (Nat.le_trans (Nat.mul_le_mul_left _ (Nat.add_le_add_right one 2)) few)
  refine ⟨?_, after, ran, ?_⟩
  · rw [sends, List.getElem?_map, List.getElem?_range source]
    rfl
  have received : ∀ k < w.options.hosts, ∃ h, after.network.stats.host? (hostName k) = some h ∧
      h.receivedFrames = if k + 1 = portOf j ∧ portOf j ≠ 511 then w.flow.remaining else 0 := by
    intro k below
    obtain ⟨h, found, all⟩ := counted.received k below
    refine ⟨h, found, all.trans ?_⟩
    simp only [c, mem_unicastPorts]
  have switchSent : after.network.stats.switchSent =
      if portOf j = 511 then 0 else w.flow.remaining := by
    rw [counted.switchSent, length_unicastPorts]
    split <;> simp [c]
  have dropped : after.network.stats.droppedNoPort =
      if portOf j = 0 then w.flow.remaining else 0 := by
    rw [counted.droppedNoPort, count_zero_unicastPorts]
    split <;> simp [c]
  exact ⟨received, counted.switchReceived, switchSent, dropped,
    reachesOnly_iff inside received counted.switchReceived switchSent dropped⟩

/-- In a star with 511 hosts the last one is on port 511, and the flow to it is dropped. -/
theorem unicast_in_star_drop_port : ∃ (w : Timetable) (star : Star) (s after : NetworkSimulation)
    (h : HostStats), w.options.hosts = 511 ∧ w.flow.destination = hostIp 510 false ∧ w.flow.remaining = 2 ∧
      Starts w.options star s ∧
      (NetworkSimulation.schedule w.start (.inject w.flow) >>= fun _ => NetworkSimulation.run) s =
        .ok () after ∧
      after.network.stats.host? (hostName 510) = some h ∧ h.receivedFrames = 0 ∧
      after.network.stats.switchReceived = 2 ∧ after.network.stats.switchSent = 0 ∧
      ¬ReachesOnly 511 510 2 after.network.stats := by
  let w : Timetable :=
    ⟨⟨511, 10, .ofMicros 2, false⟩, ⟨1, 1, hostIp 510 false, 1000, 2, .ofMicros 10⟩, 0, .zero⟩
  have arrivals : ∀ k < w.flow.remaining, w.fallenAt k ≤ Time.maxNanos := by decide +kernel
  have sum : ∑ k ∈ Finset.range w.flow.remaining, w.delay k ≤ Time.maxNanos := by decide +kernel
  obtain ⟨starts, all⟩ := unicast_in_star w (j := 510) (by decide) rfl (by decide) rfl (by decide)
    (by decide) arrivals sum (by decide)
  obtain ⟨star, s, started⟩ := starts.mpr (by decide)
  obtain ⟨-, after, ran, received, switchReceived, switchSent, -, reaches⟩ := all star s started
  obtain ⟨h, found, none⟩ := received 510 (by decide)
  refine ⟨w, star, s, after, h, rfl, rfl, rfl, started, ran, found, none, switchReceived, switchSent, ?_⟩
  intro only
  rcases reaches.mp only with empty | below
  · cases empty
  · omega

end Star

end Switchyard
