import Switchyard.Proofs.Star.Commands
import Switchyard.Proofs.Star.Course

/-!
# Multicast in a star

A flow from one host of a star to an address of its group network. No host has such an address, so the tables
send it to the group of all hosts, and the switch holds back the copy for the port that a frame came by. So
every other host receives all of the flow.
-/

namespace Switchyard

open Sequencing

namespace Star

open BasicSwitch Passage

variable {hosts source port k : Nat}

/-! ## The other hosts -/

/-- The ports of all hosts but one. -/
def otherPorts (hosts source : Nat) : List Nat := ((List.range hosts).erase source).map (· + 1)

theorem mem_otherPorts : port ∈ otherPorts hosts source ↔ ∃ k < hosts, k ≠ source ∧ k + 1 = port := by
  simp only [otherPorts, List.mem_map, List.nodup_range.mem_erase_iff, List.mem_range]
  exact exists_congr fun k => by rw [← and_assoc, and_comm (a := k < hosts)]

theorem succ_mem_otherPorts (inside : k < hosts) : k + 1 ∈ otherPorts hosts source ↔ k ≠ source := by
  rw [mem_otherPorts]
  constructor
  · rintro ⟨i, -, other, same⟩
    rwa [← Nat.succ.inj same]
  · intro other
    exact ⟨k, inside, other, rfl⟩

theorem length_otherPorts (inside : source < hosts) : (otherPorts hosts source).length = hosts - 1 := by
  rw [otherPorts, List.length_map, List.length_erase_of_mem (List.mem_range.mpr inside), List.length_range]

theorem nodup_otherPorts (hosts source : Nat) : (otherPorts hosts source).Nodup :=
  (List.nodup_range.erase source).map fun _ _ same => Nat.succ.inj same

theorem zero_not_mem_otherPorts : 0 ∉ otherPorts hosts source := by
  intro member
  obtain ⟨k, -, -, same⟩ := mem_otherPorts.mp member
  cases same

/-! ## What the switch answers -/

/-- The address of a host is in no group network. -/
theorem not_inGroupNetwork_hostIp (narrow : k < 511) (ipv6 : Bool) :
    ¬(hostIp k ipv6).InGroupNetwork := by
  have number := number_hostIp (i := k) (by omega) ipv6
  rw [← isGroupAddress_iff, IsGroupAddress, number]
  cases ipv6 with
  | false =>
    show ¬0x0a00ff00 % 2 ^ 32 / 2 ^ 8 = (0x0a000000 + (k + 1)) % 2 ^ 32 / 2 ^ 8
    omega
  | true =>
    show ¬0xff0e * 2 ^ 112 % 2 ^ 128 / 2 ^ 112 = (0x20010db8 * 2 ^ 96 + (k + 1)) % 2 ^ 128 / 2 ^ 112
    omega

theorem idxOf?_of_inGroupNetwork {ip : IpAddr} {ipv6 : Bool} (numbered : hosts ≤ 511)
    (group : ip.InGroupNetwork) : (hostIps hosts ipv6).idxOf? ip = none := by
  rw [List.idxOf?_eq_none_iff]
  intro member
  obtain ⟨k, inside, rfl⟩ := List.mem_map.mp member
  exact not_inGroupNetwork_hostIp (Nat.lt_of_lt_of_le (List.mem_range.mp inside) numbered) ipv6 group

/-- Of the copies for all hosts, the one for the port of the frame is withheld. -/
theorem kept_copies (ips : List IpAddr) (numbered : ips.length ≤ 511) (inside : source < ips.length) :
    (((plane ips).multicast.replicate group).filter fun r =>
        !withheld (plane ips).tables (source + 1) r).map (·.egressPort) =
      otherPorts ips.length source := by
  have unfiltered (r : Replica) :
      (plane ips).tables.lookup "rid_filter" [r.rid % UInt16.size] = none := rfl
  rw [replicate_plane, List.filter_map, List.map_map, otherPorts, List.nodup_range.erase_eq_filter]
  refine congrArg (List.map _) (List.filter_congr fun i member => ?_)
  have below := List.mem_range.mp member
  have apart : ((i + 1) % 512 == (source + 1) % 512) = (i == source) := by
    rw [Bool.eq_iff_iff, beq_iff_eq, beq_iff_eq]
    omega
  rw [Function.comp_apply, withheld, unfiltered, Option.isSome_none, Bool.or_false, apart]
  rfl

variable {pipeline : Pipeline} {flow : Flow}

/-- A flow to a group leaves by the ports of all hosts but the one that it comes from. -/
theorem Serves.forwards_multicast {ips : List IpAddr} (serves : Serves pipeline ips)
    (numbered : ips.length ≤ 511) (inside : source < ips.length) {ip : IpAddr}
    (group : flow.destination.InGroupNetwork) (unlisted : ips.idxOf? flow.destination = none)
    (short : flow.frameLength ip ≤ Boundary.defaultMaxFrame) :
    Forwards pipeline flow ip (source + 1) (otherPorts ips.length source) := by
  intro sent frame carries now numbering
  have routed := serves.routed carries
  rw [lookup_plane, unlisted] at routed
  simp only [isGroupAddress_iff, if_pos group] at routed
  obtain ⟨reports, done, emissions⟩ := serves.process short carries (source + 1) now numbering
  refine ⟨_, _, done, ?_, emissions⟩
  have ports := ports_multicast numbering.nextPacket (source + 1) now serves.installed serves.controls
    serves.reached routed carries.passable.intact rfl rfl (by decide)
  simp only [serves.known, carries.passable.hops, or_false, true_and, serves.loaded, Bool.decide_eq_true]
    at ports
  exact ports.trans (kept_copies ips numbered inside)

/-! ## The number of events -/

/-- A frame crosses two links. -/
theorem Timetable.two_hops_le_delay (w : Timetable) (k : Nat) :
    2 * (w.sending + w.latency) ≤ w.delay k := by
  have begins := w.sentAt_le_beginsAt k
  unfold delay fallenAt risenAt
  omega

/-- If the latencies of all copies can be added up, their events can be counted too. Only where one copy of
each frame is made and a link takes a nanosecond does the sum not say so. -/
theorem Timetable.events_fit {w : Timetable} (several : 2 ≤ w.options.hosts) (lasting : 0 < w.sending)
    (latencies : (w.options.hosts - 1) * ∑ k ∈ Finset.range w.flow.remaining, w.delay k ≤ Time.maxNanos)
    (few : w.options.hosts = 2 → w.sending + w.latency = 1 →
      w.flow.remaining * 3 ≤ Scheduler.maxEvents) :
    w.flow.remaining * (w.options.hosts - 1 + 2) ≤ Scheduler.maxEvents := by
  by_cases tight : w.options.hosts = 2 ∧ w.sending + w.latency = 1
  · rw [tight.1]
    exact few tight.1 tight.2
  · have hops : w.options.hosts - 1 + 2 ≤ (w.options.hosts - 1) * (2 * (w.sending + w.latency)) := by
      rcases Nat.eq_or_lt_of_le several with two | more
      · rw [← two]
        omega
      · have once : (w.options.hosts - 1) * 2 ≤
            (w.options.hosts - 1) * (2 * (w.sending + w.latency)) :=
          Nat.mul_le_mul_left _ (by omega)
        omega
    have sum : w.flow.remaining * (2 * (w.sending + w.latency)) ≤
        ∑ k ∈ Finset.range w.flow.remaining, w.delay k := by
      have each := Finset.card_nsmul_le_sum (Finset.range w.flow.remaining) w.delay
        (2 * (w.sending + w.latency)) fun k _ => w.two_hops_le_delay k
      rwa [Finset.card_range, Nat.nsmul_eq_mul] at each
    calc w.flow.remaining * (w.options.hosts - 1 + 2)
        ≤ w.flow.remaining * ((w.options.hosts - 1) * (2 * (w.sending + w.latency))) :=
          Nat.mul_le_mul_left _ hops
      _ = (w.options.hosts - 1) * (w.flow.remaining * (2 * (w.sending + w.latency))) :=
          Nat.mul_left_comm _ _ _
      _ ≤ (w.options.hosts - 1) * ∑ k ∈ Finset.range w.flow.remaining, w.delay k :=
          Nat.mul_le_mul_left _ sum
      _ ≤ Scheduler.maxEvents := latencies

/-! ## The whole flow -/

/-- The counts say that a flow has reached all hosts but one. -/
structure ReachesOthers (hosts source frames : Nat) (stats : Stats) : Prop where
  received : ∀ k < hosts, ∃ h, stats.host? (hostName k) = some h ∧
    h.receivedFrames = if k = source then 0 else frames
  delivered : stats.deliveredFrames = frames * (hosts - 1)
  switchSent : stats.switchSent = frames * (hosts - 1)
  switchReceived : stats.switchReceived = frames
  droppedNoPort : stats.droppedNoPort = 0

theorem Passage.Counted.reachesOthers {c : Passage} {stats : Stats} (counted : c.Counted stats)
    (inside : source < c.options.hosts) (ports : c.ports = otherPorts c.options.hosts source)
    (connected : c.connected = c.ports) :
    ReachesOthers c.options.hosts source c.flow.remaining stats := by
  constructor
  case received =>
    intro k below
    obtain ⟨h, found, all⟩ := counted.received k below
    refine ⟨h, found, ?_⟩
    rw [all, ports]
    simp only [succ_mem_otherPorts below, ite_not]
  case delivered => rw [counted.delivered, connected, ports, length_otherPorts inside]
  case switchSent => rw [counted.switchSent, ports, length_otherPorts inside]
  case switchReceived => exact counted.switchReceived
  case droppedNoPort =>
    rw [counted.droppedNoPort, ports, List.count_eq_zero.mpr zero_not_mem_otherPorts, Nat.mul_zero]

/-- A flow from a host of a star, of as many hosts as the field for ports can number, to an address of the
group network of its family. The star can be started, and the run ends with all frames received by every
other host and none by the host that sends them. The times and the sum of all latencies have to fit their 64
bits, and so does the number of events where the sum does not say so. -/
theorem multicast_in_star (w : Timetable) (several : 2 ≤ w.options.hosts)
    (numbered : w.options.hosts ≤ 511) (source : w.source < w.options.hosts)
    (sends : w.flow.source = w.source + 1) (family : w.flow.destination.isV4 = !w.options.ipv6)
    (group : w.flow.destination.InGroupNetwork) (short : w.flow.frameBytes ≤ 9000)
    (fast : 0 < w.options.linkGbps)
    (timely : ∀ k < w.flow.remaining, w.fallenAt k ≤ Time.maxNanos)
    (latencies : (w.options.hosts - 1) * ∑ k ∈ Finset.range w.flow.remaining, w.delay k ≤ Time.maxNanos)
    (few : w.options.hosts = 2 → w.sending + w.latency = 1 →
      w.flow.remaining * 3 ≤ Scheduler.maxEvents) :
    (∃ star s, Starts w.options star s) ∧
    ∀ star s, Starts w.options star s → star.hosts[w.source]? = some w.flow.source ∧
      ∃ after, (NetworkSimulation.schedule w.start (.inject w.flow) >>= fun _ =>
          NetworkSimulation.run) s = .ok () after ∧
        ReachesOthers w.options.hosts w.source w.flow.remaining after.network.stats := by
  refine ⟨exists_starts_iff.mpr (Nat.lt_of_le_of_lt numbered (by decide)), ?_⟩
  intro star s starts
  obtain ⟨-, rfl, loaded, numbering, serves, rfl⟩ := starts.serves
  refine ⟨?_, ?_⟩
  · rw [sends, List.getElem?_map, List.getElem?_range source]
    rfl
  let c : Passage := ⟨w, loaded, otherPorts w.options.hosts w.source⟩
  have connected : c.connected = otherPorts w.options.hosts w.source := by
    refine List.filter_eq_self.mpr fun port member => ?_
    simpa using ne_of_mem_of_not_mem member zero_not_mem_otherPorts
  have copies : c.connected.length = w.options.hosts - 1 := by
    rw [connected, length_otherPorts source]
  have lasting : 0 < w.sending := Timetable.sending_pos fast
  have sound : c.Sound := by
    constructor
    case source => exact source
    case sends => exact sends
    case family =>
      show (hostIp w.source w.options.ipv6).isV4 = w.flow.destination.isV4
      rw [family, isV4_hostIp]
    case fits =>
      have room : 9000 ≤ Network.maxBytes := by decide
      exact Nat.le_trans (Nat.sub_le _ _) (Nat.le_trans short room)
    case forwards =>
      have unlisted : (hostIps w.options.hosts w.options.ipv6).idxOf? w.flow.destination = none :=
        idxOf?_of_inGroupNetwork numbered group
      have fits : w.flow.frameLength c.ip ≤ Boundary.defaultMaxFrame := Flow.frameLength_le short
      have inside : w.source < (hostIps w.options.hosts w.options.ipv6).length := by
        rwa [length_hostIps]
      have forwards := serves.forwards_multicast (by rwa [length_hostIps]) inside group unlisted fits
      rwa [length_hostIps] at forwards
    case ports =>
      intro port member
      obtain ⟨k, below, -, rfl⟩ := mem_otherPorts.mp member
      exact below
    case distinct => exact nodup_otherPorts _ _
    case lasting => exact lasting
    case timely => exact timely
    case latencies =>
      rw [copies]
      exact latencies
  have few : c.flow.remaining * (c.connected.length + 2) ≤ Scheduler.maxEvents := by
    rw [copies]
    exact Timetable.events_fit several lasting latencies few
  obtain ⟨after, ran, counted⟩ := sound.run numbering few
  exact ⟨after, ran, counted.reachesOthers source rfl connected⟩

/-- The largest star: its last host is on the port whose number means that a packet is dropped, and receives
the flow all the same. -/
theorem multicast_in_star_largest : ∃ (w : Timetable) (star : Star) (s after : NetworkSimulation)
    (h : HostStats), w.options.hosts = 511 ∧ w.flow.destination = .v4 (.ofNat 0x0a00ff07) ∧
      w.flow.remaining = 2 ∧ Starts w.options star s ∧
      (NetworkSimulation.schedule w.start (.inject w.flow) >>= fun _ => NetworkSimulation.run) s =
        .ok () after ∧
      after.network.stats.host? (hostName 510) = some h ∧ h.receivedFrames = 2 ∧
      after.network.stats.deliveredFrames = 1020 := by
  let w : Timetable :=
    ⟨⟨511, 10, .ofMicros 2, false⟩, ⟨1, 1, .v4 (.ofNat 0x0a00ff07), 1000, 2, .ofMicros 10⟩, 0, .zero⟩
  have arrivals : ∀ k < w.flow.remaining, w.fallenAt k ≤ Time.maxNanos := by decide +kernel
  have sum : (w.options.hosts - 1) * ∑ k ∈ Finset.range w.flow.remaining, w.delay k ≤ Time.maxNanos := by
    decide +kernel
  obtain ⟨⟨star, s, started⟩, all⟩ := multicast_in_star w (by decide) (by decide) (by decide) rfl rfl
    (by decide) (by decide) (by decide) arrivals sum (by decide)
  obtain ⟨-, after, ran, reaches⟩ := all star s started
  obtain ⟨h, found, received⟩ := reaches.received 510 (by decide)
  have total : w.flow.remaining * (w.options.hosts - 1) = 1020 := by decide
  exact ⟨w, star, s, after, h, rfl, rfl, rfl, started, ran, found, received,
    reaches.delivered.trans total⟩

end Star

end Switchyard
