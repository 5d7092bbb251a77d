import Mathlib.Algebra.Order.BigOperators.Group.List
import Switchyard.Proofs.Network.HostSide
import Switchyard.Proofs.Network.LinkOrder

/-!
# What hosts receive, and what is counted of it

A receipt is a frame that a host has received, with the time. Every simulation that can be come to has a log
of receipts, and its statistics are what the log says: the frames and bytes delivered, those that hosts
received, name by name and in total, and the sum and the largest of the latencies of frames that say when
they were sent. So the statistics agree with one another.
-/

namespace Switchyard

open Sequencing

/-- A frame that a host has received. -/
structure Receipt where
  host : NodeId
  name : String
  time : Time
  frame : Frame

namespace Receipt

/-- How long the frame was under way, in nanoseconds, if it says when it was sent. -/
def latency? (r : Receipt) : Option Nat := r.frame.sent?.map fun sent => r.time.toNat - sent.toNat

/-- The latencies in a log. -/
def latencies (log : List Receipt) : List Nat := log.filterMap latency?

/-- The bytes in a log. -/
def bytes (log : List Receipt) : Nat := (log.map (·.frame.length)).sum

/-- What was received under a name. -/
def under (name : String) (log : List Receipt) : List Receipt := log.filter (·.name == name)

variable {r : Receipt} {log : List Receipt}

theorem bytes_concat : bytes (log ++ [r]) = bytes log + r.frame.length := by
  simp [bytes]

theorem under_concat (name : String) : under name (log ++ [r]) =
    if name = r.name then under name log ++ [r] else under name log := by
  by_cases same : r.name = name
  · rw [if_pos same.symm]
    simp [under, same]
  · rw [if_neg (Ne.symm same)]
    simp [under, same]

theorem latencies_concat : latencies (log ++ [r]) = latencies log ++ r.latency?.toList := by
  rw [latencies, List.filterMap_append, latencies]
  cases latency : r.latency? <;> simp [latency]

end Receipt

/-- What a host receives at an event: the frame, if the host is there and free. -/
def Network.receipts (net : Network) (now : Time) : NetworkEvent → List Receipt
  | .deliver node _ frame =>
    match net.node? node with
    | some ⟨name, .host _ _, _, false⟩ => [⟨node, name, now, frame⟩]
    | _ => []
  | .inject _ => []

/-! ## Counting -/

/-- The largest of numbers and one more, where zero stands for the largest of none. -/
theorem max?_concat (ns : List Nat) (n : Nat) : (ns ++ [n]).max?.getD 0 = max (ns.max?.getD 0) n := by
  cases ns with
  | nil => simp
  | cons m ns => simp [List.max?, List.foldl_append]

namespace Stats

/-- The counts are those of a log. -/
structure Tallies (log : List Receipt) (stats : Stats) : Prop where
  ordered : HostStats.Ordered stats.hosts
  frames : stats.deliveredFrames = log.length
  bytes : stats.deliveredBytes = Receipt.bytes log
  hostFrames : HostStats.total (·.receivedFrames) stats.hosts = log.length
  hostBytes : HostStats.total (·.receivedBytes) stats.hosts = Receipt.bytes log
  ownFrames : ∀ name, ((stats.host? name).getD .zero).receivedFrames = (Receipt.under name log).length
  ownBytes : ∀ name, ((stats.host? name).getD .zero).receivedBytes = Receipt.bytes (Receipt.under name log)
  latency : stats.totalLatency = (Receipt.latencies log).sum
  largest : stats.maxLatency = (Receipt.latencies log).max?.getD 0

variable {stats : Stats} {log : List Receipt}

theorem tallies_zero : Tallies [] zero where
  ordered := .nil
  frames := rfl
  bytes := rfl
  hostFrames := rfl
  hostBytes := rfl
  ownFrames _ := rfl
  ownBytes _ := rfl
  latency := rfl
  largest := rfl

/-- Counts of switches and of lost frames are no matter of hosts. -/
theorem tallies_ofHosts : Tallies log stats.ofHosts ↔ Tallies log stats := by
  constructor
  · intro tallies
    exact ⟨tallies.ordered, tallies.frames, tallies.bytes, tallies.hostFrames, tallies.hostBytes,
      tallies.ownFrames, tallies.ownBytes, tallies.latency, tallies.largest⟩
  · intro tallies
    exact ⟨tallies.ordered, tallies.frames, tallies.bytes, tallies.hostFrames, tallies.hostBytes,
      tallies.ownFrames, tallies.ownBytes, tallies.latency, tallies.largest⟩

/-- Nor is what a host has sent a matter of what it received. -/
theorem Tallies.onHost {change : HostStats → HostStats} (tallies : Tallies log stats) (name : String)
    (frames : ∀ h, (change h).receivedFrames = h.receivedFrames + 0)
    (bytes : ∀ h, (change h).receivedBytes = h.receivedBytes + 0) :
    Tallies log (stats.onHost name change) where
  ordered := HostStats.ordered_update tallies.ordered name change
  frames := tallies.frames
  bytes := tallies.bytes
  hostFrames := (HostStats.total_update rfl frames name _).trans tallies.hostFrames
  hostBytes := (HostStats.total_update rfl bytes name _).trans tallies.hostBytes
  ownFrames other := by
    rw [host?_onHost tallies.ordered, ← tallies.ownFrames other]
    split
    case isTrue same => rw [same, Option.getD_some, frames, Nat.add_zero]
    case isFalse => rfl
  ownBytes other := by
    rw [host?_onHost tallies.ordered, ← tallies.ownBytes other]
    split
    case isTrue same => rw [same, Option.getD_some, bytes, Nat.add_zero]
    case isFalse => rfl
  latency := tallies.latency
  largest := tallies.largest

/-- The counts when one more frame has been received. -/
def afterReceipt (stats : Stats) (r : Receipt) : Stats :=
  r.latency?.elim id (fun latency => (·.countLatency latency)) (stats.countDelivered r.name r.frame.length)

theorem ofHosts_afterReceipt (stats : Stats) (r : Receipt) :
    (stats.afterReceipt r).ofHosts = stats.ofHosts.afterReceipt r := by
  unfold afterReceipt
  cases r.latency? <;> rfl

/-- The latencies that a receipt leaves are those of the longer log. -/
theorem Tallies.afterReceipt_eq (tallies : Tallies log stats) (r : Receipt) :
    stats.afterReceipt r = { stats.countDelivered r.name r.frame.length with
      totalLatency := (Receipt.latencies (log ++ [r])).sum
      maxLatency := (Receipt.latencies (log ++ [r])).max?.getD 0 } := by
  rw [Receipt.latencies_concat]
  unfold afterReceipt
  cases r.latency? with
  | none =>
    rw [Option.toList_none, List.append_nil, ← tallies.latency, ← tallies.largest]
    rfl
  | some latency =>
    rw [Option.toList_some, List.sum_append, List.sum_singleton, max?_concat, ← tallies.latency,
      ← tallies.largest]
    rfl

theorem Tallies.receive (tallies : Tallies log stats) (r : Receipt) :
    Tallies (log ++ [r]) (stats.afterReceipt r) := by
  have delivered (name : String) : (stats.countDelivered r.name r.frame.length).host? name =
      if name = r.name then some (((stats.host? r.name).getD .zero).countReceived r.frame.length)
      else stats.host? name :=
    HostStats.lookup_update tallies.ordered r.name name (·.countReceived r.frame.length)
  rw [tallies.afterReceipt_eq r]
  constructor
  case ordered => exact HostStats.ordered_update tallies.ordered _ _
  case frames =>
    rw [List.length_append]
    exact congrArg (· + 1) tallies.frames
  case bytes =>
    rw [Receipt.bytes_concat]
    exact congrArg (· + r.frame.length) tallies.bytes
  case hostFrames =>
    rw [List.length_append]
    exact (HostStats.total_update rfl (fun _ => rfl) r.name _).trans
      (congrArg (· + 1) tallies.hostFrames)
  case hostBytes =>
    rw [Receipt.bytes_concat]
    exact (HostStats.total_update rfl (fun _ => rfl) r.name _).trans
      (congrArg (· + r.frame.length) tallies.hostBytes)
  case ownFrames =>
    intro name
    refine (congrArg (fun h => (h.getD HostStats.zero).receivedFrames) (delivered name)).trans ?_
    rw [Receipt.under_concat]
    split
    case isTrue same =>
      rw [List.length_append, ← tallies.ownFrames, same]
      rfl
    case isFalse => exact tallies.ownFrames name
  case ownBytes =>
    intro name
    refine (congrArg (fun h => (h.getD HostStats.zero).receivedBytes) (delivered name)).trans ?_
    rw [Receipt.under_concat]
    split
    case isTrue same =>
      rw [Receipt.bytes_concat, ← tallies.ownBytes, same]
      rfl
    case isFalse => exact tallies.ownBytes name
  case latency => rfl
  case largest => rfl

theorem Tallies.receiveAll (tallies : Tallies log stats) (more : List Receipt) :
    Tallies (log ++ more) (more.foldl afterReceipt stats) := by
  induction more generalizing log stats with
  | nil => rwa [List.append_nil]
  | cons r more ih =>
    have further := ih (tallies.receive r)
    rwa [List.append_assoc] at further

/-- No mean is larger than the largest: frames that do not say when they were sent only lower it. -/
theorem Tallies.averageLatency_le (tallies : Tallies log stats) :
    stats.averageLatency ≤ stats.maxLatency := by
  have each : ∀ latency ∈ Receipt.latencies log, latency ≤ stats.maxLatency := by
    intro latency member
    rw [tallies.largest]
    exact List.le_max?_getD_of_mem member
  have fewer : (Receipt.latencies log).length ≤ stats.deliveredFrames := by
    rw [tallies.frames]
    exact List.length_filterMap_le _ _
  apply Nat.div_le_of_le_mul
  calc stats.totalLatency = (Receipt.latencies log).sum := tallies.latency
    _ ≤ (Receipt.latencies log).length * stats.maxLatency := List.sum_le_card_nsmul _ _ each
    _ ≤ stats.deliveredFrames * stats.maxLatency := Nat.mul_le_mul_right _ fewer

end Stats

/-! ## What happens, and what it does to the counts -/

namespace Activity

variable {s t : Activity} {now : Time} {log : List Receipt}

/-- The counts are those of a log. -/
def Tallies (log : List Receipt) (s : Activity) : Prop := s.network.stats.Tallies log

theorem tallies_iff : Tallies log s ↔ s.hostSide.counts.Tallies log := Stats.tallies_ofHosts.symm

/-- A frame on its way is no receipt. -/
theorem tallies_transmit {node : NodeId} {port : Nat} {frame : Frame} {u : Unit}
    (tallies : Tallies log s) (done : transmit now node port frame s = .ok u t) : Tallies log t := by
  have seen : t.hostSide = s.hostSide := keeps_transmit now node port frame rfl done
  rw [tallies_iff, seen]
  exact tallies_iff.mp tallies

theorem tallies_sendFromHost {node : NodeId} {frame : Frame} {u : Unit} (tallies : Tallies log s)
    (done : sendFromHost now node frame s = .ok u t) : Tallies log t := by
  obtain ⟨n, -, seen⟩ := sendFromHost_eq_ok done
  rw [tallies_iff, seen]
  exact (tallies_iff.mp tallies).onHost n.name (fun _ => rfl) fun _ => rfl

/-- Nor is one that a flow sends. -/
theorem tallies_inject {flow : Flow} {u : Unit} (tallies : Tallies log s)
    (done : flow.inject now s = .ok u t) : Tallies log t := by
  have numbered : Tallies log { s with network := (Network.takeUid s.network).2 } := tallies
  obtain ⟨_, does⟩ := injects_of_ok done
  cases does with
  | exhausted => exact tallies
  | noHost => exact tallies
  | mixed => exact numbered
  | @sends _ _ _ _ m _ _ _ sent =>
    have counted : Tallies log m := tallies_sendFromHost numbered sent
    exact counted

/-- What a host counts when it receives a frame. -/
theorem receive_eq_ok {r : Receipt} {u : Unit} (done : receive r.time r.name r.frame s = .ok u t) :
    t = { s with network := { s.network with stats := s.network.stats.afterReceipt r } } := by
  have rest := modify_bind_eq_ok.mp done
  unfold Stats.afterReceipt Receipt.latency?
  unfold countLatency at rest
  cases tagged : r.frame.sent? with
  | none =>
    simp only [tagged] at rest
    obtain ⟨-, rfl⟩ := state_pure_eq_ok.mp rest
    rfl
  | some sent =>
    simp only [tagged] at rest
    have last := modify_bind_eq_ok.mp rest
    have checked := get_bind_eq_ok.mp last
    split at checked
    · cases checked
    · obtain ⟨-, rfl⟩ := state_pure_eq_ok.mp checked
      rfl

/-- A delivery changes the counts by what it delivers to a host, if that is there and free. -/
theorem deliver_eq_ok {node : NodeId} {port : Nat} {frame : Frame} {u : Unit}
    (done : deliver now node port frame s = .ok u t) :
    t.hostSide = { s.hostSide with
      counts := (s.network.receipts now (.deliver node port frame)).foldl Stats.afterReceipt
        s.hostSide.counts } := by
  obtain ⟨n, found, rest⟩ := (looksUp_requireNode node).bind_eq_ok.mp done
  obtain ⟨name, kind, ports, busy⟩ := n
  unfold Network.receipts
  simp only [found]
  cases busy with
  | true =>
    obtain ⟨-, rfl⟩ := state_pure_eq_ok.mp rest
    cases kind <;> rfl
  | false =>
    obtain ⟨_, marked, mark, rest⟩ := state_bind_eq_ok.mp rest
    obtain ⟨_, handled, handle, last⟩ := state_bind_eq_ok.mp rest
    have before : marked.hostSide = s.hostSide := keeps_setBusy node true rfl mark
    rw [keeps_setBusy node false rfl last, ← before]
    cases kind with
    | host ip mac =>
      obtain rfl := receive_eq_ok (r := ⟨node, name, now, frame⟩) handle
      rw [hostSide, Stats.ofHosts_afterReceipt]
      rfl
    | switch pipeline id => exact keeps_forward now node name pipeline id port frame rfl handle

theorem tallies_event {event : NetworkEvent} {u : Unit} (tallies : Tallies log s)
    (done : event.activity now s = .ok u t) :
    Tallies (log ++ s.network.receipts now event) t := by
  cases event with
  | deliver node port frame =>
    rw [tallies_iff, deliver_eq_ok done]
    exact (tallies_iff.mp tallies).receiveAll _
  | inject flow =>
    rw [Network.receipts, List.append_nil]
    exact tallies_inject tallies done

end Activity

namespace Network

variable {net net' : Network} {log : List Receipt}

theorem stats_addPort (net : Network) (place : NodeId) (link : LinkId) :
    (net.addPort place link).stats = net.stats := by
  unfold addPort
  cases net.node? place <;> rfl

/-- Building a network counts nothing. A new host is listed. -/
theorem Built.stats (built : net.Built net') :
    net'.stats = net.stats ∨ ∃ name, net'.stats = net.stats.onHost name id := by
  cases built with
  | addHost name ip => exact .inr ⟨name, rfl⟩
  | addSwitch => exact .inl rfl
  | setNumbering id numbering => cases id <;> exact .inl rfl
  | connect done =>
    obtain ⟨na, nb, -, -, -, rfl⟩ := connect_eq_ok.mp done
    rw [stats_addPort, stats_addPort]
    exact .inl rfl
  | command done =>
    rcases command_cases done with rfl | ⟨n, pipeline, found, rfl⟩ <;> exact .inl rfl
  | takeUid => exact .inl rfl
  | takeReports => exact .inl rfl

theorem Built.tallies (built : net.Built net') (tallies : net.stats.Tallies log) :
    net'.stats.Tallies log := by
  rcases built.stats with same | ⟨name, listed⟩
  · rw [same]
    exact tallies
  · rw [listed]
    exact tallies.onHost name (fun _ => rfl) fun _ => rfl

/-- Building a network makes no node busy. -/
theorem Built.idle (built : net.Built net') (idle : ∀ n ∈ net.nodes, n.busy = false) :
    ∀ n ∈ net'.nodes, n.busy = false := by
  cases built with
  | addHost name ip => exact (rebuilt_addHost name ip).idle idle
  | addSwitch id name pipeline => exact (rebuilt_addNode name _).idle idle
  | setNumbering id numbering => cases id <;> exact idle
  | connect done => exact (rebuilt_connect done).idle idle
  | command done => exact (rebuilt_command _ _ done).idle idle
  | takeUid => exact idle
  | takeReports => exact idle

/-- What hosts receive when something is made to happen from outside. -/
inductive Receives (net : Network) (now : Time) : (Time → ActivityM Unit) → List Receipt → Prop where
  | send (node : NodeId) (frame : Frame) :
      Receives net now (fun now => Activity.sendFromHost now node frame) []
  | transmit (node : NodeId) (port : Nat) (frame : Frame) :
      Receives net now (fun now => Activity.transmit now node port frame) []
  | event (event : NetworkEvent) :
      Receives net now (fun now => event.activity now) (net.receipts now event)

theorem Receives.tallies {now : Time} {op : Time → ActivityM Unit} {more : List Receipt}
    {after : Activity} (receives : net.Receives now op more) (tallies : net.stats.Tallies log)
    (done : op now ⟨net, []⟩ = .ok () after) : after.network.stats.Tallies (log ++ more) := by
  have before : Activity.Tallies log ⟨net, []⟩ := tallies
  cases receives with
  | send node frame =>
    rw [List.append_nil]
    exact Activity.tallies_sendFromHost before done
  | transmit node port frame =>
    rw [List.append_nil]
    exact Activity.tallies_transmit before done
  | event event => exact Activity.tallies_event before done

/-- Whatever happens leaves the nodes as they were, if they are free. -/
theorem Receives.nodes_eq {now : Time} {op : Time → ActivityM Unit} {more : List Receipt}
    {after : Activity} (receives : net.Receives now op more) (idle : ∀ n ∈ net.nodes, n.busy = false)
    (done : op now ⟨net, []⟩ = .ok () after) : after.network.nodes = net.nodes := by
  cases receives with
  | send node frame => exact (Activity.moves_sendFromHost now node frame done).nodes
  | transmit node port frame => exact (Activity.moves_transmit now node port frame done).nodes
  | event event =>
    have handled := Activity.activity_handled (s := ⟨net, []⟩) idle done
    exact handled.nodes

end Network

namespace NetworkSimulation

/-! ## Simulations and what their hosts have received -/

/-- The simulations that can be come to, with the log of all receipts. -/
inductive Received : NetworkSimulation → List Receipt → Prop where
  | initial : Received initial []
  | build {s : NetworkSimulation} {log : List Receipt} {net : Network} (past : Received s log)
      (built : s.network.Built net) : Received { s with network := net } log
  | happen {s : NetworkSimulation} {log more : List Receipt} {op : Time → ActivityM Unit}
      {after : Activity} (past : Received s log)
      (receives : s.network.Receives s.scheduler.now op more)
      (done : op s.scheduler.now ⟨s.network, []⟩ = .ok () after) :
      Received ⟨s.scheduler.scheduleAll after.planned, after.network⟩ (log ++ more)
  | schedule {s : NetworkSimulation} {log : List Receipt} (past : Received s log)
      (planned : Planned NetworkEvent) :
      Received { s with scheduler := s.scheduler.schedule planned } log
  | execute {s : NetworkSimulation} {log : List Receipt} {isWanted : Time → Bool}
      {p : Pending NetworkEvent} {m : Scheduler NetworkEvent} {after : Activity}
      (past : Received s log) (taken : s.scheduler.next? isWanted = some (p, m))
      (done : p.event.activity m.now ⟨s.network, []⟩ = .ok () after) :
      Received ⟨m.scheduleAll after.planned, after.network⟩
        (log ++ s.network.receipts m.now p.event)
  | wait {s : NetworkSimulation} {log : List Receipt} (past : Received s log) (limit : Time) :
      Received { s with scheduler := { s.scheduler with now := s.scheduler.now.later limit } } log

variable {s after : NetworkSimulation} {log : List Receipt}

theorem Received.tallies (past : Received s log) : s.network.stats.Tallies log := by
  induction past with
  | initial => exact Stats.tallies_zero
  | build _ built ih => exact built.tallies ih
  | happen _ receives done ih => exact receives.tallies ih done
  | schedule _ _ ih => exact ih
  | execute _ _ done ih => exact (Network.Receives.event _).tallies ih done
  | wait _ _ ih => exact ih

/-- Between events no node is busy. -/
theorem Received.idle (past : Received s log) : ∀ n ∈ s.network.nodes, n.busy = false := by
  induction past with
  | initial => exact List.forall_mem_nil _
  | build _ built ih => exact built.idle ih
  | happen _ receives done ih =>
    rw [receives.nodes_eq ih done]
    exact ih
  | schedule _ _ ih => exact ih
  | execute _ _ done ih =>
    rw [(Network.Receives.event _).nodes_eq ih done]
    exact ih
  | wait _ _ ih => exact ih

theorem Received.act_eq_ok {op : Time → ActivityM Unit} (past : Received s log)
    (outside : Outside op) (done : act op s = .ok () after) :
    ∃ more, Received after (log ++ more) := by
  obtain ⟨t, happened, rfl⟩ := NetworkSimulation.act_eq_ok done
  cases outside with
  | send node frame => exact ⟨_, past.happen (.send node frame) happened⟩
  | transmit node port frame => exact ⟨_, past.happen (.transmit node port frame) happened⟩
  | event event => exact ⟨_, past.happen (.event event) happened⟩

theorem Received.executes {isWanted : Time → Bool} {new ran : List (Pending NetworkEvent)}
    {scheduler t : Scheduler NetworkEvent} {net net' : Network} (past : Received ⟨scheduler, net⟩ log)
    (run : Scheduler.Executes Network.behaviour isWanted scheduler net new ran t net') :
    ∃ more, Received ⟨t, net'⟩ (log ++ more) := by
  induction run generalizing log with
  | done => exact ⟨[], by simpa using past⟩
  | next taken happens _ ih =>
    obtain ⟨last, happened, network, planned⟩ := Balanced.perform_eq_ok happens
    have step := past.execute taken happened
    rw [network, planned] at step
    obtain ⟨more, rest⟩ := ih step
    rw [List.append_assoc] at rest
    exact ⟨_, rest⟩

/-- Every simulation with a history has a log of receipts. -/
theorem Recorded.received {history : List Entry} {executed : List (Pending NetworkEvent)}
    (past : Recorded s history executed) : ∃ log, Received s log := by
  induction past with
  | initial => exact ⟨[], .initial⟩
  | build _ built ih => exact ih.imp fun _ past => past.build built
  | happen _ outside done _ ih =>
    obtain ⟨log, past⟩ := ih
    cases outside with
    | send node frame => exact ⟨_, past.happen (.send node frame) done⟩
    | transmit node port frame => exact ⟨_, past.happen (.transmit node port frame) done⟩
    | event event => exact ⟨_, past.happen (.event event) done⟩
  | schedule _ planned ih => exact ih.imp fun _ past => past.schedule planned
  | execute _ taken done _ ih =>
    obtain ⟨log, past⟩ := ih
    exact ⟨_, past.execute taken done⟩
  | wait _ limit _ ih => exact ih.imp fun _ past => past.wait limit

/-- The statistics agree with one another and with what the hosts have received. The frames and bytes
delivered are those that the hosts received, added up, also where hosts share a name; the largest latency
is the largest of the frames received that say when they were sent; and the mean is no larger. This stays so
whatever is made to happen, and in every run. -/
theorem statistics_agree (past : Received s log) :
    (s.network.stats.deliveredFrames =
        HostStats.total (·.receivedFrames) s.network.stats.hosts ∧
      s.network.stats.deliveredBytes = HostStats.total (·.receivedBytes) s.network.stats.hosts ∧
      s.network.stats.maxLatency = (Receipt.latencies log).max?.getD 0 ∧
      s.network.stats.averageLatency ≤ s.network.stats.maxLatency) ∧
    (s.network.stats.deliveredFrames = log.length ∧
      s.network.stats.totalLatency = (Receipt.latencies log).sum ∧
      ∀ name, ((s.network.stats.host? name).getD .zero).receivedFrames =
          (Receipt.under name log).length ∧
        ((s.network.stats.host? name).getD .zero).receivedBytes =
          Receipt.bytes (Receipt.under name log)) ∧
    (∀ op after, Outside op → act op s = .ok () after → ∃ more, Received after (log ++ more)) ∧
    (∀ after, run s = .ok () after → ∃ more, Received after (log ++ more)) ∧
    ∀ limit after, runUntil limit s = .ok () after → ∃ more, Received after (log ++ more) := by
  have tallies := past.tallies
  refine ⟨⟨?frames, ?bytes, tallies.largest, tallies.averageLatency_le⟩,
    ⟨tallies.frames, tallies.latency, fun name => ⟨tallies.ownFrames name, tallies.ownBytes name⟩⟩,
    ?outside, ?run, ?runUntil⟩
  case frames => rw [tallies.frames, tallies.hostFrames]
  case bytes => rw [tallies.bytes, tallies.hostBytes]
  case outside =>
    intro op after outside done
    exact past.act_eq_ok outside done
  case run =>
    intro after done
    obtain ⟨new, ran, events, -⟩ := Scheduler.runWhile_eq_ok (advance_eq_ok done)
    exact past.executes events
  case runUntil =>
    intro limit after done
    obtain ⟨new, ran, last, events, -, moved⟩ := Scheduler.runUntil_eq_ok (advance_eq_ok done)
    obtain ⟨more, further⟩ := past.executes events
    have waited := further.wait limit
    rw [← moved] at waited
    exact ⟨more, waited⟩

/-- Two hosts with one name, and two frames from the first to the second, of which one says when it was
sent. The mean latency is half the largest. -/
theorem statistics_agree_untagged :
    ∃ s log, Received s log ∧
      (s.network.stats.deliveredFrames =
          HostStats.total (·.receivedFrames) s.network.stats.hosts ∧
        s.network.stats.deliveredBytes = HostStats.total (·.receivedBytes) s.network.stats.hosts ∧
        s.network.stats.maxLatency = (Receipt.latencies log).max?.getD 0 ∧
        s.network.stats.averageLatency ≤ s.network.stats.maxLatency) ∧
      log.map (fun r => (r.host, r.name, r.latency?)) = [(1, "twin", some 8), (1, "twin", none)] ∧
      (s.network.stats.deliveredFrames, s.network.stats.maxLatency, s.network.stats.averageLatency,
        s.network.stats.hosts) = (2, 8, 4, [("twin", ⟨2, 5, 2, 5⟩)]) := by
  have hosts := (Received.initial.build (.addHost "twin" (.v4 (.ofNat 1)))).build
    (.addHost "twin" (.v4 (.ofNat 2)))
  have cabled := hosts.build
    (.connect (show Network.connect 0 1 (.ofNanos 5) 8000000000 _ = .ok _ _ from rfl))
  have first := cabled.happen
    (.send 0 ((Frame.ofBytes 0 [1, 2, 3]).addPacketTag (.sentAt .zero))) rfl
  have second := first.happen (.send 0 (Frame.ofBytes 1 [4, 5])) rfl
  have arrived := second.execute (show Scheduler.next? _ (fun _ => true) = some _ from rfl) rfl
  have both := arrived.execute (show Scheduler.next? _ (fun _ => true) = some _ from rfl) rfl
  exact ⟨_, _, both, (statistics_agree both).1, by decide +kernel, by decide +kernel⟩

end NetworkSimulation

end Switchyard
