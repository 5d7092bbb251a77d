import Switchyard.Proofs.Network.FlowFrames
import Switchyard.Proofs.Network.HostCounts
import Switchyard.Proofs.Network.Transmission

/-!
# The side of the hosts

What remains of an activity when one looks away from switches and links: the next number for a frame, the
counts of the hosts, and the flows that are to go on. A frame on its way changes nothing of it. Sending a
frame from a host changes the counts of that host, and an injection takes a number and plans the rest of its
flow.
-/

namespace Switchyard

open Sequencing

/-- The counts without those of switches and of lost frames. -/
def Stats.ofHosts (stats : Stats) : Stats :=
  { stats with droppedNoPort := 0, switchReceived := 0, switchSent := 0 }

/-- The injections among planned events. -/
def injections (planned : List (Planned NetworkEvent)) : List (Planned NetworkEvent) :=
  planned.filter (!·.event.isDelivery)

theorem injections_append (planned more : List (Planned NetworkEvent)) :
    injections (planned ++ more) = injections planned ++ injections more :=
  List.filter_append planned more

theorem injections_following (flow : Flow) (now : Time) (left : Nat) :
    injections (flow.following now left) = flow.following now left := by
  unfold Flow.following
  split <;> rfl

/-- What hosts can see. -/
structure HostSide where
  nextUid : UInt64
  counts : Stats
  flows : List (Planned NetworkEvent)

namespace Activity

/-- What hosts can see of an activity. -/
def hostSide (s : Activity) : HostSide :=
  ⟨s.network.nextUid, s.network.stats.ofHosts, injections s.planned⟩

variable {s t : Activity} {now : Time} {side : HostSide}

theorem keeps_count {f : Stats → Stats} (same : ∀ stats, (f stats).ofHosts = stats.ofHosts) :
    Keeps (hostSide · = side) (count f) := by
  refine keeps_modify fun s seen => ?_
  rw [← seen, hostSide, hostSide, same]

/-- A change that leaves the statistics and the numbers. -/
theorem keeps_change {f : Network → Network} (uid : ∀ net, (f net).nextUid = net.nextUid)
    (stats : ∀ net, (f net).stats = net.stats) : Keeps (hostSide · = side) (change f) := by
  refine keeps_modify fun s seen => ?_
  rw [← seen, hostSide, hostSide, uid, stats]

theorem keeps_links (f : Network → List Link) :
    Keeps (hostSide · = side) (change fun net => { net with links := f net }) :=
  keeps_change (fun _ => rfl) fun _ => rfl

theorem keeps_planDelivery (due : Time) (node : NodeId) (port : Nat) (frame : Frame) :
    Keeps (hostSide · = side) (plan due (.deliver node port frame)) := by
  refine keeps_modify fun s seen => ?_
  rw [← seen, hostSide, hostSide, injections_append]
  exact congrArg (HostSide.mk _ _) (List.append_nil _)

/-- A frame that is given to a link, or lost. -/
theorem keeps_transmit (now : Time) (node : NodeId) (port : Nat) (frame : Frame) :
    Keeps (hostSide · = side) (transmit now node port frame) := by
  refine ((looksOnly_outgoing node port).keeps _).bind fun link => ?_
  cases link with
  | none => exact keeps_count fun _ => rfl
  | some id =>
    refine (looksOnly_get.keeps _).bind fun s => ?_
    exact (keeps_links _).bind fun _ => keeps_planDelivery _ _ _ _

theorem keeps_emitAll (now : Time) (node : NodeId) (emissions : List Emission) :
    Keeps (hostSide · = side) (emissions.forM (emit now node)) := by
  have counted : Keeps (hostSide · = side) (count Stats.countSwitchSent) := keeps_count fun _ => rfl
  exact forM_of_bind ((looksOnly_pure _).keeps _) (fun first second => first.bind fun _ => second)
    fun e => counted.bind fun _ => keeps_transmit now node e.port e.frame

/-- A switch takes nothing from hosts. -/
theorem keeps_forward (now : Time) (node : NodeId) (name : String) (pipeline : Pipeline)
    (id : NumberingId) (port : Nat) (frame : Frame) :
    Keeps (hostSide · = side) (forward now node name pipeline id port frame) := by
  have counted : Keeps (hostSide · = side) (count Stats.countSwitchReceived) :=
    keeps_count fun _ => rfl
  have processed : Keeps (hostSide · = side) (process now name pipeline id port frame) := by
    intro s emissions t seen done
    obtain ⟨-, stats, planned, uid, -⟩ := process_eq_ok done
    rw [← seen, hostSide, hostSide, stats, planned, uid]
  exact counted.bind fun _ => processed.bind fun emissions => keeps_emitAll now node emissions

theorem keeps_setBusy (node : NodeId) (busy : Bool) :
    Keeps (hostSide · = side) (change (·.setBusy node busy)) :=
  keeps_change (fun net => net.nextUid_setBusy node busy) fun net => net.stats_setBusy node busy

/-- A host that sends counts the frame. -/
theorem sendFromHost_eq_ok {node : NodeId} {frame : Frame} {u : Unit}
    (done : sendFromHost now node frame s = .ok u t) :
    ∃ n, s.network.node? node = some n ∧
      t.hostSide = { s.hostSide with
        counts := s.hostSide.counts.onHost n.name (·.countSent frame.length) } := by
  obtain ⟨n, found, rest⟩ := (looksUp_requireNode node).bind_eq_ok.mp done
  replace rest := modify_bind_eq_ok.mp rest
  exact ⟨n, found, keeps_transmit now node 1 frame rfl rest⟩

/-- An injection that sends nothing counts nothing and plans nothing; a number may be used up. -/
theorem Injects.hostSide_of_none {flow : Flow} (does : Injects flow now s none t) :
    t.hostSide = { s.hostSide with nextUid := t.hostSide.nextUid } := by
  cases does <;> rfl

theorem Injects.planned_of_none {flow : Flow} (does : Injects flow now s none t) :
    t.planned = s.planned := by
  cases does <;> rfl

/-- An injection that sends a frame takes the next number for it, counts it for the host and plans the rest
of the flow. -/
theorem Injects.hostSide_of_some {flow : Flow} {frame : Frame} (does : Injects flow now s (some frame) t) :
    ∃ left n ip mac, flow.remaining = left + 1 ∧ s.network.node? flow.source = some n ∧
      n.host? = some (ip, mac) ∧ flow.Makes ip s.hostSide.nextUid.toNat now frame ∧
      t.hostSide = ⟨s.hostSide.nextUid + 1,
        s.hostSide.counts.onHost n.name (·.countSent frame.length),
        s.hostSide.flows ++ flow.following now left⟩ := by
  cases does with
  | @sends left ip mac _ m more host next sent =>
    obtain ⟨n, found, seen⟩ := sendFromHost_eq_ok sent
    obtain ⟨n', found', address⟩ := Option.bind_eq_some_iff.mp host
    obtain rfl : n = n' := Option.some.inj (found.symm.trans found')
    refine ⟨left, n, ip, mac, more, found, address, Flow.makes_of_nextFrame? next, ?_⟩
    have planned : injections (m.planned ++ flow.following now left) =
        s.hostSide.flows ++ flow.following now left := by
      rw [injections_append, injections_following]
      exact congrArg (·.flows ++ flow.following now left) seen
    rw [hostSide, planned]
    exact congrArg (fun side : HostSide => HostSide.mk side.nextUid side.counts _) seen

end Activity

end Switchyard
