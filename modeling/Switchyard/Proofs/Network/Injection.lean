import Mathlib.Algebra.BigOperators.Group.List.Basic
import Switchyard.Proofs.Network.Execution
import Switchyard.Proofs.Network.FrameNumbers

/-!
# Flows in a run

A flow goes on by planning itself anew, while deliveries and other flows are executed in between. Its own turns
are found by following, from each of them, the injection that it put into the queue. In a complete run a flow
from a host of the right family takes a turn for each frame that it has left, one gap after another; and a flow
from anywhere else takes one turn and sends nothing.
-/

namespace Switchyard

namespace Turn

/-- The injection by which a flow goes on after a turn. -/
def next? (turn : Turn) : Option (Pending NetworkEvent) :=
  turn.scheduled.find? (!·.event.isDelivery)

/-- The turns of one flow, apart from those of all others: that of the awaited entry, and from there on always
that of the injection by which the flow goes on. -/
def follow : Option (Pending NetworkEvent) → List Turn → List Turn × List Turn
  | _, [] => ([], [])
  | awaited, turn :: turns =>
    if awaited = some turn.entry then
      (turn :: (follow turn.next? turns).1, (follow turn.next? turns).2)
    else ((follow awaited turns).1, turn :: (follow awaited turns).2)

variable {p q : Pending NetworkEvent}

theorem follow_own (p : Pending NetworkEvent) (sent : List Sending)
    (scheduled : List (Pending NetworkEvent)) (turns : List Turn) :
    follow (some p) (⟨p, sent, scheduled⟩ :: turns) =
      (⟨p, sent, scheduled⟩ :: (follow (next? ⟨p, sent, scheduled⟩) turns).1,
        (follow (next? ⟨p, sent, scheduled⟩) turns).2) := by
  rw [follow, if_pos rfl]

theorem follow_other (other : q ≠ p) (sent : List Sending) (scheduled : List (Pending NetworkEvent))
    (turns : List Turn) : follow (some p) (⟨q, sent, scheduled⟩ :: turns) =
      ((follow (some p) turns).1, ⟨q, sent, scheduled⟩ :: (follow (some p) turns).2) := by
  rw [follow, if_neg fun same => other (Option.some.inj same).symm]

theorem follow_none (turns : List Turn) : follow none turns = ([], turns) := by
  induction turns with
  | nil => rfl
  | cons turn turns ih => rw [follow, if_neg (Option.some_ne_none _).symm, ih]

/-- No turn is left out, and none is counted twice. -/
theorem follow_perm (awaited : Option (Pending NetworkEvent)) (turns : List Turn) :
    ((follow awaited turns).1 ++ (follow awaited turns).2).Perm turns := by
  induction turns generalizing awaited with
  | nil => exact .refl _
  | cons turn turns ih =>
    rw [follow]
    split
    · exact (ih turn.next?).cons turn
    · exact List.perm_middle.trans ((ih awaited).cons turn)

/-- The turns of the flow come in the order of the run. -/
theorem follow_sublist (awaited : Option (Pending NetworkEvent)) (turns : List Turn) :
    (follow awaited turns).1.Sublist turns := by
  induction turns generalizing awaited with
  | nil => exact .slnil
  | cons turn turns ih =>
    rw [follow]
    split
    · exact (ih turn.next?).cons_cons turn
    · exact (ih awaited).cons turn

variable {m : Scheduler NetworkEvent} {planned : List (Planned NetworkEvent)}

/-- A flow goes on by the first injection that was planned. -/
theorem next?_eq (p : Pending NetworkEvent) (sent : List Sending) (m : Scheduler NetworkEvent)
    (planned : List (Planned NetworkEvent)) :
    (next? ⟨p, sent, m.recorded planned⟩).map (fun q => (q.due, q.event)) =
      (injections planned).head?.map fun q => (m.now.later q.due, q.event) := by
  rw [injections, List.head?_filter]
  exact Scheduler.find?_recorded (!·.isDelivery) m planned

theorem next?_of_last (last : injections planned = []) (p : Pending NetworkEvent) (sent : List Sending) :
    next? ⟨p, sent, m.recorded planned⟩ = none := by
  have goesOn := next?_eq p sent m planned
  rw [last] at goesOn
  exact Option.map_eq_none_iff.mp goesOn

/-- A flow with frames left goes on a gap later: no time is past the largest one. -/
theorem next?_of_following {flow : Flow} {left : Nat}
    (following : injections planned = flow.following m.now (left + 1)) (p : Pending NetworkEvent)
    (sent : List Sending) :
    ∃ entry, next? ⟨p, sent, m.recorded planned⟩ = some entry ∧
      entry ∈ (m.scheduleAll planned).queue ∧ entry.due = m.now + flow.gap ∧
      entry.event = .inject { flow with remaining := left + 1 } := by
  have goesOn := next?_eq p sent m planned
  rw [following] at goesOn
  obtain ⟨entry, goes, values⟩ := Option.map_eq_some_iff.mp goesOn
  obtain ⟨due, event⟩ := Prod.mk.inj values
  refine ⟨entry, goes, ?queued, ?due, event⟩
  case queued =>
    have member : entry ∈ m.recorded planned := List.mem_of_find?_eq_some goes
    exact (Scheduler.queue_scheduleAll m planned).mem_iff.mpr (List.mem_append_left _ member)
  case due =>
    rw [due, ← Time.toNat_inj, Time.toNat_later, Time.toNat_add]
    have bound := m.now.toNat_le
    omega

end Turn

/-- A frame is the one at position `k` of a flow that starts at a time, as the host with the name and the
address sends it. -/
structure Sending.IsNth (flow : Flow) (start : Time) (name : String) (ip : IpAddr) (k : Nat) (x : Sending) :
    Prop where
  host : x.host = flow.source
  name : x.name = name
  time : x.time.toNat = min (start.toNat + k * flow.gap.toNat) Time.maxNanos
  length : x.frame.length = max flow.frameBytes (if ip.isV4 then 42 else 62)
  tags : x.frame.packetTags = [.flowId flow.id, .sentAt x.time]

/-- The frames are those of a flow: as many as were left, each in its place. -/
structure Flow.Sends (flow : Flow) (start : Time) (name : String) (ip : IpAddr) (log : List Sending) :
    Prop where
  count : log.length = flow.remaining
  each : ∀ (k : Nat) (x : Sending), log[k]? = some x → x.IsNth flow start name ip k

namespace Flow

variable {flow : Flow} {start now : Time} {n : Node} {name : String} {ip : IpAddr} {mac : MacAddr}
  {left : Nat} {x : Sending} {log sent : List Sending} {net : Network} {after : Activity}

theorem sends_nil (nothing : flow.remaining = 0) : flow.Sends start name ip [] where
  count := nothing.symm
  each k x found := by cases found

/-- The first frame, and then those of the rest of the flow, a gap later. -/
theorem Sends.cons (more : flow.remaining = left + 1) (first : x.IsNth flow start name ip 0)
    (rest : { flow with remaining := left }.Sends (start + flow.gap) name ip log) :
    flow.Sends start name ip (x :: log) where
  count := by rw [List.length_cons, rest.count, more]
  each k y found := by
    cases k with
    | zero =>
      obtain rfl := Option.some.inj found
      exact first
    | succ k =>
      obtain ⟨host, name, time, length, tags⟩ := rest.each k y found
      have later : y.time.toNat = min ((start + flow.gap).toNat + k * flow.gap.toNat) Time.maxNanos := time
      refine ⟨host, name, ?_, length, tags⟩
      rw [later, Time.toNat_add, Nat.succ_mul]
      omega

theorem Sends.bytes_eq (sends : flow.Sends start name ip log) :
    Sending.bytes log = flow.remaining * max flow.frameBytes (if ip.isV4 then 42 else 62) := by
  have each : ∀ length ∈ log.map (·.frame.length),
      length = max flow.frameBytes (if ip.isV4 then 42 else 62) := by
    refine List.forall_mem_map.mpr fun x member => ?_
    obtain ⟨k, found⟩ := List.mem_iff_getElem?.mp member
    exact (sends.each k x found).length
  rw [Sending.bytes, List.sum_eq_card_nsmul _ _ each, List.length_map, sends.count, smul_eq_mul]

theorem Sends.own_name (sends : flow.Sends start name ip log) : ∀ x ∈ log, x.name = name := by
  intro x member
  obtain ⟨k, found⟩ := List.mem_iff_getElem?.mp member
  exact (sends.each k x found).name

/-- What an injection of a flow from a host of the right family does: nothing if nothing is left, and else it
sends the first frame of what is left, and plans the rest. -/
theorem injection_of_host (sends : (NetworkEvent.inject flow).Sends now ⟨net, []⟩ sent after)
    (found : net.node? flow.source = some n) (host : n.host? = some (ip, mac))
    (family : ip.isV4 = flow.destination.isV4) :
    (flow.remaining = 0 ∧ sent = [] ∧ injections after.planned = []) ∨
      ∃ left x, flow.remaining = left + 1 ∧ sent = [x] ∧ x.IsNth flow now n.name ip 0 ∧
        injections after.planned = flow.following now left := by
  have address : net.host? flow.source = some (ip, mac) := Network.host?_of_node? found host
  cases sends with
  | silent does =>
    left
    cases does with
    | exhausted nothing => exact ⟨nothing, rfl, rfl⟩
    | noHost missing => cases address.symm.trans missing
    | mixed _ other unlike =>
      cases address.symm.trans other
      obtain ⟨frame, next⟩ := exists_nextFrame? family now net.nextUid.toNat mac (Network.takeUid net).2
      cases next.symm.trans unlike
  | send found' does =>
    obtain rfl := Option.some.inj (found.symm.trans found')
    obtain ⟨left, n', ip', mac', more, other, host', makes, side⟩ := does.hostSide_of_some
    obtain rfl := Option.some.inj (found.symm.trans other)
    cases host.symm.trans host'
    refine .inr ⟨left, _, more, rfl, ⟨rfl, rfl, ?time, ?length, makes.tags⟩,
      congrArg HostSide.flows side⟩
    case time =>
      show now.toNat = min (now.toNat + 0 * flow.gap.toNat) Time.maxNanos
      rw [Nat.zero_mul, Nat.add_zero, Nat.min_eq_left now.toNat_le]
    case length => rw [makes.length, frameLength, headerBytes_eq]

/-- An injection of a flow from anywhere else sends nothing and plans nothing. -/
theorem injection_of_unlike (sends : (NetworkEvent.inject flow).Sends now ⟨net, []⟩ sent after)
    (unlike : ∀ ip mac, net.host? flow.source = some (ip, mac) → ip.isV4 ≠ flow.destination.isV4) :
    sent = [] ∧ after.planned = [] := by
  cases sends with
  | silent does => exact ⟨rfl, does.planned_of_none⟩
  | send _ does =>
    obtain ⟨left, n, ip, mac, -, found, host, makes, -⟩ := does.hostSide_of_some
    exact absurd makes.family (unlike ip mac (Network.host?_of_node? found host))

end Flow

/-- How a flow goes in its own turns: it takes one for each frame, or a single one if there are no frames. -/
structure Flow.Completes (flow : Flow) (start : Time) (name : String) (ip : IpAddr) (own : List Turn) :
    Prop where
  turns : own.length = max 1 flow.remaining
  sends : flow.Sends start name ip (own.flatMap Turn.sent)

namespace Flow

variable {flow : Flow} {start : Time} {name : String} {ip : IpAddr} {left : Nat} {x : Sending}
  {turn : Turn} {own : List Turn}

theorem completes_of_nothing (nothing : flow.remaining = 0) (silent : turn.sent = []) :
    flow.Completes start name ip [turn] := by
  refine ⟨by rw [nothing]; rfl, ?_⟩
  rw [List.flatMap_singleton, silent]
  exact sends_nil nothing

theorem completes_cons (more : flow.remaining = left + 1) (sent : turn.sent = [x])
    (first : x.IsNth flow start name ip 0) (length : own.length = left)
    (rest : { flow with remaining := left }.Sends (start + flow.gap) name ip (own.flatMap Turn.sent)) :
    flow.Completes start name ip (turn :: own) := by
  refine ⟨?_, ?_⟩
  · rw [List.length_cons, length, more]
    omega
  · rw [List.flatMap_cons, sent, List.singleton_append]
    exact rest.cons more first

end Flow

namespace Turns

variable {s t : Scheduler NetworkEvent} {net last : Network} {turns : List Turn}
  {p : Pending NetworkEvent} {flow : Flow} {n : Node} {ip : IpAddr} {mac : MacAddr}

/-- A flow from a host of the right family that waits in the queue completes, if the run does. By induction on
the turns: what comes before the awaited one leaves it in the queue, and the turn itself puts the rest of the
flow there. -/
theorem completes (run : Turns s net turns t last) (ended : t.queue = [])
    (idle : ∀ n ∈ net.nodes, n.busy = false) (found : net.node? flow.source = some n)
    (host : n.host? = some (ip, mac)) (family : ip.isV4 = flow.destination.isV4)
    (waiting : p ∈ s.queue) (injects : p.event = .inject flow) :
    flow.Completes p.due n.name ip (Turn.follow (some p) turns).1 := by
  induction run generalizing p flow with
  | done =>
    rw [ended] at waiting
    cases waiting
  | @next s m t net last q after sent turns taken done sends rest ih =>
    have nodes : after.network.nodes = net.nodes :=
      (Network.Receives.event _).nodes_eq idle done
    have idle' : ∀ n ∈ after.network.nodes, n.busy = false := nodes ▸ idle
    have found' : after.network.node? flow.source = some n := by
      rw [Network.node?, nodes]
      exact found
    by_cases own : q = p
    case pos =>
      subst own
      have now : m.now = q.due := by rw [(Scheduler.next?_eq_some.mp taken).2.2]
      rw [injects] at sends
      rw [Turn.follow_own, ← now]
      obtain ⟨nothing, silent, planned⟩ | ⟨left, x, more, one, first, planned⟩ :=
        flow.injection_of_host sends found host family
      · rw [Turn.next?_of_last planned, Turn.follow_none]
        exact Flow.completes_of_nothing nothing silent
      · cases left with
        | zero =>
          rw [Turn.next?_of_last planned, Turn.follow_none]
          exact Flow.completes_cons more one first rfl (Flow.sends_nil rfl)
        | succ left =>
          obtain ⟨entry, goes, queued, due, event⟩ := Turn.next?_of_following planned q sent
          have rest := @ih entry { flow with remaining := left + 1 } ended idle' found' family queued event
          have length := rest.turns
          rw [goes]
          rw [due] at rest
          refine Flow.completes_cons more one first ?_ rest.sends
          rw [length]
          exact Nat.max_eq_right (Nat.succ_le_succ (Nat.zero_le left))
    case neg =>
      rw [Turn.follow_other own]
      exact ih ended idle' found' family (Scheduler.waits_on taken own waiting _) injects

/-- A flow from anywhere else that waits in the queue takes one turn, which does nothing. -/
theorem ends_at_once (run : Turns s net turns t last) (ended : t.queue = [])
    (idle : ∀ n ∈ net.nodes, n.busy = false)
    (unlike : ∀ ip mac, net.host? flow.source = some (ip, mac) → ip.isV4 ≠ flow.destination.isV4)
    (waiting : p ∈ s.queue) (injects : p.event = .inject flow) :
    (Turn.follow (some p) turns).1 = [⟨p, [], []⟩] := by
  induction run with
  | done =>
    rw [ended] at waiting
    cases waiting
  | @next s m t net last q after sent turns taken done sends rest ih =>
    have nodes : after.network.nodes = net.nodes :=
      (Network.Receives.event _).nodes_eq idle done
    by_cases own : q = p
    case pos =>
      subst own
      rw [injects] at sends
      obtain ⟨silent, planned⟩ := flow.injection_of_unlike sends unlike
      have last : injections after.planned = [] := by rw [planned, injections, List.filter_nil]
      rw [Turn.follow_own, Turn.next?_of_last last, Turn.follow_none, silent, planned]
      rfl
    case neg =>
      rw [Turn.follow_other own]
      refine ih ended (nodes ▸ idle) ?_ (Scheduler.waits_on taken own waiting _)
      intro ip mac host
      rw [Network.host?_of_nodes nodes] at host
      exact unlike ip mac host

end Turns

namespace NetworkSimulation

variable {s after : NetworkSimulation} {log : List Receipt} {p : Pending NetworkEvent} {flow : Flow}

/-- Injection is exact. In a complete run a flow that waits in the queue, with `n` frames left, makes its source
send `n` frames, if that is a host of the family of the destination: the first when the flow is due and each
other one a gap later, as long as was asked for, tagged with the flow and the time. Their numbers come from the
counter: no two are the same, and they ascend as long as the counter does not start again from zero. The source
counts these frames and bytes, beside those that it sends in the turns of others; the counts are natural
numbers, and counters of 64 bits agree with them up to 2^64. Any other flow takes one turn, which sends nothing
and plans nothing. Whatever was executed before, an injection of the flow comes through exactly if nothing is
left to send or the payload fits the memory. -/
theorem injections_exact (past : Received s log) (waiting : p ∈ s.scheduler.queue)
    (injects : p.event = .inject flow) (done : run s = .ok () after) :
    ∃ turns own others, Turns s.scheduler s.network turns after.scheduler after.network ∧
      Turn.follow (some p) turns = (own, others) ∧
      (∀ n ip mac, s.network.node? flow.source = some n → n.host? = some (ip, mac) →
        ip.isV4 = flow.destination.isV4 →
        flow.Completes p.due n.name ip own ∧
        Sending.Numbered s.network.nextUid (Turn.numbersTaken s.network turns)
          (own.flatMap Turn.sent) ∧
        ((after.network.stats.host? n.name).getD .zero).sentFrames =
          ((s.network.stats.host? n.name).getD .zero).sentFrames + flow.remaining +
            (Sending.under n.name (others.flatMap Turn.sent)).length ∧
        ((after.network.stats.host? n.name).getD .zero).sentBytes =
          ((s.network.stats.host? n.name).getD .zero).sentBytes +
            flow.remaining * max flow.frameBytes (if ip.isV4 then 42 else 62) +
            Sending.bytes (Sending.under n.name (others.flatMap Turn.sent))) ∧
      ((∀ ip mac, s.network.host? flow.source = some (ip, mac) → ip.isV4 ≠ flow.destination.isV4) →
        own = [⟨p, [], []⟩]) ∧
      ∀ left now net, net.nodes = s.network.nodes →
        ((∃ t, { flow with remaining := left }.inject now ⟨net, []⟩ = .ok () t) ↔
          left = 0 ∨ ∀ ip mac, s.network.host? flow.source = some (ip, mac) →
            flow.payloadBytes ip ≤ Network.maxBytes) := by
  obtain ⟨turns, run, ended, few⟩ := exists_turns_of_run done
  have start : Stats.Sent s.network.stats [] s.network.stats.ofHosts :=
    (Stats.sent_refl past.tallies.ordered).of_hosts rfl
  have counted : Stats.Sent s.network.stats (turns.flatMap Turn.sent) after.network.stats :=
    (run.counted start).of_hosts rfl
  refine ⟨turns, _, _, run, rfl, ?host, ?unlike, ?succeeds⟩
  case host =>
    intro n ip mac found host family
    have completes := run.completes ended past.idle found host family waiting injects
    have parts : (((Turn.follow (some p) turns).1.flatMap Turn.sent) ++
        (Turn.follow (some p) turns).2.flatMap Turn.sent).Perm (turns.flatMap Turn.sent) := by
      rw [← List.flatMap_append]
      exact (Turn.follow_perm (some p) turns).flatMap_right _
    have under := Sending.under_perm parts n.name
    rw [Sending.under_append, Sending.under_of_own completes.sends.own_name] at under
    refine ⟨completes, ?numbers, ?frames, ?bytes⟩
    case numbers =>
      refine Sending.numbered_of_sublist (Nat.le_of_lt few) (.trans ?_ (run.numbers past.idle).1)
      exact ((Turn.follow_sublist (some p) turns).flatMap Turn.sent).map _
    case frames =>
      rw [counted.frames, ← under.length_eq, List.length_append, completes.sends.count, Nat.add_assoc]
    case bytes =>
      rw [counted.bytes, ← Sending.bytes_perm under, Sending.bytes_append, completes.sends.bytes_eq,
        Nat.add_assoc]
  case unlike =>
    intro unlike
    exact run.ends_at_once ended past.idle unlike waiting injects
  case succeeds =>
    intro left now net same
    rw [← Network.host?_of_nodes same]
    exact Activity.exists_inject_iff

/-- Two hosts at the ends of a link. -/
def crossing : NetworkSimulation :=
  let one := (Network.addHost "a" (.v4 (.ofNat 1)) Network.empty).2
  let both := (Network.addHost "b" (.v4 (.ofNat 2)) one).2
  match Network.connect 0 1 (.ofNanos 5) 8000000000 both with
  | .ok _ net => ⟨Scheduler.empty, net⟩
  | .error _ net => ⟨Scheduler.empty, net⟩

theorem reachable_crossing : Reachable crossing :=
  ((Reachable.initial.addHost "a" (.v4 (.ofNat 1))).addHost "b" (.v4 (.ofNat 2))).connect
    (show Network.connect 0 1 (.ofNanos 5) 8000000000 _ = .ok (1, 1) crossing.network from rfl)

/-- Three frames of 50 bytes to the second of two hosts. -/
def outbound : Flow := ⟨7, 0, .v4 (.ofNat 2), 50, 3, .ofNanos 10⟩

/-- Two frames the other way, as short as they can be. -/
def inbound : Flow := ⟨8, 1, .v4 (.ofNat 1), 0, 2, .ofNanos 4⟩

/-- Two hosts that send to one another. Among the turns of the other flow and five deliveries, the first one
takes three turns. -/
theorem injections_exact_crossing :
    ∃ s log p after own, Received s log ∧ p ∈ s.scheduler.queue ∧ p.event = .inject outbound ∧
      run s = .ok () after ∧
      (∃ turns others, Turns s.scheduler s.network turns after.scheduler after.network ∧
        Turn.follow (some p) turns = (own, others)) ∧
      outbound.Completes (.ofNanos 3) "a" (.v4 (.ofNat 1)) own ∧ own.length = 3 ∧
      ((own.flatMap Turn.sent).map (·.frame.uid)).Pairwise (· < ·) ∧
      (after.scheduler.executed, after.network.stats.host? "a", after.network.stats.host? "b") =
        (10, some ⟨3, 150, 2, 84⟩, some ⟨2, 84, 3, 150⟩) := by
  have first := reachable_crossing.inject (show schedule (.ofNanos 3) (.inject outbound) _ = .ok () _ from rfl)
  have both := first.inject (show schedule (.ofNanos 3) (.inject inbound) _ = .ok () _ from rfl)
  obtain ⟨_, _, recorded⟩ := both.recorded
  obtain ⟨log, past⟩ := recorded.received
  obtain ⟨after, done, -, seen⟩ := both.exists_run
    (a := (10, some ⟨3, 150, 2, 84⟩, some ⟨2, 84, 3, 150⟩))
    (fun after => (after.scheduler.executed, after.network.stats.host? "a",
      after.network.stats.host? "b")) (by decide +kernel)
  obtain ⟨turns, own, others, run, follows, exact, -⟩ := injections_exact past
    (p := ⟨.ofNanos 3, 0, .inject outbound⟩) List.mem_cons_self rfl done
  obtain ⟨completes, numbered, -⟩ := exact ⟨"a", .host (.v4 (.ofNat 1)) _, [0], false⟩ _ _ rfl rfl rfl
  exact ⟨_, log, _, after, own, past, List.mem_cons_self, rfl, done, ⟨turns, others, run, follows⟩,
    completes, completes.turns, numbered.ascending_iff.mpr (.inl fun n _ => Nat.zero_le n), seen⟩

/-- A frame with as large a payload as a flow can ask for, to an address of the other family. -/
def oversized : Flow := ⟨9, 0, .v6 (.ofNat 1), UInt64.size - 1, 1, .ofNanos 0⟩

/-- Numbers run out, and so does the memory. The first of two frames can have the largest number, and then the
second one has number zero. And a payload for which there is no memory fails even where no frame would be sent. -/
theorem injections_run_out :
    (∃ s log p after turns own others, Received s log ∧ p ∈ s.scheduler.queue ∧
      p.event = .inject inbound ∧ run s = .ok () after ∧
      Turns s.scheduler s.network turns after.scheduler after.network ∧
      Turn.follow (some p) turns = (own, others) ∧
      inbound.Completes (.ofNanos 3) "b" (.v4 (.ofNat 2)) own ∧
      (own.flatMap Turn.sent).map (·.frame.uid) = [UInt64.size - 1, 0] ∧
      ¬ ((own.flatMap Turn.sent).map (·.frame.uid)).Pairwise (· < ·)) ∧
    ∃ s log p after, Received s log ∧ p ∈ s.scheduler.queue ∧ p.event = .inject oversized ∧
      (∀ ip mac, s.network.host? oversized.source = some (ip, mac) →
        ip.isV4 ≠ oversized.destination.isV4) ∧
      run s = .error (.event (.payloadTooLong (UInt64.size - 43))) after := by
  constructor
  · have late := (reachable_crossing.withUid (.ofNat (UInt64.size - 1))).inject
      (show schedule (.ofNanos 3) (.inject inbound) _ = .ok () _ from rfl)
    obtain ⟨_, _, recorded⟩ := late.recorded
    obtain ⟨log, past⟩ := recorded.received
    obtain ⟨after, done, -, next⟩ := late.exists_run (a := 1) (·.network.nextUid) (by decide +kernel)
    obtain ⟨turns, run, ended, few⟩ := exists_turns_of_run done
    let p : Pending NetworkEvent := ⟨.ofNanos 3, 0, .inject inbound⟩
    have completes := run.completes (p := p) (n := ⟨"b", .host (.v4 (.ofNat 2)) _, [1], false⟩) ended
      past.idle rfl rfl rfl List.mem_cons_self (show p.event = .inject inbound from rfl)
    have own := (Turn.follow_sublist (some p) turns).flatMap Turn.sent
    obtain ⟨⟨mine, others⟩, follows⟩ : ∃ parts, Turn.follow (some p) turns = parts := ⟨_, rfl⟩
    rw [follows] at completes own
    -- two numbers are taken in the run, so the two frames have these
    have two := run.numbersTaken_eq past.idle few
    have inOrder := (run.numbers past.idle).1
    rw [two, next] at inOrder
    have numbers : (mine.flatMap Turn.sent).map (·.frame.uid) = [UInt64.size - 1, 0] := by
      refine ((own.map (·.frame.uid)).trans inOrder).eq_of_length ?_
      rw [List.length_map, completes.sends.count]
      rfl
    refine ⟨_, log, p, after, turns, mine, others, past, List.mem_cons_self, rfl, done, run, follows,
      completes, numbers, ?_⟩
    rw [numbers]
    decide
  · have asked := reachable_crossing.inject (show schedule .zero (.inject oversized) _ = .ok () _ from rfl)
    obtain ⟨_, _, recorded⟩ := asked.recorded
    obtain ⟨log, past⟩ := recorded.received
    refine ⟨_, log, ⟨.zero, 0, .inject oversized⟩, _, past, List.mem_cons_self, rfl, ?_, rfl⟩
    intro ip mac host
    cases host
    decide

end NetworkSimulation

end Switchyard
