import Mathlib.Algebra.Ring.Nat
import Switchyard.Network.Traffic
import Switchyard.Proofs.Sequencing

/-!
# The balance of an activity

Every frame that is sent is on the way, lost, or received. The surplus of an activity is how many
more frames have been accounted for than have been sent; each thing that happens in a network
changes it by a fixed amount. A delivery, which takes a frame that was on the way, raises it by one.
-/

namespace Switchyard

open Sequencing

namespace HostStats

/-- A count of all hosts together. -/
def total (count : HostStats → Nat) (hosts : List (String × HostStats)) : Nat :=
  (hosts.map (count ·.2)).sum

/-- A change that adds to the counts of one name adds as much to the total. -/
theorem total_update {count : HostStats → Nat} {change : HostStats → HostStats} {more : Nat}
    (zero : count zero = 0) (adds : ∀ h, count (change h) = count h + more) (name : String)
    (hosts : List (String × HostStats)) :
    total count (update name change hosts) = total count hosts + more := by
  unfold total
  induction hosts with
  | nil => simp [update, adds, zero]
  | cons first hosts ih =>
    unfold update
    split
    · simp only [List.map_cons, List.sum_cons, adds]
      omega
    · split
      · simp only [List.map_cons, List.sum_cons, adds, zero]
        omega
      · simp only [List.map_cons, List.sum_cons, ih]
        omega

/-- The frames that the hosts have sent. -/
def totalSent : List (String × HostStats) → Nat
  | [] => 0
  | (_, h) :: hosts => h.sentFrames + totalSent hosts

theorem totalSent_eq_total (hosts : List (String × HostStats)) :
    totalSent hosts = total (·.sentFrames) hosts := by
  induction hosts with
  | nil => rfl
  | cons first hosts ih =>
    rw [total, List.map_cons, List.sum_cons]
    exact congrArg (first.2.sentFrames + ·) ih

theorem totalSent_update (name : String) {change : HostStats → HostStats} {more : Nat}
    (adds : ∀ h, (change h).sentFrames = h.sentFrames + more) (hosts : List (String × HostStats)) :
    totalSent (update name change hosts) = totalSent hosts + more := by
  rw [totalSent_eq_total, totalSent_eq_total, total_update rfl adds]

end HostStats

namespace Stats

/-- The frames that hosts and switches have sent. -/
def sent (s : Stats) : Nat := HostStats.totalSent s.hosts + s.switchSent

/-- The frames that are on the way no more. -/
def settled (s : Stats) : Nat := s.droppedNoPort + s.deliveredFrames + s.switchReceived

theorem sent_onHost (s : Stats) (name : String) {change : HostStats → HostStats} {more : Nat}
    (adds : ∀ h, (change h).sentFrames = h.sentFrames + more) :
    (s.onHost name change).sent = s.sent + more := by
  simp only [sent, onHost, HostStats.totalSent_update name adds]
  omega

end Stats

theorem Network.looksUp_requireNode (id : NodeId) :
    LooksUp (·.node? id) (.noSuchNode id) (requireNode id) :=
  .of_get (fun _ _ there => by simp only [there]) fun _ there => by simp only [there]

/-- Is the event the arrival of a frame? -/
def NetworkEvent.isDelivery : NetworkEvent → Bool
  | deliver _ _ _ => true
  | inject _ => false

/-- The number of arrivals among planned events. -/
def deliveries (planned : List (Planned NetworkEvent)) : Nat :=
  planned.countP (·.event.isDelivery)

/-- The rest of a flow when a frame is sent: it goes on after the gap, if anything is left. -/
def Flow.following (flow : Flow) (now : Time) (left : Nat) : List (Planned NetworkEvent) :=
  if 0 < left then [⟨now + flow.gap, .inject { flow with remaining := left }⟩] else []

namespace Activity

/-- How many more frames are accounted for than have been sent. -/
def surplus (s : Activity) : Int :=
  (s.network.stats.settled + deliveries s.planned : Nat) - (s.network.stats.sent : Nat)

/-- Something happened that switches take no notice of, and that raised the surplus by `up`. -/
structure Moved (up : Int) (s t : Activity) : Prop where
  nodes : t.network.nodes = s.network.nodes
  numbering : ∀ id, t.network.numberingOf id = s.network.numberingOf id
  received : t.network.stats.switchReceived = s.network.stats.switchReceived
  surplus : t.surplus = s.surplus + up

/-- An operation after which only that has happened. -/
def Moves {α : Type} (up : Int) (op : ActivityM α) : Prop :=
  ∀ ⦃s a t⦄, op s = .ok a t → Moved up s t

variable {α β : Type} {up more : Int} {s t m : Activity} {x : ActivityM α} {f : α → ActivityM β}

theorem Moved.refl (s : Activity) : Moved 0 s s := ⟨rfl, fun _ => rfl, rfl, by simp⟩

theorem Moved.trans (first : Moved up s m) (second : Moved more m t) : Moved (up + more) s t where
  nodes := second.nodes.trans first.nodes
  numbering id := (second.numbering id).trans (first.numbering id)
  received := second.received.trans first.received
  surplus := by rw [second.surplus, first.surplus, Int.add_assoc]

theorem Moves.bind (first : Moves up x) (second : ∀ a, Moves more (f a)) :
    Moves (up + more) (x >>= f) := by
  intro s b t done
  obtain ⟨a, m, mid, last⟩ := state_bind_eq_ok.mp done
  exact (first mid).trans (second a last)

theorem moves_of_looksOnly (looks : LooksOnly x) : Moves 0 x := by
  intro s a t done
  obtain rfl := (looks s).1 a t done
  exact .refl t

/-- What comes first does not count if it changes nothing. -/
theorem Moves.after (still : Moves 0 x) (rest : ∀ a, Moves up (f a)) : Moves up (x >>= f) := by
  have all := still.bind rest
  rwa [Int.zero_add] at all

/-- Counting in the statistics. -/
theorem moves_count {counted : Stats → Stats}
    (received : ∀ stats, (counted stats).switchReceived = stats.switchReceived)
    (raised : ∀ stats, ((counted stats).settled : Int) - (counted stats).sent =
      stats.settled - stats.sent + up) : Moves up (count counted) := by
  intro s a t done
  obtain rfl := modify_eq_ok.mp done
  refine ⟨rfl, fun id => by cases id <;> rfl, received _, ?_⟩
  have := raised s.network.stats
  simp only [surplus, Int.natCast_add]
  omega

theorem moves_plan (due : Time) (event : NetworkEvent) :
    Moves (if event.isDelivery then 1 else 0) (plan due event) := by
  intro s a t done
  obtain rfl := modify_eq_ok.mp done
  refine ⟨rfl, fun _ => rfl, rfl, ?_⟩
  simp only [surplus, deliveries, List.countP_append, List.countP_singleton]
  split
  · simp; omega
  · simp

theorem moves_links (f : Network → List Link) :
    Moves 0 (change fun net => { net with links := f net }) := by
  intro s a t done
  obtain rfl := modify_eq_ok.mp done
  exact ⟨rfl, fun id => by cases id <;> rfl, rfl, by simp [surplus]⟩

theorem looksUp_requireNode (id : NodeId) :
    LooksUp (·.network.node? id) (.noSuchNode id) (onNetwork (Network.requireNode id)) where
  found there := by rw [onNetwork, (Network.looksUp_requireNode id).found there]
  missing there := by rw [onNetwork, (Network.looksUp_requireNode id).missing there]

theorem moves_requireNode (id : NodeId) : Moves 0 (onNetwork (Network.requireNode id)) :=
  moves_of_looksOnly (looksUp_requireNode id).looksOnly

theorem moves_outgoing (node : NodeId) (port : Nat) : Moves 0 (outgoing node port) := by
  unfold outgoing
  split
  · exact moves_of_looksOnly (looksOnly_pure _)
  · exact (moves_requireNode node).after fun _ => moves_of_looksOnly (looksOnly_pure _)

/-- A frame that is sent by a port is lost or on its way. -/
theorem moves_transmit (now : Time) (node : NodeId) (port : Nat) (frame : Frame) :
    Moves 1 (transmit now node port frame) := by
  refine (moves_outgoing node port).after fun link => ?_
  cases link with
  | none =>
    refine moves_count (fun _ => rfl) fun stats => ?_
    simp only [Stats.settled, Stats.sent, Stats.countDropped]
    omega
  | some id =>
    refine (moves_of_looksOnly looksOnly_get).after fun s => ?_
    exact (moves_links _).bind fun _ => moves_plan _ _

theorem moves_sendFromHost (now : Time) (node : NodeId) (frame : Frame) :
    Moves 0 (sendFromHost now node frame) := by
  refine (moves_requireNode node).after fun n => ?_
  have counted : Moves (-1) (count (·.onHost n.name (·.countSent frame.length))) := by
    refine moves_count (fun _ => rfl) fun stats => ?_
    have one : ∀ h : HostStats, (h.countSent frame.length).sentFrames = h.sentFrames + 1 :=
      fun _ => rfl
    rw [Stats.sent_onHost stats n.name one]
    simp only [Stats.settled, Stats.onHost]
    omega
  exact counted.bind fun _ => moves_transmit now node 1 frame

theorem moves_countLatency (now : Time) (frame : Frame) : Moves 0 (countLatency now frame) := by
  unfold countLatency
  cases frame.sent? with
  | none => exact moves_of_looksOnly (looksOnly_pure _)
  | some sent =>
    have counted : Moves 0 (count (·.countLatency (now.toNat - sent.toNat))) :=
      moves_count (fun _ => rfl) fun stats => by simp [Stats.settled, Stats.sent, Stats.countLatency]
    have checked : LooksOnly (do
        if Time.maxNanos < (← get).network.stats.totalLatency then throw .latencyOverflow :
        ActivityM Unit) := by
      refine looksOnly_get.bind fun s => ?_
      split
      · exact looksOnly_throw _
      · exact looksOnly_pure _
    exact counted.bind fun _ => moves_of_looksOnly checked

theorem moves_receive (now : Time) (name : String) (frame : Frame) :
    Moves 1 (receive now name frame) := by
  have counted : Moves 1 (count (·.countDelivered name frame.length)) := by
    refine moves_count (fun _ => rfl) fun stats => ?_
    have none : ∀ h : HostStats, (h.countReceived frame.length).sentFrames = h.sentFrames + 0 :=
      fun _ => rfl
    rw [Stats.countDelivered, Stats.sent_onHost _ name none]
    simp only [Stats.settled, Stats.onHost, Stats.sent]
    omega
  exact counted.bind fun _ => moves_countLatency now frame

theorem moves_emit (now : Time) (node : NodeId) (e : Emission) : Moves 0 (emit now node e) := by
  have counted : Moves (-1) (count Stats.countSwitchSent) := by
    refine moves_count (fun _ => rfl) fun stats => ?_
    simp only [Stats.settled, Stats.sent, Stats.countSwitchSent]
    omega
  exact counted.bind fun _ => moves_transmit now node e.port e.frame

theorem moves_emitAll (now : Time) (node : NodeId) (emissions : List Emission) :
    Moves 0 (emissions.forM (emit now node)) :=
  forM_of_bind (moves_of_looksOnly (looksOnly_pure _)) (fun first second => first.bind fun _ => second)
    (moves_emit now node)

/-! ### Nodes -/

/-- A packet takes one number, whatever becomes of it. -/
theorem packets_process {pipeline : Pipeline} {frame : Frame} {port : Nat} {now : Time}
    {before after : Numbering} {outcome : Outcome}
    (done : pipeline.process frame port now before = .ok outcome after) :
    after.packets = before.packets + 1 := by
  obtain ⟨id, taken, took, rest⟩ := state_bind_eq_ok.mp done
  cases took
  obtain ⟨-, rfl⟩ := ofExcept_eq_ok.mp rest
  rfl

/-- A pipeline changes nothing but the reports and the numbering that it uses. -/
theorem process_eq_ok {now : Time} {name : String} {pipeline : Pipeline} {id : NumberingId}
    {port : Nat} {frame : Frame} {emissions : List Emission}
    (done : process now name pipeline id port frame s = .ok emissions t) :
    t.network.nodes = s.network.nodes ∧ t.network.stats = s.network.stats ∧
      t.planned = s.planned ∧ t.network.nextUid = s.network.nextUid ∧
      (t.network.numberingOf id).packets = (s.network.numberingOf id).packets + 1 := by
  have rest := get_bind_eq_ok.mp done
  cases processed : pipeline.process frame port now (s.network.numberingOf id) with
  | error e numbering =>
    simp only [processed] at rest
    cases rest
  | ok outcome numbering =>
    simp only [processed] at rest
    have last := modify_bind_eq_ok.mp rest
    obtain ⟨-, rfl⟩ := state_pure_eq_ok.mp last
    rw [← packets_process processed]
    cases id with
    | shared => exact ⟨rfl, rfl, rfl, rfl, rfl⟩
    | other index => exact ⟨rfl, rfl, rfl, rfl, congrArg Numbering.packets (if_pos rfl)⟩

end Activity

/-- The node is no switch, or one with the numbering. -/
def NodeKind.NumbersBy (id : NumberingId) : NodeKind → Prop
  | host _ _ => True
  | switch _ own => own = id

/-- All switches have the numbering. -/
def Network.NumbersBy (net : Network) (id : NumberingId) : Prop :=
  ∀ n ∈ net.nodes, n.kind.NumbersBy id

theorem Network.host?_of_node? {net : Network} {id : NodeId} {n : Node} {ip : IpAddr} {mac : MacAddr}
    (found : net.node? id = some n) (host : n.host? = some (ip, mac)) :
    net.host? id = some (ip, mac) := by
  rw [host?, found, Option.bind_some, host]

theorem Network.host?_of_nodes {net net' : Network} (same : net'.nodes = net.nodes) (id : NodeId) :
    net'.host? id = net.host? id := by
  rw [host?, node?, same, host?, node?]

namespace Activity

variable {α : Type} {up : Int} {s t : Activity} {numbersBy : NumberingId → Prop}

/-- What happened left the nodes as they were and raised the surplus by `up`; a numbering that is the
only one used has numbered as many packets as switches received. -/
structure Handled (up : Int) (numbersBy : NumberingId → Prop) (s t : Activity) : Prop where
  nodes : t.network.nodes = s.network.nodes
  surplus : t.surplus = s.surplus + up
  numbered : ∀ id, numbersBy id →
    (t.network.numberingOf id).packets + s.network.stats.switchReceived =
      (s.network.numberingOf id).packets + t.network.stats.switchReceived

theorem Moved.handled (moved : Moved up s t) : Handled up numbersBy s t where
  nodes := moved.nodes
  surplus := moved.surplus
  numbered id _ := by rw [moved.numbering id, moved.received]

theorem forward_handled {now : Time} {node : NodeId} {name : String} {pipeline : Pipeline}
    {own : NumberingId} {port : Nat} {frame : Frame} {u : Unit}
    (done : forward now node name pipeline own port frame s = .ok u t) :
    Handled 1 (own = ·) s t := by
  have rest := modify_bind_eq_ok.mp done
  obtain ⟨emissions, processed, process, rest⟩ := state_bind_eq_ok.mp rest
  obtain ⟨nodes, stats, planned, -, packets⟩ := process_eq_ok process
  have moved := moves_emitAll now node emissions rest
  constructor
  case nodes => exact moved.nodes.trans nodes
  case surplus =>
    rw [moved.surplus, surplus, stats, planned]
    simp only [surplus, Stats.settled, Stats.sent, Stats.countSwitchReceived]
    omega
  case numbered =>
    rintro id rfl
    rw [moved.numbering, moved.received, packets, stats]
    exact Nat.succ_add_eq_add_succ _ _

theorem handle_handled {now : Time} {node : NodeId} {n : Node} {port : Nat} {frame : Frame} {u : Unit}
    (done : handle now node n port frame s = .ok u t) :
    Handled 1 n.kind.NumbersBy s t := by
  cases kind : n.kind with
  | host ip mac =>
    simp only [handle, kind] at done
    exact (moves_receive now n.name frame done).handled
  | switch pipeline own =>
    simp only [handle, kind] at done
    exact forward_handled done

end Activity

/-- Marking a node changes nothing else. -/
theorem Network.setBusy_eq {net : Network} {id : NodeId} {n : Node} (found : net.node? id = some n)
    (busy : Bool) :
    net.setBusy id busy = { net with nodes := net.nodes.set id { n with busy := busy } } := by
  rw [setBusy, found]
  rfl

namespace Activity

/-- A node that is marked free after it was marked busy is as it was, if it was free. -/
theorem set_busy_free {nodes : List Node} {id : NodeId} {n : Node} (found : nodes[id]? = some n)
    (idle : n.busy = false) :
    (nodes.set id { n with busy := true }).set id { n with busy := false } = nodes := by
  have same : { n with busy := false } = n := by rw [← idle]
  obtain ⟨bound, rfl⟩ := List.getElem?_eq_some_iff.mp found
  rw [List.set_set, same, List.set_getElem_self]

/-- A delivery to a free node is handled by it, and leaves the nodes as they were. -/
theorem deliver_handled {now : Time} {node : NodeId} {port : Nat} {frame : Frame} {u : Unit}
    (idle : ∀ n ∈ s.network.nodes, n.busy = false)
    (done : deliver now node port frame s = .ok u t) :
    Handled 1 s.network.NumbersBy s t := by
  obtain ⟨n, found, rest⟩ := (looksUp_requireNode node).bind_eq_ok.mp done
  have mem : n ∈ s.network.nodes := List.mem_of_getElem? found
  rw [if_neg (by simp [idle n mem])] at rest
  replace rest := modify_bind_eq_ok.mp rest
  obtain ⟨_, handled, handle, rest⟩ := state_bind_eq_ok.mp rest
  obtain rfl := modify_eq_ok.mp rest
  have work := handle_handled handle
  simp only [Network.setBusy_eq found] at work
  have still : handled.network.node? node = some { n with busy := true } := by
    rw [Network.node?, work.nodes]
    exact List.getElem?_set_self (List.getElem?_eq_some_iff.mp found).1
  simp only [Network.setBusy_eq still]
  constructor
  case nodes =>
    show handled.network.nodes.set node { n with busy := false } = s.network.nodes
    rw [work.nodes]
    exact set_busy_free found (idle n mem)
  case surplus => exact work.surplus
  case numbered =>
    intro id all
    have own := work.numbered id (all n mem)
    cases id <;> exact own

/-- What an injection comes to. A flow with nothing left, or whose source is no host, does nothing. Between
addresses of different families a number is used up. Otherwise a frame is sent under that number, and the
rest of the flow is planned. -/
inductive Injects (flow : Flow) (now : Time) (s : Activity) : Option Frame → Activity → Prop where
  | exhausted (nothing : flow.remaining = 0) : Injects flow now s none s
  | noHost (missing : s.network.host? flow.source = none) : Injects flow now s none s
  | mixed {left : Nat} {ip : IpAddr} {mac : MacAddr} (more : flow.remaining = left + 1)
      (host : s.network.host? flow.source = some (ip, mac))
      (unlike : flow.nextFrame? now s.network.nextUid.toNat ip mac (Network.takeUid s.network).2 = none) :
      Injects flow now s none { s with network := (Network.takeUid s.network).2 }
  | sends {left : Nat} {ip : IpAddr} {mac : MacAddr} {frame : Frame} {m : Activity}
      (more : flow.remaining = left + 1) (host : s.network.host? flow.source = some (ip, mac))
      (next : flow.nextFrame? now s.network.nextUid.toNat ip mac (Network.takeUid s.network).2 = some frame)
      (sent : sendFromHost now flow.source frame
        { s with network := (Network.takeUid s.network).2 } = .ok () m) :
      Injects flow now s (some frame) { m with planned := m.planned ++ flow.following now left }

theorem injects_of_ok {flow : Flow} {now : Time} {u : Unit} (done : flow.inject now s = .ok u t) :
    ∃ frame, Injects flow now s frame t := by
  have rest := get_bind_eq_ok.mp done
  cases left : flow.remaining with
  | zero =>
    simp only [left] at rest
    obtain ⟨-, rfl⟩ := state_pure_eq_ok.mp rest
    exact ⟨none, .exhausted left⟩
  | succ left' =>
    cases host : s.network.host? flow.source with
    | none =>
      simp only [left, host] at rest
      obtain ⟨-, rfl⟩ := state_pure_eq_ok.mp rest
      exact ⟨none, .noHost host⟩
    | some address =>
      simp only [left, host] at rest
      split at rest
      · cases rest
      replace rest := modify_bind_eq_ok.mp rest
      cases next : flow.nextFrame? now s.network.nextUid.toNat address.1 address.2
          { s.network with nextUid := s.network.nextUid + 1 } with
      | none =>
        simp only [next] at rest
        obtain ⟨-, rfl⟩ := state_pure_eq_ok.mp rest
        exact ⟨none, .mixed left host next⟩
      | some frame =>
        simp only [next] at rest
        obtain ⟨_, m, sent, rest⟩ := state_bind_eq_ok.mp rest
        have does := Injects.sends left host next sent
        unfold Flow.following at does
        split at rest
        case isTrue another =>
          obtain rfl := modify_eq_ok.mp rest
          rw [if_pos another] at does
          exact ⟨_, does⟩
        case isFalse last =>
          obtain ⟨-, rfl⟩ := state_pure_eq_ok.mp rest
          rw [if_neg last, List.append_nil] at does
          exact ⟨_, does⟩

/-- An injection does nothing, uses up a number, or sends a frame under it, with the next injection planned or
not. -/
theorem inject_eq_ok {flow : Flow} {now : Time} {u : Unit} (done : flow.inject now s = .ok u t) :
    t = s ∨ t = { s with network := (Network.takeUid s.network).2 } ∨
      ∃ frame m, sendFromHost now flow.source frame
          { s with network := (Network.takeUid s.network).2 } = .ok () m ∧
        (t = m ∨ ∃ due next, plan due (.inject next) m = .ok () t) := by
  obtain ⟨_, does⟩ := injects_of_ok done
  cases does with
  | exhausted => exact .inl rfl
  | noHost => exact .inl rfl
  | mixed => exact .inr (.inl rfl)
  | @sends _ _ _ frame m _ _ _ sent =>
    refine .inr (.inr ⟨frame, m, sent, ?_⟩)
    unfold Flow.following
    split
    · exact .inr ⟨_, _, rfl⟩
    · exact .inl (by rw [List.append_nil])

/-- A flow sends what it accounts for. -/
theorem moves_inject (flow : Flow) (now : Time) : Moves 0 (flow.inject now) := by
  intro s u t done
  have numbered : Moved 0 s { s with network := (Network.takeUid s.network).2 } :=
    ⟨rfl, fun id => by cases id <;> rfl, rfl, by simp [surplus, Network.takeUid]⟩
  rcases inject_eq_ok done with rfl | rfl | ⟨frame, m, send, rfl | ⟨due, next, planned⟩⟩
  · exact .refl _
  · exact numbered
  · have all := numbered.trans (moves_sendFromHost now flow.source frame send)
    rwa [Int.add_zero] at all
  · have all := (numbered.trans (moves_sendFromHost now flow.source frame send)).trans
      (moves_plan due (.inject next) planned)
    simpa [NetworkEvent.isDelivery] using all

/-- An event leaves the nodes as they were, if they are free; an arrival raises the surplus by the
frame that is no longer on its way. -/
theorem activity_handled {now : Time} {event : NetworkEvent} {u : Unit}
    (idle : ∀ n ∈ s.network.nodes, n.busy = false) (done : event.activity now s = .ok u t) :
    Handled (if event.isDelivery then 1 else 0) s.network.NumbersBy s t := by
  cases event with
  | deliver node port frame => exact deliver_handled idle done
  | inject flow => exact (moves_inject flow now done).handled

end Activity

end Switchyard
