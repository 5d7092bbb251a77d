import Switchyard.Network.Simulation
import Switchyard.Proofs.Network.Balance
import Switchyard.Proofs.Pipeline.Forwarding
import Switchyard.Proofs.Simulation.Run

/-!
# Conservation of frames

Between events, every frame that was sent is waiting to arrive, was lost at a port that is not
connected, or was received; the numbering that all switches share has numbered one packet for each
frame that they received; and no node is busy, so no arrival finds a busy node.
-/

namespace Switchyard

open Sequencing

namespace Scheduler

/-- The number of frames that wait to arrive. -/
def inFlight (s : Scheduler NetworkEvent) : Nat := s.queue.countP (·.event.isDelivery)

variable {s m : Scheduler NetworkEvent}

theorem inFlight_schedule (s : Scheduler NetworkEvent) (planned : Planned NetworkEvent) :
    (s.schedule planned).inFlight = s.inFlight + deliveries [planned] := by
  show List.countP _ ((s.pendingOf planned).insert s.queue) = _
  rw [((s.pendingOf planned).insert_perm s.queue).countP_eq, List.countP_cons, inFlight, deliveries,
    List.countP_singleton]
  rfl

theorem inFlight_scheduleAll (s : Scheduler NetworkEvent) (planned : List (Planned NetworkEvent)) :
    (s.scheduleAll planned).inFlight = s.inFlight + deliveries planned := by
  induction planned generalizing s with
  | nil => rfl
  | cons first rest ih =>
    have both : deliveries ([first] ++ rest) = deliveries [first] + deliveries rest :=
      List.countP_append
    rw [List.singleton_append] at both
    rw [scheduleAll_cons, ih, inFlight_schedule, both, Nat.add_assoc]

theorem inFlight_next? {isWanted : Time → Bool} {p : Pending NetworkEvent}
    (taken : s.next? isWanted = some (p, m)) :
    s.inFlight = m.inFlight + if p.event.isDelivery then 1 else 0 := by
  rw [inFlight, (next?_eq_some.mp taken).1, List.countP_cons, inFlight]

end Scheduler

/-- What holds of a network and the scheduler of its events while none is executed. -/
structure Balanced (s : Scheduler NetworkEvent) (net : Network) : Prop where
  conserved : net.stats.sent = net.stats.settled + s.inFlight
  numbered : ∀ id, net.NumbersBy id → (net.numberingOf id).packets = net.stats.switchReceived
  idle : ∀ n ∈ net.nodes, n.busy = false

namespace Balanced

variable {s m t : Scheduler NetworkEvent} {net net' : Network} {planned : List (Planned NetworkEvent)}

/-- Something that happens in a network keeps the balance if it raises the surplus by the frames that
have been taken from the queue for it. -/
theorem handled {up : Nat} {after : Activity} (balanced : Balanced s net)
    (taken : s.inFlight = m.inFlight + up)
    (handled : Activity.Handled up net.NumbersBy ⟨net, []⟩ after) :
    Balanced (m.scheduleAll after.planned) after.network where
  conserved := by
    have surplus := handled.surplus
    have before := balanced.conserved
    simp only [Activity.surplus, deliveries, List.countP_nil] at surplus
    rw [Scheduler.inFlight_scheduleAll, deliveries]
    omega
  numbered id all := by
    have same : net.NumbersBy id := by
      intro n mem
      exact all n (handled.nodes ▸ mem)
    have both := handled.numbered id same
    have before := balanced.numbered id same
    simp only at both
    omega
  idle n mem := balanced.idle n (handled.nodes ▸ mem)

theorem perform_eq_ok {op : ActivityM Unit} (done : net.perform op = .ok (net', planned)) :
    ∃ after, op ⟨net, []⟩ = .ok () after ∧ after.network = net' ∧ after.planned = planned := by
  unfold Network.perform at done
  split at done
  case h_1 u after happened =>
    cases done
    exact ⟨after, happened, rfl, rfl⟩
  case h_2 => cases done

theorem executes {isWanted : Time → Bool} {new ran : List (Pending NetworkEvent)}
    (balanced : Balanced s net)
    (run : Scheduler.Executes Network.behaviour isWanted s net new ran t net') : Balanced t net' := by
  induction run with
  | done => exact balanced
  | next taken executed _ ih =>
    obtain ⟨after, happened, rfl, rfl⟩ := perform_eq_ok executed
    have handled := Activity.activity_handled balanced.idle happened
    refine ih (balanced.handled (Scheduler.inFlight_next? taken) ?_)
    have cast : ∀ p : Bool, ((if p then 1 else 0 : Nat) : Int) = if p then 1 else 0 := by decide
    rw [cast]
    exact handled

/-- The clock does not matter. -/
theorem atTime (balanced : Balanced s net) (now : Time) : Balanced { s with now := now } net :=
  ⟨balanced.conserved, balanced.numbered, balanced.idle⟩

end Balanced

namespace Network

/-- A change to a network that has nothing to do with frames: no counter of frames and no number of
packets changes, no numbering goes out of use, and no node becomes busy. -/
structure Rebuilt (net net' : Network) : Prop where
  sent : net'.stats.sent = net.stats.sent
  settled : net'.stats.settled = net.stats.settled
  received : net'.stats.switchReceived = net.stats.switchReceived
  packets : ∀ id, (net'.numberingOf id).packets = (net.numberingOf id).packets
  numbersBy : ∀ id, net'.NumbersBy id → net.NumbersBy id
  idle : (∀ n ∈ net.nodes, n.busy = false) → ∀ n ∈ net'.nodes, n.busy = false

variable {net net' last : Network} {place : NodeId} {n n' : Node}

theorem Rebuilt.trans (first : Rebuilt net net') (second : Rebuilt net' last) : Rebuilt net last where
  sent := second.sent.trans first.sent
  settled := second.settled.trans first.settled
  received := second.received.trans first.received
  packets id := (second.packets id).trans (first.packets id)
  numbersBy id all := first.numbersBy id (second.numbersBy id all)
  idle all := second.idle (first.idle all)

theorem Rebuilt.balanced {s : Scheduler NetworkEvent} (rebuilt : Rebuilt net net')
    (balanced : Balanced s net) : Balanced s net' where
  conserved := by rw [rebuilt.sent, rebuilt.settled, balanced.conserved]
  numbered id all := by
    rw [rebuilt.packets, rebuilt.received, balanced.numbered id (rebuilt.numbersBy id all)]
  idle := rebuilt.idle balanced.idle

/-- A change that leaves the nodes, the statistics and the packet numbers. -/
theorem rebuilt_of_same (nodes : net'.nodes = net.nodes) (stats : net'.stats = net.stats)
    (packets : ∀ id, (net'.numberingOf id).packets = (net.numberingOf id).packets) :
    Rebuilt net net' where
  sent := by rw [stats]
  settled := by rw [stats]
  received := by rw [stats]
  packets := packets
  numbersBy id all n mem := all n (nodes ▸ mem)
  idle all n mem := all n (nodes ▸ mem)

theorem rebuilt_addNode (name : String) (kind : NodeKind) : Rebuilt net (addNode name kind net).2 where
  sent := rfl
  settled := rfl
  received := rfl
  packets id := by cases id <;> rfl
  numbersBy id all n mem := all n (List.mem_append_left _ mem)
  idle all n mem := by
    rcases List.mem_append.mp mem with mem | mem
    · exact all n mem
    · rw [List.mem_singleton.mp mem]

theorem rebuilt_addHost (name : String) (ip : IpAddr) : Rebuilt net (addHost name ip net).2 := by
  have none : ∀ h : HostStats, (id h).sentFrames = h.sentFrames + 0 := fun _ => rfl
  have listed : Rebuilt net { net with stats := net.stats.onHost name id } :=
    { sent := net.stats.sent_onHost name none
      settled := rfl
      received := rfl
      packets := fun id => by cases id <;> rfl
      numbersBy := fun _ all => all
      idle := fun all => all }
  exact listed.trans (rebuilt_addNode name _)

/-- Putting a node in the place of another that is as busy, and numbers its packets alike. -/
theorem rebuilt_setNode (found : net.node? place = some n) (busy : n'.busy = n.busy)
    (kind : ∀ id, n'.kind.NumbersBy id → n.kind.NumbersBy id) :
    Rebuilt net (net.setNode place n') where
  sent := rfl
  settled := rfl
  received := rfl
  packets id := by cases id <;> rfl
  numbersBy id all m mem := by
    obtain ⟨i, there⟩ := List.mem_iff_getElem?.mp mem
    by_cases same : place = i
    · subst same
      have same : n = m := Option.some.inj (found.symm.trans there)
      have bound := (List.getElem?_eq_some_iff.mp there).1
      exact same ▸ kind id (all n' (List.mem_set bound n'))
    · have kept : (net.nodes.set place n')[i]? = some m := by rw [List.getElem?_set_ne same, there]
      exact all m (List.mem_of_getElem? kept)
  idle all m mem := by
    rcases List.mem_or_eq_of_mem_set mem with mem | rfl
    · exact all m mem
    · rw [busy, all n (List.mem_of_getElem? found)]

theorem rebuilt_addPort (place : NodeId) (link : LinkId) : Rebuilt net (net.addPort place link) := by
  unfold addPort
  cases found : net.node? place with
  | none => exact rebuilt_of_same rfl rfl fun _ => rfl
  | some n => exact rebuilt_setNode found rfl fun _ own => own

theorem rebuilt_links (links : List Link) : Rebuilt net { net with links := links } :=
  rebuilt_of_same rfl rfl fun id => by cases id <;> rfl

theorem rebuilt_takeUid : Rebuilt net (takeUid net).2 :=
  rebuilt_of_same rfl rfl fun id => by cases id <;> rfl

theorem rebuilt_takeReports : Rebuilt net (takeReports net).2 :=
  rebuilt_of_same rfl rfl fun id => by cases id <;> rfl

/-- Connecting two nodes makes a pair of links, and a port of each node for the one that goes out. -/
theorem connect_eq_ok {a b : NodeId} {latency : Time} {bandwidth : Nat} {ports : Nat × Nat} :
    connect a b latency bandwidth net = .ok ports net' ↔
      ∃ na nb, net.node? a = some na ∧ net.node? b = some nb ∧
        ports = (na.ports.length + 1, nb.ports.length + 1) ∧
        net' = ({ net with
          links := net.links ++ [Link.new a b (nb.ports.length + 1) latency bandwidth,
            Link.new b a (na.ports.length + 1) latency bandwidth] }.addPort a
              net.links.length).addPort b (net.links.length + 1) := by
  constructor
  · intro done
    obtain ⟨na, foundA, afterA⟩ := (looksUp_requireNode a).bind_eq_ok.mp done
    obtain ⟨nb, foundB, afterB⟩ := (looksUp_requireNode b).bind_eq_ok.mp afterA
    have rest := get_bind_eq_ok.mp afterB
    have afterLinks := modify_bind_eq_ok.mp rest
    have last := modify_bind_eq_ok.mp afterLinks
    obtain ⟨same, rfl⟩ := state_pure_eq_ok.mp last
    exact ⟨na, nb, foundA, foundB, same.symm, rfl⟩
  · rintro ⟨na, nb, foundA, foundB, rfl, rfl⟩
    unfold connect
    rw [state_bind_of_ok ((looksUp_requireNode a).found foundA),
      state_bind_of_ok ((looksUp_requireNode b).found foundB)]
    rfl

theorem rebuilt_connect {a b : NodeId} {latency : Time} {bandwidth : Nat} {ports : Nat × Nat}
    (done : connect a b latency bandwidth net = .ok ports net') : Rebuilt net net' := by
  obtain ⟨na, nb, -, -, -, rfl⟩ := connect_eq_ok.mp done
  exact (rebuilt_links _).trans ((rebuilt_addPort a _).trans (rebuilt_addPort b _))

theorem numbersBy_setPipeline (n : Node) (pipeline : Pipeline) (id : NumberingId) :
    (n.setPipeline pipeline).kind.NumbersBy id ↔ n.kind.NumbersBy id := by
  unfold Node.setPipeline
  cases kind : n.kind with
  | host => simp only [kind]
  | switch => exact Iff.rfl

theorem busy_setPipeline (n : Node) (pipeline : Pipeline) :
    (n.setPipeline pipeline).busy = n.busy := by
  unfold Node.setPipeline
  cases n.kind <;> rfl

/-- A command puts another pipeline into a switch, whether it succeeds or not, or changes nothing. -/
theorem command_cases {line : String} {answer : Option Nat} {e : Error}
    (done : command place line net = .ok answer net' ∨ command place line net = .error e net') :
    net' = net ∨ ∃ n pipeline, net.node? place = some n ∧
      net' = net.setNode place (n.setPipeline pipeline) := by
  unfold command at done
  cases found : net.node? place with
  | none =>
    simp only [found] at done
    rcases done with done | done <;> cases done
    exact .inl rfl
  | some n =>
    cases reached : net.pipeline? place with
    | none =>
      simp only [found, reached] at done
      rcases done with done | done <;> cases done
      exact .inl rfl
    | some pipeline =>
      simp only [found, reached] at done
      cases ran : Pipeline.runLine line pipeline with
      | ok made after =>
        simp only [ran] at done
        rcases done with done | done <;> cases done
        exact .inr ⟨n, after, rfl, rfl⟩
      | error fault after =>
        simp only [ran] at done
        rcases done with done | done <;> cases done
        exact .inr ⟨n, after, rfl, rfl⟩

/-- A command changes the pipeline of a switch, whether it succeeds or not. -/
theorem rebuilt_command (place : NodeId) (line : String) {answer : Option Nat} {e : Error}
    (done : command place line net = .ok answer net' ∨ command place line net = .error e net') :
    Rebuilt net net' := by
  rcases command_cases done with rfl | ⟨n, pipeline, found, rfl⟩
  · exact rebuilt_of_same rfl rfl fun _ => rfl
  · exact rebuilt_setNode found (busy_setPipeline n pipeline) fun id =>
      (numbersBy_setPipeline n pipeline id).mp

end Network

/-- Making a pipeline numbers no packet. -/
theorem Pipeline.packets_new {program : Program} {controls : Controls} {config : PipelineConfig}
    {pipeline : Pipeline} {before after : Numbering}
    (made : new program controls config before = .ok pipeline after) :
    after.packets = before.packets := by
  obtain ⟨fields, -, rest⟩ := ofExcept_bind_eq_ok.mp made
  obtain ⟨port, m', took, last⟩ := state_bind_eq_ok.mp rest
  cases took
  obtain ⟨-, rfl⟩ := state_pure_eq_ok.mp last
  rfl

theorem Network.rebuilt_setNumbering {net : Network} {id : NumberingId} {numbering : Numbering}
    (same : numbering.packets = (net.numberingOf id).packets) :
    Rebuilt net (net.setNumbering id numbering) := by
  cases id with
  | shared =>
    refine rebuilt_of_same rfl rfl fun other => ?_
    cases other with
    | shared => exact same
    | other index => rfl
  | other index =>
    refine rebuilt_of_same rfl rfl fun other => ?_
    cases other with
    | shared => rfl
    | other i =>
      show (if i = index then numbering else net.otherNumberings i).packets =
        (net.otherNumberings i).packets
      split
      case isTrue here =>
        rw [here]
        exact same
      case isFalse => rfl

namespace NetworkSimulation

variable {s after : NetworkSimulation}

/-- The simulations that can be come to: a network is built, frames are sent from outside and flows
scheduled, events are executed one after another, and simulations run, in any order. A frame cannot
be made to arrive from outside. -/
inductive Reachable : NetworkSimulation → Prop where
  | initial : Reachable initial
  | addHost {s : NetworkSimulation} (before : Reachable s) (name : String) (ip : IpAddr) :
      Reachable { s with network := (Network.addHost name ip s.network).2 }
  | newPipeline {s : NetworkSimulation} {program : Program} {controls : Controls}
      {config : PipelineConfig} {pipeline : Pipeline} {numbering : Numbering}
      (before : Reachable s) (id : NumberingId)
      (made : Pipeline.new program controls config (s.network.numberingOf id) =
        .ok pipeline numbering) :
      Reachable { s with network := s.network.setNumbering id numbering }
  | addSwitch {s : NetworkSimulation} (before : Reachable s) (id : NumberingId) (name : String)
      (pipeline : Pipeline) :
      Reachable { s with network := (Network.addSwitchWith id name pipeline s.network).2 }
  | connect {s : NetworkSimulation} {a b : NodeId} {latency : Time} {bandwidth : Nat}
      {ports : Nat × Nat} {network : Network} (before : Reachable s)
      (done : Network.connect a b latency bandwidth s.network = .ok ports network) :
      Reachable { s with network := network }
  | command {s : NetworkSimulation} {answer : Option Nat} {e : Error} {network : Network}
      (before : Reachable s) (place : NodeId) (line : String)
      (done : Network.command place line s.network = .ok answer network ∨
        Network.command place line s.network = .error e network) :
      Reachable { s with network := network }
  | takeUid {s : NetworkSimulation} (before : Reachable s) :
      Reachable { s with network := (Network.takeUid s.network).2 }
  | takeReports {s : NetworkSimulation} (before : Reachable s) :
      Reachable { s with network := (Network.takeReports s.network).2 }
  | send {s after : NetworkSimulation} {node : NodeId} {frame : Frame} (before : Reachable s)
      (done : act (fun now => Activity.sendFromHost now node frame) s = .ok () after) :
      Reachable after
  | inject {s after : NetworkSimulation} {due : Time} {flow : Flow} (before : Reachable s)
      (done : schedule due (.inject flow) s = .ok () after) : Reachable after
  | events {s : NetworkSimulation} {isWanted : Time → Bool} {new ran : List (Pending NetworkEvent)}
      {t : Scheduler NetworkEvent} {network : Network} (before : Reachable s)
      (ran : Scheduler.Executes Network.behaviour isWanted s.scheduler s.network new ran t network) :
      Reachable ⟨t, network⟩
  | run {s after : NetworkSimulation} (before : Reachable s) (done : run s = .ok () after) :
      Reachable after
  | runUntil {s after : NetworkSimulation} (before : Reachable s) (limit : Time)
      (done : runUntil limit s = .ok () after) : Reachable after

/-- What a simulation comes to by a run. -/
theorem advance_eq_ok {result : Except (RunFault Fault) (Scheduler NetworkEvent × Network)}
    (done : advance result s = .ok () after) : result = .ok (after.scheduler, after.network) := by
  obtain ⟨⟨scheduler, network⟩, rfl, put⟩ := ofExcept_bind_eq_ok.mp done
  cases put
  rfl

/-- What was made to happen happened, and the events that it plans are scheduled. -/
theorem act_eq_ok {op : Time → ActivityM Unit} (done : act op s = .ok () after) :
    ∃ t, op s.scheduler.now ⟨s.network, []⟩ = .ok () t ∧
      after = ⟨s.scheduler.scheduleAll t.planned, t.network⟩ := by
  have rest := get_bind_eq_ok.mp done
  cases performed : s.network.perform (op s.scheduler.now) with
  | error fault =>
    simp only [performed] at rest
    cases rest
  | ok result =>
    simp only [performed] at rest
    cases rest
    obtain ⟨t, happened, network, planned⟩ := Balanced.perform_eq_ok performed
    exact ⟨t, happened, by rw [network, planned]⟩

theorem balanced_send {node : NodeId} {frame : Frame} (balanced : Balanced s.scheduler s.network)
    (done : act (fun now => Activity.sendFromHost now node frame) s = .ok () after) :
    Balanced after.scheduler after.network := by
  obtain ⟨sent, happened, rfl⟩ := act_eq_ok done
  have moved := Activity.moves_sendFromHost s.scheduler.now node frame happened
  exact balanced.handled rfl (Activity.Moved.handled moved)

theorem Reachable.balanced (reached : Reachable s) : Balanced s.scheduler s.network := by
  induction reached with
  | initial =>
    exact ⟨rfl, fun id _ => by cases id <;> rfl, fun n mem => by cases mem⟩
  | addHost _ name ip ih => exact (Network.rebuilt_addHost name ip).balanced ih
  | newPipeline _ id made ih =>
    exact (Network.rebuilt_setNumbering (Pipeline.packets_new made)).balanced ih
  | addSwitch _ id name pipeline ih => exact (Network.rebuilt_addNode name _).balanced ih
  | connect _ done ih => exact (Network.rebuilt_connect done).balanced ih
  | command _ place line done ih => exact (Network.rebuilt_command place line done).balanced ih
  | takeUid _ ih => exact Network.rebuilt_takeUid.balanced ih
  | takeReports _ ih => exact Network.rebuilt_takeReports.balanced ih
  | send _ done ih => exact balanced_send ih done
  | @inject s _ due flow _ done ih =>
    obtain rfl := modify_eq_ok.mp done
    have conserved := s.scheduler.inFlight_schedule ⟨due, .inject flow⟩
    exact ⟨by rw [conserved]; exact ih.conserved, ih.numbered, ih.idle⟩
  | events _ ran ih => exact ih.executes ran
  | run _ done ih =>
    have rest := get_bind_eq_ok.mp done
    obtain ⟨new, ran, executed, -⟩ := Scheduler.runWhile_eq_ok (advance_eq_ok rest)
    exact ih.executes executed
  | runUntil _ limit done ih =>
    have rest := get_bind_eq_ok.mp done
    obtain ⟨new, ran, last, executed, -, moved⟩ := Scheduler.runUntil_eq_ok (advance_eq_ok rest)
    rw [moved]
    exact (ih.executes executed).atTime _

/-- No frame is lost but at ports that are not connected, and none is received twice. All frames that
hosts and switches have sent are dropped there, wait to arrive, or were received by a host or a
switch; a numbering that all switches share has numbered as many packets as switches received
frames; and a node that a frame arrives at is free, and handles it. -/
theorem frames_conserved (reached : Reachable s) :
    HostStats.totalSent s.network.stats.hosts + s.network.stats.switchSent =
      s.network.stats.droppedNoPort + s.scheduler.inFlight + s.network.stats.deliveredFrames +
        s.network.stats.switchReceived ∧
    (∀ id, s.network.NumbersBy id →
      (s.network.numberingOf id).packets = s.network.stats.switchReceived) ∧
    ∀ now node port frame n, s.network.node? node = some n → n.busy = false ∧
      Activity.deliver now node port frame ⟨s.network, []⟩ =
        (do
          Activity.change (·.setBusy node true)
          Activity.handle now node n port frame
          Activity.change (·.setBusy node false) : ActivityM Unit) ⟨s.network, []⟩ := by
  obtain ⟨conserved, numbered, idle⟩ := reached.balanced
  refine ⟨?_, numbered, fun now node port frame n found => ?_⟩
  · simp only [Stats.sent, Stats.settled] at conserved
    omega
  · have free := idle n (List.mem_of_getElem? found)
    refine ⟨free, ?_⟩
    rw [Activity.deliver, state_bind_of_ok ((Activity.looksUp_requireNode node).found found),
      if_neg (by simp [free])]

/-- What can be seen of the end of a run from a simulation. -/
theorem Reachable.exists_run {α : Type} {a : α} (before : Reachable s)
    (look : NetworkSimulation → α)
    (seen : (match NetworkSimulation.run s with
      | .ok _ t => some (look t)
      | .error _ _ => none) = some a) :
    ∃ t, NetworkSimulation.run s = .ok () t ∧ Reachable t ∧ look t = a := by
  cases ended : NetworkSimulation.run s with
  | ok u t =>
    rw [ended] at seen
    exact ⟨t, rfl, before.run ended, Option.some.inj seen⟩
  | error e t =>
    rw [ended] at seen
    cases seen

/-- A hub that sends every frame by its first two ports, and by a third one a copy that it drops. -/
def hub? : Option Pipeline :=
  match Program.load Pipeline.hub with
  | .error _ => none
  | .ok program =>
    match Pipeline.new program Pipeline.hubControls .default .initial with
    | .ok pipeline _ => some { pipeline with plane := Pipeline.hubPlane }
    | .error _ _ => none

/-- One frame from one of two hosts at a hub. Both hosts receive a copy. -/
theorem frames_conserved_hub :
    ∃ pipeline s, hub? = some pipeline ∧ Reachable s ∧
      (HostStats.totalSent s.network.stats.hosts + s.network.stats.switchSent =
        s.network.stats.droppedNoPort + s.scheduler.inFlight + s.network.stats.deliveredFrames +
          s.network.stats.switchReceived ∧
      (∀ id, s.network.NumbersBy id →
        (s.network.numberingOf id).packets = s.network.stats.switchReceived) ∧
      ∀ now node port frame n, s.network.node? node = some n → n.busy = false ∧
        Activity.deliver now node port frame ⟨s.network, []⟩ =
          (do
            Activity.change (·.setBusy node true)
            Activity.handle now node n port frame
            Activity.change (·.setBusy node false) : ActivityM Unit) ⟨s.network, []⟩) ∧
      (s.network.stats.switchSent, s.network.stats.deliveredFrames,
        s.network.stats.switchReceived, s.network.numbering.packets) = (2, 2, 1, 1) := by
  have hosts := (Reachable.initial.addHost "a" (.v4 (.ofNat 1))).addHost "b" (.v4 (.ofNat 2))
  have placed := hosts.addSwitch .shared "hub" (hub?.get (by decide +kernel))
  have half := placed.connect (show Network.connect 0 2 (.ofNanos 5) 0 _ = .ok _ _ from rfl)
  have wired := half.connect (show Network.connect 1 2 (.ofNanos 5) 0 _ = .ok _ _ from rfl)
  have sent := wired.send (show act (fun now =>
    Activity.sendFromHost now 0 (Frame.ofBytes 0 [1, 2, 3])) _ = .ok () _ from rfl)
  obtain ⟨s, -, reached, seen⟩ := sent.exists_run (a := (2, 2, 1, 1))
    (fun s => (s.network.stats.switchSent, s.network.stats.deliveredFrames,
      s.network.stats.switchReceived, s.network.numbering.packets)) (by decide +kernel)
  exact ⟨_, s, rfl, reached, frames_conserved reached, seen⟩

end NetworkSimulation

end Switchyard
