import Switchyard.Proofs.Network.Execution
import Switchyard.Proofs.Network.LinkOrder

/-!
# Ports

The wiring of a network is which link goes out from each port, and at which port each link comes in.
Traffic leaves the wiring alone, and building a network only adds to it. So where a frame goes that is sent
by a port was settled when the port was made. The ports of a node are numbered from one in the order in
which they are made; a connection of two nodes makes the two ports that it answers, and frames go both
ways between them. A node that is connected to itself gets two ports as well, but both links lead to the
first of them, and the second one is not answered.
-/

namespace Switchyard

open Sequencing

/-- A port of a node. -/
abbrev Endpoint := NodeId × Nat

/-- The links that go out from the ports of each node, and the port at which each link comes in. -/
structure Wiring where
  ports : List (List LinkId)
  ends : List Endpoint

namespace Wiring

/-- Where the link that goes out from a port comes in. -/
def leadsTo? (w : Wiring) (x : Endpoint) : Option Endpoint :=
  if x.2 = 0 then none else (w.ports[x.1]?.bind (·[x.2 - 1]?)).bind (w.ends[·]?)

/-- The number of ports of a node; there are none where there is no node. -/
def portCount (w : Wiring) (v : NodeId) : Nat := (w.ports[v]?.map (·.length)).getD 0

def addNode (w : Wiring) : Wiring := { w with ports := w.ports ++ [[]] }

def addLinks (w : Wiring) (ends : List Endpoint) : Wiring := { w with ends := w.ends ++ ends }

def addPort (w : Wiring) (v : NodeId) (link : LinkId) : Wiring :=
  { w with ports := w.ports.modify v (· ++ [link]) }

/-- Two links, which come in at the ports behind those that there are, and a port for the first of them. -/
def joinOut (w : Wiring) (a b : NodeId) : Wiring :=
  (w.addLinks [(b, w.portCount b + 1), (a, w.portCount a + 1)]).addPort a w.ends.length

/-- Two links with a port for each of them. -/
def join (w : Wiring) (a b : NodeId) : Wiring := (w.joinOut a b).addPort b (w.ends.length + 1)

/-- Nothing is taken away, and nothing is put in front. -/
structure Grows (w w' : Wiring) : Prop where
  ports : ∀ {v : NodeId} {links : List LinkId}, w.ports[v]? = some links →
    ∃ more, w'.ports[v]? = some (links ++ more)
  ends : ∃ more, w'.ends = w.ends ++ more

variable {w w' w'' : Wiring} {a b v u : NodeId} {link : LinkId} {x y : Endpoint}

theorem Grows.trans (first : w.Grows w') (second : w'.Grows w'') : w.Grows w'' := by
  obtain ⟨more, ends⟩ := first.ends
  obtain ⟨rest, further⟩ := second.ends
  refine ⟨fun found => ?_, more ++ rest, by rw [further, ends, List.append_assoc]⟩
  obtain ⟨new, found⟩ := first.ports found
  obtain ⟨newer, found⟩ := second.ports found
  exact ⟨new ++ newer, by rw [found, List.append_assoc]⟩

/-- A port that leads somewhere leads there for good. -/
theorem Grows.leadsTo? (grows : w.Grows w') (leads : w.leadsTo? x = some y) :
    w'.leadsTo? x = some y := by
  unfold Wiring.leadsTo? at leads ⊢
  split at leads
  case isTrue => cases leads
  case isFalse positive =>
    obtain ⟨link, connected, comesIn⟩ := Option.bind_eq_some_iff.mp leads
    obtain ⟨links, found, there⟩ := Option.bind_eq_some_iff.mp connected
    obtain ⟨new, grown⟩ := grows.ports found
    obtain ⟨more, ends⟩ := grows.ends
    have old : (links ++ new)[x.2 - 1]? = some link := by
      rw [List.getElem?_append_left (List.getElem?_eq_some_iff.mp there).1, there]
    have same : w'.ends[link]? = some y := by
      rw [ends, List.getElem?_append_left (List.getElem?_eq_some_iff.mp comesIn).1, comesIn]
    rw [if_neg positive, grown, Option.bind_some, old, Option.bind_some, same]

theorem grows_addNode (w : Wiring) : w.Grows w.addNode := by
  refine ⟨fun {v links} found => ⟨[], ?_⟩, [], (List.append_nil _).symm⟩
  rw [addNode, List.getElem?_append_left (List.getElem?_eq_some_iff.mp found).1, found,
    List.append_nil]

theorem grows_addLinks (w : Wiring) (ends : List Endpoint) : w.Grows (w.addLinks ends) :=
  ⟨fun {_ links} found => ⟨[], by rw [List.append_nil]; exact found⟩, ends, rfl⟩

theorem getElem?_addPort : (w.addPort v link).ports[u]? =
    if u = v then w.ports[u]?.map (· ++ [link]) else w.ports[u]? := by
  rw [addPort, List.getElem?_modify]
  by_cases same : v = u
  · simp [same]
  · simp [same, Ne.symm same]

theorem grows_addPort (w : Wiring) (v : NodeId) (link : LinkId) : w.Grows (w.addPort v link) := by
  refine ⟨fun {u links} found => ?_, [], (List.append_nil _).symm⟩
  rw [getElem?_addPort, found]
  split
  · exact ⟨[link], rfl⟩
  · exact ⟨[], by rw [List.append_nil]⟩

theorem portCount_addNode : w.addNode.portCount u = w.portCount u := by
  unfold portCount addNode
  rcases Nat.lt_trichotomy u w.ports.length with old | rfl | beyond
  · rw [List.getElem?_append_left old]
  · simp
  · rw [List.getElem?_eq_none (by simp; omega), List.getElem?_eq_none (by omega)]

theorem portCount_addPort (there : v < w.ports.length) :
    (w.addPort v link).portCount u = w.portCount u + if u = v then 1 else 0 := by
  unfold portCount
  rw [getElem?_addPort]
  split
  case isTrue same =>
    rw [same, List.getElem?_eq_getElem there]
    simp
  case isFalse => rfl

/-- The port that is added leads where its link does. -/
theorem leadsTo?_addPort (there : v < w.ports.length) :
    (w.addPort v link).leadsTo? (v, w.portCount v + 1) = w.ends[link]? := by
  have found := List.getElem?_eq_getElem there
  unfold leadsTo? portCount
  rw [if_neg (Nat.succ_ne_zero _), getElem?_addPort, if_pos rfl, found]
  simp [addPort]

theorem grows_joinOut (w : Wiring) (a b : NodeId) : w.Grows (w.joinOut a b) :=
  (grows_addLinks w _).trans (grows_addPort _ a _)

theorem grows_join (w : Wiring) (a b : NodeId) : w.Grows (w.join a b) :=
  (grows_joinOut w a b).trans (grows_addPort _ b _)

theorem length_joinOut : (w.joinOut a b).ports.length = w.ports.length :=
  List.length_modify _ _ _

theorem portCount_joinOut (thereA : a < w.ports.length) :
    (w.joinOut a b).portCount v = w.portCount v + if v = a then 1 else 0 := by
  unfold joinOut
  exact portCount_addPort thereA

theorem portCount_join (thereA : a < w.ports.length) (thereB : b < w.ports.length) :
    (w.join a b).portCount v = w.portCount v + ((if v = a then 1 else 0) + if v = b then 1 else 0) := by
  rw [join, portCount_addPort (length_joinOut.symm ▸ thereB), portCount_joinOut thereA, Nat.add_assoc]

/-- The new port of the first node leads to the port behind those of the second. -/
theorem leadsTo?_join (thereA : a < w.ports.length) :
    (w.join a b).leadsTo? (a, w.portCount a + 1) = some (b, w.portCount b + 1) := by
  have out : (w.joinOut a b).leadsTo? (a, w.portCount a + 1) = some (b, w.portCount b + 1) := by
    refine (leadsTo?_addPort (w := w.addLinks _) thereA).trans ?_
    simp [addLinks]
  exact (grows_addPort _ b _).leadsTo? out

/-- The new port of the second node leads to the port behind those of the first. If both are one node, that
port has just been made, and the new one comes behind it. -/
theorem leadsTo?_join_back (thereA : a < w.ports.length) (thereB : b < w.ports.length) :
    (w.join a b).leadsTo? (b, if a = b then w.portCount b + 2 else w.portCount b + 1) =
      some (a, w.portCount a + 1) := by
  have number : (if a = b then w.portCount b + 2 else w.portCount b + 1) =
      (w.joinOut a b).portCount b + 1 := by
    rw [portCount_joinOut thereA]
    by_cases same : a = b
    · rw [if_pos same, if_pos same.symm]
    · rw [if_neg same, if_neg (Ne.symm same)]
  rw [number]
  refine (leadsTo?_addPort (length_joinOut.symm ▸ thereB)).trans ?_
  simp [joinOut, addPort, addLinks]

end Wiring

/-! ## The wiring of a network -/

/-- The wiring of a network. -/
def Network.wiring (net : Network) : Wiring :=
  ⟨net.nodes.map (·.ports), net.links.map fun link => (link.target, link.targetPort)⟩

namespace Activity

variable {now : Time} {s t : Activity} {log : List (Option Transmission)} {x y : Endpoint} {frame : Frame}

theorem wiring_set {net : Network} {place : LinkId} {link busy : Link}
    (there : net.links[place]? = some link) (target : busy.target = link.target)
    (targetPort : busy.targetPort = link.targetPort) :
    { net with links := net.links.set place busy }.wiring = net.wiring := by
  have same : (net.links.set place busy).map (fun link => (link.target, link.targetPort)) =
      net.links.map fun link => (link.target, link.targetPort) := by
    apply List.ext_getElem?
    intro i
    rw [List.getElem?_map, List.getElem?_map]
    by_cases here : place = i
    · subst here
      rw [List.getElem?_set_self (List.getElem?_eq_some_iff.mp there).1, there, Option.map_some,
        Option.map_some, target, targetPort]
    · rw [List.getElem?_set_ne here]
  rw [Network.wiring, same, Network.wiring]

/-- A frame that is sent by a port is delivered where the port leads, and the wiring stays. -/
theorem transmit_of_leadsTo (leads : s.network.wiring.leadsTo? x = some y) :
    ∃ arrival after, transmit now x.1 x.2 frame s =
        .ok () ⟨after, s.planned ++ [⟨arrival, .deliver y.1 y.2 frame⟩]⟩ ∧
      after.wiring = s.network.wiring := by
  obtain ⟨v, port⟩ := x
  unfold Wiring.leadsTo? at leads
  cases port with
  | zero => cases leads
  | succ index =>
    rw [if_neg (Nat.succ_ne_zero index), Nat.succ_sub_one] at leads
    obtain ⟨place, connected, comesIn⟩ := Option.bind_eq_some_iff.mp leads
    obtain ⟨links, found, there⟩ := Option.bind_eq_some_iff.mp connected
    rw [Network.wiring, List.getElem?_map] at found comesIn
    obtain ⟨n, node, rfl⟩ := Option.map_eq_some_iff.mp found
    obtain ⟨link, joined, rfl⟩ := Option.map_eq_some_iff.mp comesIn
    exact ⟨_, _, transmit_of_link node there joined, wiring_set joined rfl rfl⟩

/-- Nothing that happens at an event changes the wiring. -/
theorem Transmits.wiring (transmits : Transmits now s log t) : t.network.wiring = s.network.wiring := by
  induction transmits with
  | quiet links ports _ => rw [Network.wiring, links, ports, Network.wiring]
  | plan => rfl
  | @transmit s t node port frame id connected done =>
    rw [transmit_eq_ok connected done]
    cases there : s.network.links[id]? with
    | some link =>
      refine wiring_set there ?_ ?_ <;>
        simp [Transmission.after, List.getD_eq_getElem?_getD, there]
    | none =>
      have beyond := List.getElem?_eq_none_iff.mp there
      rw [List.set_eq_of_length_le beyond]
  | trans _ _ first second => rw [second, first]

end Activity

namespace Network

variable {net net' : Network} {x y : Endpoint}

theorem wiring_event {now : Time} {event : NetworkEvent} {planned : List (Planned NetworkEvent)}
    (done : net.perform (event.activity now) = .ok (net', planned)) : net'.wiring = net.wiring := by
  obtain ⟨after, executed, rfl, rfl⟩ := Balanced.perform_eq_ok done
  obtain ⟨log, transmits⟩ := Activity.usesLinks_event now event executed
  exact transmits.wiring

/-- Traffic leaves the wiring alone, however long it goes on. -/
theorem wiring_executes {isWanted : Time → Bool} {s t : Scheduler NetworkEvent}
    {new ran : List (Pending NetworkEvent)}
    (run : Scheduler.Executes behaviour isWanted s net new ran t net') : net'.wiring = net.wiring := by
  induction run with
  | done => rfl
  | next _ executed _ ih => exact ih.trans (wiring_event executed)

/-- As long as the wiring stays, a frame that is sent by the one port is delivered by the other. -/
def Carries (net : Network) (x y : Endpoint) : Prop :=
  ∀ (running : Network) (planned : List (Planned NetworkEvent)) (now : Time) (frame : Frame),
    running.wiring = net.wiring → ∃ arrival after,
      Activity.transmit now x.1 x.2 frame ⟨running, planned⟩ =
        .ok () ⟨after, planned ++ [⟨arrival, .deliver y.1 y.2 frame⟩]⟩ ∧
      after.wiring = net.wiring

theorem carries_of_leadsTo (leads : net.wiring.leadsTo? x = some y) : net.Carries x y := by
  intro running planned now frame same
  rw [← same] at leads ⊢
  exact Activity.transmit_of_leadsTo (s := ⟨running, planned⟩) leads

theorem wiring_addNode (name : String) (kind : NodeKind) :
    (addNode name kind net).2.wiring = net.wiring.addNode := by
  show Wiring.mk ((net.nodes ++ [_]).map _) _ = _
  rw [List.map_append]
  rfl

theorem wiring_addPort (v : NodeId) (link : LinkId) :
    (net.addPort v link).wiring = net.wiring.addPort v link := by
  have ports : (net.addPort v link).nodes.map (·.ports) =
      (net.nodes.map (·.ports)).modify v (· ++ [link]) := by
    apply List.ext_getElem?
    intro u
    rw [List.getElem?_modify, List.getElem?_map, List.getElem?_map]
    unfold addPort
    cases found : net.node? v with
    | none =>
      by_cases here : v = u
      · subst here
        have missing : net.nodes[v]? = none := found
        simp [missing]
      · simp [here]
    | some n =>
      have there : net.nodes[v]? = some n := found
      show ((net.nodes.set v _)[u]?).map _ = _
      by_cases here : v = u
      · subst here
        rw [List.getElem?_set_self (List.getElem?_eq_some_iff.mp there).1, there]
        simp
      · rw [List.getElem?_set_ne here]
        simp [here]
  rw [wiring, ports, links_addPort]
  rfl

theorem node?_wiring (v : NodeId) : net.wiring.ports[v]? = (net.node? v).map (·.ports) :=
  List.getElem?_map

/-- Connecting two nodes makes a pair of links that lead to the ports that are answered, and a port of each
node for the one that goes out. -/
theorem wiring_connect {a b : NodeId} {latency : Time} {bandwidth p q : Nat}
    (done : connect a b latency bandwidth net = .ok (p, q) net') :
    a < net.wiring.ports.length ∧ b < net.wiring.ports.length ∧
      p = net.wiring.portCount a + 1 ∧ q = net.wiring.portCount b + 1 ∧
      net'.wiring = net.wiring.join a b := by
  obtain ⟨na, nb, foundA, foundB, same, rfl⟩ := connect_eq_ok.mp done
  obtain ⟨rfl, rfl⟩ := Prod.mk.inj same
  have portsA : net.wiring.ports[a]? = some na.ports := by rw [node?_wiring, foundA, Option.map_some]
  have portsB : net.wiring.ports[b]? = some nb.ports := by rw [node?_wiring, foundB, Option.map_some]
  have countA : net.wiring.portCount a = na.ports.length := by
    rw [Wiring.portCount, portsA, Option.map_some, Option.getD_some]
  have countB : net.wiring.portCount b = nb.ports.length := by
    rw [Wiring.portCount, portsB, Option.map_some, Option.getD_some]
  have length : net.wiring.ends.length = net.links.length := List.length_map _
  refine ⟨(List.getElem?_eq_some_iff.mp portsA).1, (List.getElem?_eq_some_iff.mp portsB).1,
    countA ▸ rfl, countB ▸ rfl, ?_⟩
  rw [wiring_addPort, wiring_addPort, Wiring.join, Wiring.joinOut, length, countA, countB]
  congr 2
  rw [wiring, List.map_append]
  rfl

/-! ## Building -/

/-- A step in building a network. -/
inductive Build where
  | host (name : String) (ip : IpAddr)
  | switch (numbering : NumberingId) (name : String) (pipeline : Pipeline)
  | connect (a b : NodeId) (latency : Time) (bandwidth : Nat)

namespace Build

/-- Takes a step, and answers the ports of a connection. -/
def run : Build → EStateM Fault Network (Option (Nat × Nat))
  | host name ip => fun net => .ok none (addHost name ip net).2
  | switch numbering name pipeline => fun net => .ok none (addSwitchWith numbering name pipeline net).2
  | connect a b latency bandwidth => some <$> Network.connect a b latency bandwidth

/-- Does the step connect the node to itself? -/
def Loops (v : NodeId) : Build → Prop
  | connect a b _ _ => a = v ∧ b = v
  | _ => False

/-- The two ports that a connection answers. -/
def answered : Build × Option (Nat × Nat) → List Endpoint
  | (connect a b _ _, some (p, q)) => [(a, p), (b, q)]
  | _ => []

/-- The two ports that a connection makes. The second port of a node that is connected to itself is the
one behind the first. -/
def made : Build × Option (Nat × Nat) → List Endpoint
  | (connect a b _ _, some (p, q)) => [(a, p), (b, if a = b then q + 1 else q)]
  | _ => []

end Build

/-- The numbers of the ports that are ports of the node. -/
def portsOf (v : NodeId) (endpoints : List Endpoint) : List Nat :=
  (endpoints.filter (·.1 == v)).map (·.2)

/-- The wiring is what the log says. -/
structure Threaded (log : List (Build × Option (Nat × Nat))) (w : Wiring) : Prop where
  ports : ∀ v, portsOf v (log.flatMap Build.made) = List.range' 1 (w.portCount v)
  leads : ∀ a b latency bandwidth answer, (Build.connect a b latency bandwidth, answer) ∈ log →
    ∃ p q, answer = some (p, q) ∧ w.leadsTo? (a, p) = some (b, q) ∧
      w.leadsTo? (b, if a = b then q + 1 else q) = some (a, p) ∧ (a = b → q = p)

variable {log : List (Build × Option (Nat × Nat))} {w w' : Wiring} {op : Build}
  {answer : Option (Nat × Nat)}

theorem portsOf_append (v : NodeId) (front back : List Endpoint) :
    portsOf v (front ++ back) = portsOf v front ++ portsOf v back := by
  rw [portsOf, List.filter_append, List.map_append]
  rfl

theorem threaded_empty : Threaded [] Network.empty.wiring :=
  ⟨fun _ => rfl, fun _ _ _ _ _ absurd => by cases absurd⟩

/-- A node without ports changes nothing of the rest. -/
theorem Threaded.addNode (threaded : Threaded log w) (unconnected : Build.made (op, answer) = [])
    (other : ∀ a b latency bandwidth, op ≠ .connect a b latency bandwidth) :
    Threaded (log ++ [(op, answer)]) w.addNode := by
  refine ⟨fun v => ?_, fun a b latency bandwidth answer mem => ?_⟩
  · rw [List.flatMap_append, List.flatMap_singleton, unconnected, List.append_nil, threaded.ports,
      Wiring.portCount_addNode]
  · rcases List.mem_append.mp mem with before | last
    · obtain ⟨p, q, answered, there, back, same⟩ := threaded.leads a b latency bandwidth answer before
      have grows := Wiring.grows_addNode w
      exact ⟨p, q, answered, grows.leadsTo? there, grows.leadsTo? back, same⟩
    · cases List.mem_singleton.mp last
      exact absurd rfl (other _ _ _ _)

/-- The ports of a new connection come behind the others, and lead to the ports that are answered. -/
theorem Threaded.connect (threaded : Threaded log w) {a b : NodeId} {latency : Time} {bandwidth p q : Nat}
    (thereA : a < w.ports.length) (thereB : b < w.ports.length) (first : p = w.portCount a + 1)
    (second : q = w.portCount b + 1) :
    Threaded (log ++ [(.connect a b latency bandwidth, some (p, q))]) (w.join a b) := by
  refine ⟨fun v => ?_, fun c d latency' bandwidth' answer mem => ?_⟩
  · have fresh : portsOf v (Build.made (.connect a b latency bandwidth, some (p, q))) =
        List.range' (1 + w.portCount v) ((if v = a then 1 else 0) + if v = b then 1 else 0) := by
      unfold Build.made portsOf
      by_cases isA : v = a <;> by_cases isB : v = b
      · simp [first, second, ← isA, ← isB, List.range'_succ, Nat.add_comm]
      · simp [first, ← isA, isB, Ne.symm isB, Nat.add_comm]
      · simp [second, ← isB, isA, Ne.symm isA, Nat.add_comm]
      · simp [isA, isB, Ne.symm isA, Ne.symm isB]
    rw [List.flatMap_append, List.flatMap_singleton, portsOf_append, threaded.ports, fresh,
      Wiring.portCount_join thereA thereB, List.range'_append_1]
  · rcases List.mem_append.mp mem with before | last
    · obtain ⟨p', q', answered, there, back, same⟩ :=
        threaded.leads c d latency' bandwidth' answer before
      have grows := Wiring.grows_join w a b
      exact ⟨p', q', answered, grows.leadsTo? there, grows.leadsTo? back, same⟩
    · cases List.mem_singleton.mp last
      subst first second
      refine ⟨_, _, rfl, Wiring.leadsTo?_join thereA, Wiring.leadsTo?_join_back thereA thereB, ?_⟩
      rintro rfl
      rfl

/-- The log goes on telling the truth of the wiring. -/
theorem threaded_of_run (threaded : Threaded log net.wiring) (done : op.run net = .ok answer net') :
    Threaded (log ++ [(op, answer)]) net'.wiring := by
  cases op with
  | host name ip =>
    cases done
    have wired : (addHost name ip net).2.wiring = net.wiring.addNode := wiring_addNode name _
    rw [wired]
    exact threaded.addNode rfl fun _ _ _ _ absurd => by cases absurd
  | switch numbering name pipeline =>
    cases done
    have wired : (addSwitchWith numbering name pipeline net).2.wiring = net.wiring.addNode :=
      wiring_addNode name _
    rw [wired]
    exact threaded.addNode rfl fun _ _ _ _ absurd => by cases absurd
  | connect a b latency bandwidth =>
    obtain ⟨⟨p, q⟩, connected, rfl⟩ := state_map_eq_ok.mp done
    obtain ⟨thereA, thereB, first, second, wired⟩ := wiring_connect connected
    rw [wired]
    exact threaded.connect thereA thereB first second

/-- A step that fails leaves the network as it is. -/
theorem build_atomic (op : Build) (net : Network) : AtomicAt op.run net := by
  cases op with
  | host name ip =>
    intro e t failed
    cases failed
  | switch numbering name pipeline =>
    intro e t failed
    cases failed
  | connect a b latency bandwidth =>
    refine AtomicAt.map ?_ _
    refine (looksUp_requireNode a).atomicAt_bind fun na _ => ?_
    refine (looksUp_requireNode b).atomicAt_bind fun nb _ => ?_
    refine looksOnly_get.atomicAt_bind fun seen _ => ?_
    refine (atomicAt_modify _ net).bind fun _ linked e t _ failed => ?_
    exact absurd failed (by intro absurd; cases absurd)

theorem threaded_of_history (history : History Build.run Network.empty log net) :
    Threaded log net.wiring := by
  induction history with
  | start => exact threaded_empty
  | done _ op done ih => exact threaded_of_run ih done
  | failed _ op failed ih =>
    rw [build_atomic op _ failed]
    exact ih

theorem mem_portsOf {endpoints : List Endpoint} : x.2 ∈ portsOf x.1 endpoints ↔ x ∈ endpoints := by
  unfold portsOf
  rw [List.mem_map]
  constructor
  · rintro ⟨y, mem, same⟩
    obtain ⟨there, own⟩ := List.mem_filter.mp mem
    have equal : y = x := Prod.ext (beq_iff_eq.mp own) same
    rwa [← equal]
  · intro mem
    exact ⟨x, List.mem_filter.mpr ⟨mem, beq_self_eq_true _⟩, rfl⟩

/-- A port that is made has not been made before. -/
theorem Threaded.fresh {before later : List (Build × Option (Nat × Nat))}
    {step : Build × Option (Nat × Nat)} (threaded : Threaded (before ++ step :: later) w)
    (made : x ∈ Build.made step) : x ∉ before.flatMap Build.made := by
  have distinct : (portsOf x.1 ((before ++ step :: later).flatMap Build.made)).Nodup := by
    rw [threaded.ports]
    exact List.nodup_range'
  rw [List.flatMap_append, List.flatMap_cons, portsOf_append, portsOf_append] at distinct
  intro old
  exact (List.nodup_append.mp distinct).2.2 x.2 (mem_portsOf.mpr old) x.2
    (List.mem_append_left _ (mem_portsOf.mpr made)) rfl

theorem portsOf_flatMap (v : NodeId) (f : Build × Option (Nat × Nat) → List Endpoint) :
    portsOf v (log.flatMap f) = log.flatMap fun step => portsOf v (f step) := by
  rw [portsOf, List.filter_flatMap, List.map_flatMap]
  rfl

/-- A connection answers the ports of a node that it makes, unless it connects the node to itself. -/
theorem portsOf_answered {step : Build × Option (Nat × Nat)} {v : NodeId} (apart : ¬step.1.Loops v) :
    portsOf v (Build.answered step) = portsOf v (Build.made step) := by
  obtain ⟨op, answer⟩ := step
  cases op with
  | host => rfl
  | switch => rfl
  | connect a b latency bandwidth =>
    cases answer with
    | none => rfl
    | some ports =>
      obtain ⟨p, q⟩ := ports
      by_cases same : a = b
      · subst same
        have other : a ≠ v := fun here => apart ⟨here, here⟩
        simp [portsOf, Build.answered, Build.made, other]
      · simp [Build.answered, Build.made, same]

/-- The answered ports of a node are all its ports exactly if it is never connected to itself. -/
theorem Threaded.answered_iff (threaded : Threaded log w) (v : NodeId) :
    portsOf v (log.flatMap Build.answered) = List.range' 1 (w.portCount v) ↔
      ∀ step ∈ log, ¬step.1.Loops v := by
  constructor
  · rintro all ⟨op, answer⟩ mem loops
    cases op with
    | host => exact loops
    | switch => exact loops
    | connect a b latency bandwidth =>
      obtain ⟨rfl, rfl⟩ := loops
      obtain ⟨p, q, rfl, -, -, same⟩ := threaded.leads _ _ _ _ _ mem
      obtain rfl := same rfl
      obtain ⟨before, later, rfl⟩ := List.append_of_mem mem
      have distinct : (List.range' 1 (w.portCount b)).Nodup := List.nodup_range'
      rw [← all] at distinct
      have twice : portsOf b (Build.answered (.connect b b latency bandwidth, some (q, q))) = [q, q] := by
        simp [portsOf, Build.answered]
      rw [List.flatMap_append, List.flatMap_cons, portsOf_append, portsOf_append, twice] at distinct
      have second := (List.nodup_append.mp distinct).2.1
      exact (List.nodup_cons.mp second).1 List.mem_cons_self
  · intro apart
    rw [← threaded.ports, portsOf_flatMap, portsOf_flatMap]
    exact List.flatMap_congr fun step mem => portsOf_answered (apart step mem)

/-- However a network is built, connecting two nodes that are there succeeds. Two different nodes get a new
port each, which are the ports that are answered; from then on, whatever is connected later, frames that
one of them sends by its port are delivered to the other by the port of the other, as long as the wiring
stays, which traffic never changes. A node that is connected to itself gets two new ports as well, but one
number is answered twice, and frames that it sends by either port are delivered to it by the first. The
ports of a node are numbered from one in the order in which they are made, and each of them is answered by
exactly one connection if the node is never connected to itself, and not else. -/
theorem ports_two_way (history : History Build.run Network.empty log net) :
    (∀ a b latency bandwidth, (net.node? a).isSome = true → (net.node? b).isSome = true →
      ∃ ports net', connect a b latency bandwidth net = .ok ports net') ∧
    (∀ before a b latency bandwidth p q later,
      log = before ++ (.connect a b latency bandwidth, some (p, q)) :: later →
        (a, p) ∉ before.flatMap Build.made ∧
        if a = b then
          q = p ∧ (a, p + 1) ∉ before.flatMap Build.made ∧
            net.Carries (a, p) (a, p) ∧ net.Carries (a, p + 1) (a, p)
        else
          (b, q) ∉ before.flatMap Build.made ∧
            net.Carries (a, p) (b, q) ∧ net.Carries (b, q) (a, p)) ∧
    (∀ isWanted s new ran t running,
      Scheduler.Executes behaviour isWanted s net new ran t running → running.wiring = net.wiring) ∧
    (∀ v, portsOf v (log.flatMap Build.made) = List.range' 1 (net.wiring.portCount v)) ∧
    ∀ v, portsOf v (log.flatMap Build.answered) = List.range' 1 (net.wiring.portCount v) ↔
      ∀ step ∈ log, ¬step.1.Loops v := by
  have threaded := threaded_of_history history
  refine ⟨fun a b latency bandwidth thereA thereB => ?_,
    fun before a b latency bandwidth p q later split => ?_, fun _ _ _ _ _ _ run => wiring_executes run,
    threaded.ports, threaded.answered_iff⟩
  · obtain ⟨na, foundA⟩ := Option.isSome_iff_exists.mp thereA
    obtain ⟨nb, foundB⟩ := Option.isSome_iff_exists.mp thereB
    exact ⟨_, _, connect_eq_ok.mpr ⟨na, nb, foundA, foundB, rfl, rfl⟩⟩
  · subst split
    obtain ⟨p', q', answered, there, back, same⟩ := threaded.leads a b latency bandwidth _
      (List.mem_append_right _ List.mem_cons_self)
    cases answered
    refine ⟨threaded.fresh List.mem_cons_self, ?_⟩
    by_cases loop : a = b
    · subst loop
      obtain rfl := same rfl
      rw [if_pos rfl] at back ⊢
      have second : (a, q + 1) ∈
          Build.made (.connect a a latency bandwidth, some (q, q)) := by simp [Build.made]
      exact ⟨rfl, threaded.fresh second, carries_of_leadsTo there, carries_of_leadsTo back⟩
    · rw [if_neg loop] at back ⊢
      have second : (b, q) ∈
          Build.made (.connect a b latency bandwidth, some (p, q)) := by simp [Build.made, loop]
      exact ⟨threaded.fresh second, carries_of_leadsTo there, carries_of_leadsTo back⟩

/-- Two hosts are connected, the first one to itself as well, and then the two once more; a connection to
a third one fails. The second connection answers port 2 twice, and port 3 is answered by none. -/
theorem ports_two_way_looped :
    ∃ log net, History Build.run Network.empty log net ∧
      log.flatMap Build.answered = [(0, 1), (1, 1), (0, 2), (0, 2), (1, 2), (0, 4)] ∧
      net.Carries (0, 1) (1, 1) ∧ net.Carries (1, 1) (0, 1) ∧
      net.Carries (0, 2) (0, 2) ∧ net.Carries (0, 3) (0, 2) ∧
      net.Carries (1, 2) (0, 4) ∧ net.Carries (0, 4) (1, 2) ∧
      net.wiring.portCount 0 = 4 ∧
      portsOf 0 (log.flatMap Build.answered) ≠ List.range' 1 (net.wiring.portCount 0) ∧
      portsOf 1 (log.flatMap Build.answered) = List.range' 1 (net.wiring.portCount 1) := by
  have begun : History Build.run Network.empty [] Network.empty := .start
  have left := begun.done (.host "left" (.v4 ⟨0x0a000001#32⟩)) rfl
  have right := left.done (.host "right" (.v4 ⟨0x0a000002#32⟩)) rfl
  have joined := right.done (.connect 0 1 .zero 1000) rfl
  have looped := joined.done (.connect 0 0 .zero 1000) rfl
  have missing := looped.failed (.connect 0 2 .zero 1000) rfl
  have again := missing.done (.connect 1 0 .zero 1000) rfl
  obtain ⟨-, carried, -, -, answered⟩ := ports_two_way again
  obtain ⟨-, -, there, back⟩ := carried [_, _] 0 1 _ _ 1 1 _ rfl
  obtain ⟨-, -, -, onto, behind⟩ := carried [_, _, _] 0 0 _ _ 2 2 _ rfl
  obtain ⟨-, -, thereAgain, backAgain⟩ := carried [_, _, _, _] 1 0 _ _ 2 4 _ rfl
  refine ⟨_, _, again, rfl, there, back, onto, behind, thereAgain, backAgain, rfl, ?_, rfl⟩
  rw [Ne, answered]
  intro apart
  exact apart (.connect 0 0 .zero 1000, some (2, 2)) (by simp) ⟨rfl, rfl⟩

end Network

end Switchyard
