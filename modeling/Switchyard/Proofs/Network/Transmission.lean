import Mathlib.Data.List.Forall2
import Switchyard.Proofs.Network.Balance

/-!
# Transmissions

Whatever happens in a network uses links in one way only, by `Activity.transmit`. `Transmits` records
these calls beside the events that are planned: what an activity does is a sequence of transmissions, of
injections that it plans, and of changes that no link takes notice of. `Serves` is what the transmissions
of one link are like: each finds the link as the one before has left it.
-/

namespace Switchyard

open Sequencing

/-- A frame that is given to a link to send, at a time, with the link as it is then. -/
structure Transmission where
  link : LinkId
  before : Link
  start : Time
  frame : Frame

namespace Transmission

/-- When the link begins to send the frame: at once, or when it has sent all others. -/
def begins (e : Transmission) : Time := e.start.later e.before.freeAt

/-- When it has sent the frame. -/
def departure (e : Transmission) : Time := e.before.departure e.start e.frame.length

def arrival (e : Transmission) : Time := e.departure + e.before.latency

/-- What happens when the frame arrives. -/
def event (e : Transmission) : NetworkEvent := .deliver e.before.target e.before.targetPort e.frame

/-- The link when it has been given the frame. -/
def after (e : Transmission) : Link := { e.before with freeAt := e.departure }

theorem begins_le_departure (e : Transmission) : e.begins ≤ e.departure := by
  have bound := e.begins.toNat_le
  simp only [Time.le_iff, departure, Link.departure, begins, Time.toNat_add] at bound ⊢
  omega

theorem departure_le_arrival (e : Transmission) : e.departure ≤ e.arrival := by
  have bound := e.departure.toNat_le
  simp only [Time.le_iff, arrival, Time.toNat_add]
  omega

theorem start_le_begins (e : Transmission) : e.start ≤ e.begins := by
  simp only [Time.le_iff, begins, Time.toNat_later]
  omega

theorem start_le_arrival (e : Transmission) : e.start ≤ e.arrival :=
  Nat.le_trans e.start_le_begins (Nat.le_trans e.begins_le_departure e.departure_le_arrival)

end Transmission

namespace Link

/-- The link has sent the frames one after another since it was free at a time: each found it as the one
before had left it, and it is as the last one has left it. -/
def Serves (l : Link) : Time → List Transmission → Prop
  | free, [] => l.freeAt = free
  | free, e :: rest => e.before = { l with freeAt := free } ∧ l.Serves e.departure rest

variable {l : Link} {free : Time} {sent : List Transmission} {e : Transmission}

/-- One more frame. -/
theorem Serves.concat (serves : l.Serves free sent) (found : e.before = l) :
    e.after.Serves free (sent ++ [e]) := by
  subst found
  induction sent generalizing free with
  | nil =>
    obtain rfl : e.before.freeAt = free := serves
    exact ⟨rfl, rfl⟩
  | cons first rest ih => exact ⟨serves.1, ih serves.2⟩

/-- The link itself stays as it is. -/
theorem Serves.before_eq (serves : l.Serves free sent) :
    ∀ e ∈ sent, e.before = { l with freeAt := e.before.freeAt } := by
  induction sent generalizing free with
  | nil => simp
  | cons first rest ih =>
    refine List.forall_mem_cons.mpr ⟨?_, ih serves.2⟩
    rw [serves.1]

/-- None begins before the link is free. -/
theorem Serves.free_le_begins (serves : l.Serves free sent) : ∀ e ∈ sent, free ≤ e.begins := by
  induction sent generalizing free with
  | nil => simp
  | cons first rest ih =>
    have own : free ≤ first.begins := by
      simp only [Time.le_iff, Transmission.begins, serves.1, Time.toNat_later]
      omega
    refine List.forall_mem_cons.mpr ⟨own, ?_⟩
    intro e member
    exact Nat.le_trans own (Nat.le_trans first.begins_le_departure (ih serves.2 e member))

/-- The link never sends two frames at once. -/
theorem Serves.apart (serves : l.Serves free sent) :
    sent.Pairwise fun e f => e.departure ≤ f.begins := by
  induction sent generalizing free with
  | nil => exact .nil
  | cons first rest ih =>
    exact List.pairwise_cons.mpr ⟨serves.2.free_le_begins, ih serves.2⟩

/-- Frames arrive in the order in which they were given to the link. -/
theorem Serves.arrivals (serves : l.Serves free sent) :
    sent.Pairwise fun e f => e.arrival ≤ f.arrival := by
  have same := serves.before_eq
  refine serves.apart.imp_of_mem fun {e f} eMem fMem apart => ?_
  have latency : e.before.latency = f.before.latency := by rw [same e eMem, same f fMem]
  have order := Nat.le_trans apart f.begins_le_departure
  simp only [Time.le_iff, Transmission.arrival, Time.toNat_add, latency]
  omega

/-- The time from which on the link was free for a frame is the departure of the frame before. -/
theorem Serves.freeAt_eq (serves : l.Serves free sent) :
    ∀ pair ∈ (free :: sent.map (·.departure)).zip sent, pair.2.before.freeAt = pair.1 := by
  induction sent generalizing free with
  | nil => simp
  | cons first rest ih =>
    rw [List.map_cons, List.zip_cons_cons]
    refine List.forall_mem_cons.mpr ⟨?_, ih serves.2⟩
    rw [serves.1]

end Link

namespace Activity

/-- What an activity does to links and what it plans, one after another, with a record for every planned
event: the transmission that it ends, or nothing for an injection. -/
inductive Transmits (now : Time) : Activity → List (Option Transmission) → Activity → Prop where
  | quiet {s t : Activity} (links : t.network.links = s.network.links)
      (ports : t.network.nodes.map (·.ports) = s.network.nodes.map (·.ports))
      (planned : t.planned = s.planned) : Transmits now s [] t
  | plan {s : Activity} (due : Time) (flow : Flow) :
      Transmits now s [none] { s with planned := s.planned ++ [⟨due, .inject flow⟩] }
  | transmit {s t : Activity} {node : NodeId} {port : Nat} {frame : Frame} {id : LinkId}
      (connected : outgoing node port s = .ok (some id) s)
      (done : transmit now node port frame s = .ok () t) :
      Transmits now s [some ⟨id, s.network.links.getD id default, now, frame⟩] t
  | trans {s m t : Activity} {log rest : List (Option Transmission)} (first : Transmits now s log m)
      (second : Transmits now m rest t) : Transmits now s (log ++ rest) t

/-- An operation that uses links so. -/
def UsesLinks {α : Type} (now : Time) (op : ActivityM α) : Prop :=
  ∀ ⦃s a t⦄, op s = .ok a t → ∃ log, Transmits now s log t

variable {α β : Type} {now : Time} {s t : Activity} {x : ActivityM α} {f : α → ActivityM β}

theorem UsesLinks.bind (first : UsesLinks now x) (second : ∀ a, UsesLinks now (f a)) :
    UsesLinks now (x >>= f) := by
  intro s b t done
  obtain ⟨a, m, mid, last⟩ := state_bind_eq_ok.mp done
  obtain ⟨log, before⟩ := first mid
  obtain ⟨rest, after⟩ := second a last
  exact ⟨log ++ rest, before.trans after⟩

theorem usesLinks_of_looksOnly (looks : LooksOnly x) : UsesLinks now x := by
  intro s a t done
  obtain rfl := (looks s).1 a t done
  exact ⟨[], .quiet rfl rfl rfl⟩

/-- A change that links take no notice of. -/
theorem usesLinks_change {g : Network → Network} (links : ∀ net, (g net).links = net.links)
    (ports : ∀ net, (g net).nodes.map (·.ports) = net.nodes.map (·.ports)) :
    UsesLinks now (change g) := by
  intro s a t done
  obtain rfl := modify_eq_ok.mp done
  exact ⟨[], .quiet (links _) (ports _) rfl⟩

theorem usesLinks_count (counted : Stats → Stats) : UsesLinks now (count counted) :=
  usesLinks_change (fun _ => rfl) fun _ => rfl

theorem usesLinks_plan (now due : Time) (flow : Flow) : UsesLinks now (plan due (.inject flow)) := by
  intro s a t done
  obtain rfl := modify_eq_ok.mp done
  exact ⟨[none], .plan due flow⟩

theorem usesLinks_requireNode (id : NodeId) :
    UsesLinks now (onNetwork (Network.requireNode id)) :=
  usesLinks_of_looksOnly (looksUp_requireNode id).looksOnly

theorem looksOnly_outgoing (node : NodeId) (port : Nat) : LooksOnly (outgoing node port) := by
  unfold outgoing
  split
  · exact looksOnly_pure _
  · exact (looksUp_requireNode node).looksOnly.bind fun _ => looksOnly_pure _

/-- A port that is connected gives the frame to its link. -/
theorem usesLinks_transmit (now : Time) (node : NodeId) (port : Nat) (frame : Frame) :
    UsesLinks now (transmit now node port frame) := by
  intro s u t done
  obtain ⟨link, m, out, rest⟩ := state_bind_eq_ok.mp done
  obtain rfl := (looksOnly_outgoing node port s).1 link m out
  cases link with
  | none => exact usesLinks_count _ rest
  | some id => exact ⟨_, .transmit out done⟩

theorem usesLinks_sendFromHost (now : Time) (node : NodeId) (frame : Frame) :
    UsesLinks now (sendFromHost now node frame) :=
  (usesLinks_requireNode node).bind fun _ => (usesLinks_count _).bind fun _ =>
    usesLinks_transmit now node 1 frame

theorem usesLinks_receive (now : Time) (name : String) (frame : Frame) :
    UsesLinks now (receive now name frame) := by
  refine (usesLinks_count _).bind fun _ => ?_
  unfold countLatency
  cases frame.sent? with
  | none => exact usesLinks_of_looksOnly (looksOnly_pure _)
  | some sent =>
    refine (usesLinks_count _).bind fun _ => usesLinks_of_looksOnly (looksOnly_get.bind fun s => ?_)
    split
    · exact looksOnly_throw _
    · exact looksOnly_pure _

theorem usesLinks_process (now : Time) (name : String) (pipeline : Pipeline) (id : NumberingId)
    (port : Nat) (frame : Frame) : UsesLinks now (process now name pipeline id port frame) := by
  refine (usesLinks_of_looksOnly looksOnly_get).bind fun s => ?_
  dsimp only
  split
  · exact usesLinks_of_looksOnly (looksOnly_throw _)
  · refine Activity.UsesLinks.bind (usesLinks_change ?_ ?_) fun _ =>
      usesLinks_of_looksOnly (looksOnly_pure _)
    · intro net
      cases id <;> rfl
    · intro net
      cases id <;> rfl

theorem usesLinks_emitAll (now : Time) (node : NodeId) (emissions : List Emission) :
    UsesLinks now (emissions.forM (emit now node)) :=
  forM_of_bind (usesLinks_of_looksOnly (looksOnly_pure _)) (fun first second => first.bind fun _ => second)
    fun e => (usesLinks_count _).bind fun _ => usesLinks_transmit now node e.port e.frame

theorem usesLinks_handle (now : Time) (node : NodeId) (n : Node) (port : Nat) (frame : Frame) :
    UsesLinks now (handle now node n port frame) := by
  unfold handle
  split
  · exact usesLinks_receive now n.name frame
  · exact (usesLinks_count _).bind fun _ => (usesLinks_process ..).bind fun emissions =>
      usesLinks_emitAll now node emissions

end Activity

namespace Network

/-- Another node in the place of one with the same ports. -/
theorem ports_setNode {net : Network} {id : NodeId} {n n' : Node} (found : net.node? id = some n)
    (same : n'.ports = n.ports) :
    (net.setNode id n').nodes.map (·.ports) = net.nodes.map (·.ports) := by
  apply List.ext_getElem?
  intro i
  show ((net.nodes.set id n').map (·.ports))[i]? = _
  rw [List.getElem?_map, List.getElem?_map]
  by_cases here : id = i
  · subst here
    have there : net.nodes[id]? = some n := found
    rw [List.getElem?_set_self (List.getElem?_eq_some_iff.mp there).1, there, Option.map_some,
      Option.map_some, same]
  · rw [List.getElem?_set_ne here]

theorem ports_setBusy (net : Network) (id : NodeId) (busy : Bool) :
    (net.setBusy id busy).nodes.map (·.ports) = net.nodes.map (·.ports) := by
  unfold setBusy
  cases found : net.node? id with
  | none => rfl
  | some n => exact ports_setNode found rfl

theorem links_setBusy (net : Network) (id : NodeId) (busy : Bool) :
    (net.setBusy id busy).links = net.links := by
  unfold setBusy
  cases net.node? id <;> rfl

theorem stats_setBusy (net : Network) (id : NodeId) (busy : Bool) :
    (net.setBusy id busy).stats = net.stats := by
  unfold setBusy
  cases net.node? id <;> rfl

theorem nextUid_setBusy (net : Network) (id : NodeId) (busy : Bool) :
    (net.setBusy id busy).nextUid = net.nextUid := by
  unfold setBusy
  cases net.node? id <;> rfl

end Network

namespace Activity

variable {now : Time}

theorem usesLinks_setBusy (id : NodeId) (busy : Bool) : UsesLinks now (change (·.setBusy id busy)) :=
  usesLinks_change (fun net => net.links_setBusy id busy) fun net => net.ports_setBusy id busy

theorem usesLinks_deliver (now : Time) (node : NodeId) (port : Nat) (frame : Frame) :
    UsesLinks now (deliver now node port frame) := by
  refine (usesLinks_requireNode node).bind fun n => ?_
  split
  · exact usesLinks_of_looksOnly (looksOnly_pure _)
  · exact (usesLinks_setBusy node true).bind fun _ =>
      (usesLinks_handle now node n port frame).bind fun _ => usesLinks_setBusy node false

theorem usesLinks_inject (now : Time) (flow : Flow) : UsesLinks now (flow.inject now) := by
  intro s u t done
  have numbered : Transmits now s [] { s with network := (Network.takeUid s.network).2 } :=
    .quiet rfl rfl rfl
  rcases inject_eq_ok done with rfl | rfl | ⟨frame, m, send, rfl | ⟨due, next, planned⟩⟩
  · exact ⟨_, .quiet rfl rfl rfl⟩
  · exact ⟨_, numbered⟩
  · obtain ⟨log, sent⟩ := usesLinks_sendFromHost now flow.source frame send
    exact ⟨_, numbered.trans sent⟩
  · obtain ⟨log, sent⟩ := usesLinks_sendFromHost now flow.source frame send
    obtain ⟨rest, last⟩ := usesLinks_plan now due next planned
    exact ⟨_, (numbered.trans sent).trans last⟩

/-- So do all events. -/
theorem usesLinks_event (now : Time) (event : NetworkEvent) : UsesLinks now (event.activity now) := by
  cases event with
  | deliver node port frame => exact usesLinks_deliver now node port frame
  | inject flow => exact usesLinks_inject now flow

end Activity

/-! ## Links in a network -/

namespace Network

/-- The ports of the nodes are ends of links with numbers below a bound. -/
def Wired (net : Network) (bound : Nat) : Prop := ∀ n ∈ net.nodes, ∀ id ∈ n.ports, id < bound

theorem wired_congr {net net' : Network} {bound : Nat}
    (ports : net'.nodes.map (·.ports) = net.nodes.map (·.ports)) (wired : net.Wired bound) :
    net'.Wired bound := by
  have old : ∀ ports ∈ net.nodes.map (·.ports), ∀ id ∈ ports, id < bound :=
    List.forall_mem_map.mpr wired
  rw [← ports] at old
  exact List.forall_mem_map.mp old

/-- All links have served the transmissions of the past that were theirs, and no others are known. -/
structure Serving (net : Network) (past : List Transmission) : Prop where
  wired : net.Wired net.links.length
  known : ∀ e ∈ past, e.link < net.links.length
  serves : ∀ (id : LinkId) (link : Link), net.links[id]? = some link →
    link.Serves Time.zero (past.filter (·.link == id))

/-- One more transmission, by a link as it is. -/
theorem Serving.concat {net : Network} {past : List Transmission} {e : Transmission}
    (serving : net.Serving past) (there : net.links[e.link]? = some e.before) :
    Serving { net with links := net.links.set e.link e.after } (past ++ [e]) := by
  have bound := (List.getElem?_eq_some_iff.mp there).1
  refine ⟨?_, ?_, ?_⟩
  · show Wired _ (List.length (List.set _ _ _))
    rw [List.length_set]
    exact serving.wired
  · show ∀ e ∈ past ++ [_], e.link < List.length (List.set _ _ _)
    rw [List.length_set]
    exact List.forall_mem_append.mpr ⟨serving.known, List.forall_mem_singleton.mpr bound⟩
  · intro id link found
    rw [List.filter_append]
    by_cases same : e.link = id
    · subst same
      obtain rfl : e.after = link :=
        Option.some.inj ((List.getElem?_set_self bound).symm.trans found)
      simpa using (serving.serves e.link _ there).concat rfl
    · have kept : net.links[id]? = some link := (List.getElem?_set_ne same).symm.trans found
      simpa [same] using serving.serves id link kept

end Network

namespace Activity

variable {now : Time} {s t : Activity} {log : List (Option Transmission)}

/-- A connected port is the end of a link. -/
theorem mem_of_outgoing {node : NodeId} {port : Nat} {id : LinkId}
    (connected : outgoing node port s = .ok (some id) s) :
    ∃ n ∈ s.network.nodes, id ∈ n.ports := by
  unfold outgoing at connected
  split at connected
  · cases connected
  · obtain ⟨n, found, last⟩ := (looksUp_requireNode node).bind_eq_ok.mp connected
    obtain ⟨there, -⟩ := state_pure_eq_ok.mp last
    exact ⟨n, List.mem_of_getElem? found, List.mem_of_getElem? there⟩

/-- Giving a frame to a link changes the link and plans the arrival, and nothing else. -/
theorem transmit_eq_ok {node : NodeId} {port : Nat} {frame : Frame} {id : LinkId} {u : Unit}
    (connected : outgoing node port s = .ok (some id) s)
    (done : transmit now node port frame s = .ok u t) :
    let e : Transmission := ⟨id, s.network.links.getD id default, now, frame⟩
    t = ⟨{ s.network with links := s.network.links.set id e.after },
      s.planned ++ [⟨e.arrival, e.event⟩]⟩ := by
  intro e
  unfold transmit at done
  rw [state_bind_of_ok connected] at done
  have rest := get_bind_eq_ok.mp done
  have last := modify_bind_eq_ok.mp rest
  obtain rfl := modify_eq_ok.mp last
  rfl

/-- Each planned event has its record. -/
theorem Transmits.planned (transmits : Transmits now s log t) :
    ∃ new, t.planned = s.planned ++ new ∧
      List.Forall₂ (fun planned record => ∀ e ∈ record,
        planned.due = e.arrival ∧ planned.event = e.event ∧ e.start = now) new log := by
  induction transmits with
  | quiet _ _ planned => exact ⟨[], by rw [planned, List.append_nil], .nil⟩
  | plan due flow => exact ⟨_, rfl, .cons (by simp) .nil⟩
  | transmit connected done =>
    refine ⟨_, congrArg Activity.planned (transmit_eq_ok connected done), .cons ?_ .nil⟩
    rintro e ⟨⟩
    exact ⟨rfl, rfl, rfl⟩
  | trans _ _ first second =>
    obtain ⟨new, planned, records⟩ := first
    obtain ⟨more, further, rest⟩ := second
    refine ⟨new ++ more, ?_, List.rel_append records rest⟩
    rw [further, planned, List.append_assoc]

/-- Links go on serving. -/
theorem Transmits.serving (transmits : Transmits now s log t) {past : List Transmission}
    (serving : s.network.Serving past) : t.network.Serving (past ++ log.filterMap id) := by
  induction transmits generalizing past with
  | quiet links ports _ =>
    rw [List.filterMap_nil, List.append_nil]
    exact ⟨Network.wired_congr ports (links ▸ serving.wired), links ▸ serving.known,
      links ▸ serving.serves⟩
  | plan due flow =>
    show Network.Serving _ (past ++ [])
    rw [List.append_nil]
    exact serving
  | @transmit s t node port frame id connected done =>
    obtain ⟨n, member, inPorts⟩ := mem_of_outgoing connected
    have bound := serving.wired n member id inPorts
    have there := List.getElem?_eq_getElem bound
    rw [transmit_eq_ok connected done]
    refine serving.concat (e := ⟨id, s.network.links.getD id default, now, frame⟩) ?_
    rw [there, List.getD_eq_getElem?_getD, there, Option.getD_some]
  | trans _ _ first second =>
    rw [List.filterMap_append, ← List.append_assoc]
    exact second (first serving)

end Activity

end Switchyard
