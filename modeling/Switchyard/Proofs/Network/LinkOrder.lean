import Mathlib.Algebra.Order.Floor.Div
import Mathlib.Data.List.Sort
import Switchyard.Network.Simulation
import Switchyard.Proofs.Network.Conservation
import Switchyard.Proofs.Network.Transmission
import Switchyard.Proofs.Simulation.Order

/-!
# Links deliver in order

The history of a simulation is what was scheduled, in order, with the transmission that each arrival ends.
In every simulation that can be come to, the arrivals that end the transmissions of a link are executed in
the order of the calls, also where times are at their bound and where arrivals are due at one time; and a
link sends one frame at a time. Of arrivals that are due at one time the one with the smaller number comes
first, so this is about simulations with fewer than 2^64 scheduled events, as many as a counter of 64 bits
can number.
-/

namespace Switchyard

open Sequencing

/-- What was scheduled, and the transmission that it ends, if it is the arrival of a frame that a link
was given. -/
abbrev Entry := Pending NetworkEvent × Option Transmission

/-- The arrivals by a link, with its transmissions, in the order of the calls. -/
def sentOn (id : LinkId) (history : List Entry) : List (Pending NetworkEvent × Transmission) :=
  history.filterMap fun entry => (entry.2.filter (·.link == id)).map (entry.1, ·)

section History

variable {id : LinkId} {history : List Entry}

theorem sentOn_cons (id : LinkId) (entry : Entry) (history : List Entry) :
    sentOn id (entry :: history) =
      ((entry.2.filter (·.link == id)).map (entry.1, ·)).toList ++ sentOn id history := by
  unfold sentOn
  rw [List.filterMap_cons]
  cases (entry.2.filter (·.link == id)) <;> rfl

theorem mem_sentOn {p : Pending NetworkEvent} {e : Transmission} :
    (p, e) ∈ sentOn id history ↔ (p, some e) ∈ history ∧ e.link = id := by
  simp only [sentOn, List.mem_filterMap, Option.map_eq_some_iff, Option.filter_eq_some_iff,
    Prod.mk.injEq, beq_iff_eq]
  constructor
  · rintro ⟨⟨q, record⟩, member, f, ⟨rfl, own⟩, rfl, rfl⟩
    exact ⟨member, own⟩
  · rintro ⟨member, own⟩
    exact ⟨(p, some e), member, e, ⟨rfl, own⟩, rfl, rfl⟩

/-- They are among what was scheduled. -/
theorem sentOn_sublist (id : LinkId) (history : List Entry) :
    ((sentOn id history).map (·.1)).Sublist (history.map (·.1)) := by
  induction history with
  | nil => exact .slnil
  | cons entry history ih =>
    rw [sentOn_cons, List.map_append, List.map_cons]
    cases entry.2.filter (·.link == id) with
    | none => exact ih.cons _
    | some e => exact ih.cons_cons _

theorem map_sentOn (id : LinkId) (history : List Entry) :
    (sentOn id history).map (·.2) = (history.filterMap (·.2)).filter (·.link == id) := by
  induction history with
  | nil => rfl
  | cons entry history ih =>
    obtain ⟨p, record⟩ := entry
    rw [sentOn_cons, List.map_append, ih, List.filterMap_cons]
    cases record with
    | none => rfl
    | some e => by_cases own : e.link = id <;> simp [Option.filter, own]

end History

namespace Network

/-- What is done to a network without time passing: it is built, pipelines are made, commands are carried
out, and numbers and reports are taken. -/
inductive Built (net : Network) : Network → Prop where
  | addHost (name : String) (ip : IpAddr) : Built net (addHost name ip net).2
  | addSwitch (id : NumberingId) (name : String) (pipeline : Pipeline) :
      Built net (addSwitchWith id name pipeline net).2
  | setNumbering (id : NumberingId) (numbering : Numbering) : Built net (net.setNumbering id numbering)
  | connect {a b : NodeId} {latency : Time} {bandwidth : Nat} {ports : Nat × Nat} {net' : Network}
      (done : connect a b latency bandwidth net = .ok ports net') : Built net net'
  | command {place : NodeId} {line : String} {answer : Option Nat} {e : Error} {net' : Network}
      (done : command place line net = .ok answer net' ∨ command place line net = .error e net') :
      Built net net'
  | takeUid : Built net (takeUid net).2
  | takeReports : Built net (takeReports net).2

variable {net net' : Network} {past : List Transmission} {bound : Nat}

theorem Serving.of_same (serving : net.Serving past) (links : net'.links = net.links)
    (ports : net'.nodes.map (·.ports) = net.nodes.map (·.ports)) : net'.Serving past :=
  ⟨wired_congr ports (links ▸ serving.wired), links ▸ serving.known, links ▸ serving.serves⟩

/-- A new node has no ports. -/
theorem serving_addNode (serving : net.Serving past) (name : String) (kind : NodeKind) :
    (addNode name kind net).2.Serving past := by
  refine ⟨?_, serving.known, serving.serves⟩
  exact List.forall_mem_append.mpr ⟨serving.wired, by simp⟩

theorem wired_addPort (wired : net.Wired bound) {place : NodeId} {link : LinkId} (inside : link < bound) :
    (net.addPort place link).Wired bound := by
  unfold addPort
  cases found : net.node? place with
  | none => exact wired
  | some n =>
    intro m member
    rcases List.mem_or_eq_of_mem_set member with old | rfl
    · exact wired m old
    · exact List.forall_mem_append.mpr
        ⟨wired n (List.mem_of_getElem? found), List.forall_mem_singleton.mpr inside⟩

theorem links_addPort (net : Network) (place : NodeId) (link : LinkId) :
    (net.addPort place link).links = net.links := by
  unfold addPort
  cases net.node? place <;> rfl

/-- New links have sent nothing. -/
theorem serving_links (serving : net.Serving past) {fresh : List Link}
    (idle : ∀ l ∈ fresh, l.freeAt = Time.zero) :
    Serving { net with links := net.links ++ fresh } past := by
  have more : net.links.length ≤ (net.links ++ fresh).length := by simp
  refine ⟨?_, ?_, ?_⟩
  · intro n member id port
    exact Nat.lt_of_lt_of_le (serving.wired n member id port) more
  · intro e member
    exact Nat.lt_of_lt_of_le (serving.known e member) more
  · intro id link found
    by_cases old : id < net.links.length
    · exact serving.serves id link ((List.getElem?_append_left old).symm.trans found)
    · have other : past.filter (·.link == id) = [] := by
        rw [List.filter_eq_nil_iff]
        intro e member own
        exact old (beq_iff_eq.mp own ▸ serving.known e member)
      rw [other]
      rw [List.getElem?_append_right (Nat.not_lt.mp old)] at found
      exact idle link (List.mem_of_getElem? found)

theorem serving_connect {a b : NodeId} {latency : Time} {bandwidth : Nat} {ports : Nat × Nat}
    (serving : net.Serving past) (done : connect a b latency bandwidth net = .ok ports net') :
    net'.Serving past := by
  obtain ⟨na, nb, -, -, -, rfl⟩ := connect_eq_ok.mp done
  have linked : Serving { net with
      links := net.links ++ [Link.new a b (nb.ports.length + 1) latency bandwidth,
        Link.new b a (na.ports.length + 1) latency bandwidth] } past :=
    serving_links serving (by simp [Link.new])
  have length : (net.links ++ [Link.new a b (nb.ports.length + 1) latency bandwidth,
      Link.new b a (na.ports.length + 1) latency bandwidth]).length = net.links.length + 2 := by
    simp
  have wired := linked.wired
  rw [length] at wired
  refine ⟨?_, ?_, ?_⟩
  · rw [links_addPort, links_addPort, length]
    exact wired_addPort (wired_addPort wired (Nat.lt_add_of_pos_right (by decide)))
      (Nat.lt_succ_self _)
  · rw [links_addPort, links_addPort]
    exact linked.known
  · rw [links_addPort, links_addPort]
    exact linked.serves

theorem ports_setPipeline (n : Node) (pipeline : Pipeline) :
    (n.setPipeline pipeline).ports = n.ports := by
  unfold Node.setPipeline
  cases n.kind <;> rfl

theorem Built.serving (built : net.Built net') (serving : net.Serving past) : net'.Serving past := by
  cases built with
  | addHost name ip =>
    have listed : Serving { net with stats := net.stats.onHost name id } past :=
      serving.of_same rfl rfl
    exact serving_addNode listed name _
  | addSwitch id name pipeline => exact serving_addNode serving name _
  | setNumbering id numbering => cases id <;> exact serving.of_same rfl rfl
  | connect done => exact serving_connect serving done
  | command done =>
    rcases command_cases done with rfl | ⟨n, pipeline, found, rfl⟩
    · exact serving
    · exact serving.of_same rfl (ports_setNode found (ports_setPipeline n pipeline))
  | takeUid => exact serving.of_same rfl rfl
  | takeReports => exact serving.of_same rfl rfl

end Network

namespace NetworkSimulation

/-! ## Simulations and their histories -/

/-- What can be made to happen at once from outside. -/
inductive Outside : (Time → ActivityM Unit) → Prop where
  | send (node : NodeId) (frame : Frame) :
      Outside fun now => Activity.sendFromHost now node frame
  | transmit (node : NodeId) (port : Nat) (frame : Frame) :
      Outside fun now => Activity.transmit now node port frame
  | event (event : NetworkEvent) : Outside fun now => event.activity now

/-- The simulations that can be come to, with their histories and the events that they have executed: the
network is changed, something is done in it at once, events are scheduled, the first event is executed, and
the clock is moved on where nothing is due before. -/
inductive Recorded : NetworkSimulation → List Entry → List (Pending NetworkEvent) → Prop where
  | initial : Recorded initial [] []
  | build {s : NetworkSimulation} {history : List Entry} {executed : List (Pending NetworkEvent)}
      {net : Network} (past : Recorded s history executed) (built : s.network.Built net) :
      Recorded { s with network := net } history executed
  | happen {s : NetworkSimulation} {history : List Entry} {executed : List (Pending NetworkEvent)}
      {op : Time → ActivityM Unit} {after : Activity} {log : List (Option Transmission)}
      (past : Recorded s history executed) (outside : Outside op)
      (done : op s.scheduler.now ⟨s.network, []⟩ = .ok () after)
      (transmits : Activity.Transmits s.scheduler.now ⟨s.network, []⟩ log after) :
      Recorded ⟨s.scheduler.scheduleAll after.planned, after.network⟩
        (history ++ (s.scheduler.recorded after.planned).zip log) executed
  | schedule {s : NetworkSimulation} {history : List Entry} {executed : List (Pending NetworkEvent)}
      (past : Recorded s history executed) (planned : Planned NetworkEvent) :
      Recorded { s with scheduler := s.scheduler.schedule planned }
        (history ++ [(s.scheduler.pendingOf planned, none)]) executed
  | execute {s : NetworkSimulation} {history : List Entry} {executed : List (Pending NetworkEvent)}
      {isWanted : Time → Bool} {p : Pending NetworkEvent} {m : Scheduler NetworkEvent}
      {after : Activity} {log : List (Option Transmission)} (past : Recorded s history executed)
      (taken : s.scheduler.next? isWanted = some (p, m))
      (done : p.event.activity m.now ⟨s.network, []⟩ = .ok () after)
      (transmits : Activity.Transmits m.now ⟨s.network, []⟩ log after) :
      Recorded ⟨m.scheduleAll after.planned, after.network⟩
        (history ++ (m.recorded after.planned).zip log) (executed ++ [p])
  | wait {s : NetworkSimulation} {history : List Entry} {executed : List (Pending NetworkEvent)}
      (past : Recorded s history executed) (limit : Time)
      (later : ∀ p ∈ s.scheduler.queue, limit < p.due) :
      Recorded { s with scheduler := { s.scheduler with now := s.scheduler.now.later limit } }
        history executed

/-- What holds of a simulation with its history. -/
structure Serial (scheduler : Scheduler NetworkEvent) (net : Network) (history : List Entry)
    (executed : List (Pending NetworkEvent)) : Prop where
  orderly : scheduler.Orderly (history.map (·.1)) executed
  arrives : ∀ entry ∈ history, ∀ e ∈ entry.2, entry.1.due = e.arrival ∧ entry.1.event = e.event
  serving : net.Serving (history.filterMap (·.2))

variable {s after : NetworkSimulation} {scheduler : Scheduler NetworkEvent} {net : Network}
  {history : List Entry} {executed : List (Pending NetworkEvent)}

/-- The entries that come into the queue have their records. -/
theorem recorded_records {now : Time} {planned : List (Planned NetworkEvent)}
    {log : List (Option Transmission)}
    (records : List.Forall₂ (fun planned record => ∀ e ∈ record,
      planned.due = e.arrival ∧ planned.event = e.event ∧ e.start = now) planned log)
    (current : scheduler.now = now) :
    ((scheduler.recorded planned).zip log).map (·.1) = scheduler.recorded planned ∧
      ((scheduler.recorded planned).zip log).map (·.2) = log ∧
      ∀ entry ∈ (scheduler.recorded planned).zip log, ∀ e ∈ entry.2,
        entry.1.due = e.arrival ∧ entry.1.event = e.event := by
  induction records generalizing scheduler with
  | nil => exact ⟨rfl, rfl, by simp [Scheduler.recorded]⟩
  | @cons planned record rest log own records ih =>
    obtain ⟨first, second, others⟩ := @ih (scheduler.schedule planned) current
    rw [Scheduler.recorded, List.zip_cons_cons, List.map_cons, List.map_cons, first, second]
    refine ⟨rfl, rfl, List.forall_mem_cons.mpr ⟨?_, others⟩⟩
    intro e recorded
    obtain ⟨due, event, start⟩ := own e recorded
    refine ⟨?_, event⟩
    -- a frame does not arrive before it was given to the link, so it is due when it arrives
    show scheduler.now.later planned.due = e.arrival
    have notPast := e.start_le_arrival
    rw [due, current, ← start, ← Time.toNat_inj, Time.toNat_later]
    exact Nat.max_eq_right notPast

theorem Serial.transmits {after : Activity} {log : List (Option Transmission)}
    (serial : Serial scheduler net history executed)
    (transmits : Activity.Transmits scheduler.now ⟨net, []⟩ log after) :
    Serial (scheduler.scheduleAll after.planned) after.network
      (history ++ (scheduler.recorded after.planned).zip log) executed := by
  obtain ⟨new, planned, records⟩ := transmits.planned
  rw [List.nil_append] at planned
  rw [planned]
  obtain ⟨pending, record, arrives⟩ := recorded_records records rfl
  refine ⟨?_, ?_, ?_⟩
  · rw [List.map_append, pending]
    exact serial.orderly.scheduleAll new
  · exact List.forall_mem_append.mpr ⟨serial.arrives, arrives⟩
  · have served := transmits.serving serial.serving
    rw [List.filterMap_append]
    have same : ((scheduler.recorded new).zip log).filterMap (·.2) = log.filterMap id := by
      conv => rhs; rw [← record, List.filterMap_map]
      rfl
    rw [same]
    exact served

theorem Recorded.serial (past : Recorded s history executed) :
    Serial s.scheduler s.network history executed := by
  induction past with
  | initial =>
    refine ⟨Scheduler.orderly_empty, by simp, ⟨?_, by simp, ?_⟩⟩
    · intro n member
      cases member
    · intro id link found
      cases found
  | build _ built ih => exact ⟨ih.orderly, ih.arrives, built.serving ih.serving⟩
  | happen _ _ _ transmits ih => exact ih.transmits transmits
  | schedule _ planned ih =>
    refine ⟨?_, ?_, ?_⟩
    · rw [List.map_append]
      exact ih.orderly.schedule planned
    · exact List.forall_mem_append.mpr ⟨ih.arrives, by simp⟩
    · rw [List.filterMap_append]
      simpa using ih.serving
  | execute _ taken _ transmits ih =>
    exact Serial.transmits ⟨ih.orderly.take taken, ih.arrives, ih.serving⟩ transmits
  | wait _ limit later ih => exact ⟨ih.orderly.wait later, ih.arrives, ih.serving⟩

/-! ## What is done to a simulation extends its history -/

theorem Recorded.act_eq_ok {op : Time → ActivityM Unit} (past : Recorded s history executed)
    (outside : Outside op) (done : act op s = .ok () after) :
    ∃ more, Recorded after (history ++ more) executed := by
  obtain ⟨last, happened, rfl⟩ := NetworkSimulation.act_eq_ok done
  have uses : Activity.UsesLinks s.scheduler.now (op s.scheduler.now) := by
    cases outside with
    | send node frame => exact Activity.usesLinks_sendFromHost _ node frame
    | transmit node port frame => exact Activity.usesLinks_transmit _ node port frame
    | event event => exact Activity.usesLinks_event _ event
  obtain ⟨log, transmits⟩ := uses happened
  exact ⟨_, past.happen outside happened transmits⟩

theorem Recorded.executes {isWanted : Time → Bool} {new ran : List (Pending NetworkEvent)}
    {t : Scheduler NetworkEvent} {net' : Network} (past : Recorded ⟨scheduler, net⟩ history executed)
    (run : Scheduler.Executes Network.behaviour isWanted scheduler net new ran t net') :
    ∃ more, Recorded ⟨t, net'⟩ (history ++ more) (executed ++ ran) := by
  induction run generalizing history executed with
  | done => exact ⟨[], by simpa using past⟩
  | @next s m t w w' v p planned new ran taken happens _ ih =>
    obtain ⟨last, happened, network, planned⟩ := Balanced.perform_eq_ok happens
    obtain ⟨log, transmits⟩ := Activity.usesLinks_event m.now p.event happened
    have step := past.execute taken happened transmits
    rw [network, planned] at step
    obtain ⟨more, rest⟩ := ih step
    rw [List.append_assoc, List.append_assoc] at rest
    exact ⟨_, rest⟩

theorem Recorded.run_eq_ok (past : Recorded s history executed) (done : run s = .ok () after) :
    ∃ more ran, Recorded after (history ++ more) (executed ++ ran) ∧ after.scheduler.queue = [] := by
  obtain ⟨new, ran, events, none⟩ := Scheduler.runWhile_eq_ok (advance_eq_ok done)
  obtain ⟨more, further⟩ := past.executes events
  refine ⟨more, ran, further, ?_⟩
  cases queue : after.scheduler.queue with
  | nil => rfl
  | cons first rest =>
    have absurd := Scheduler.next?_eq_none.mp none first (by rw [queue]; rfl)
    cases absurd

theorem Recorded.runUntil_eq_ok {limit : Time} (past : Recorded s history executed)
    (done : runUntil limit s = .ok () after) :
    ∃ more ran, Recorded after (history ++ more) (executed ++ ran) ∧
      ∀ p ∈ after.scheduler.queue, limit < p.due := by
  obtain ⟨new, ran, last, events, none, moved⟩ := Scheduler.runUntil_eq_ok (advance_eq_ok done)
  obtain ⟨more, further⟩ := past.executes events
  have late := further.serial.orderly.all_late none
  refine ⟨more, ran, ?_, moved ▸ late⟩
  have waited := further.wait limit late
  rw [← moved] at waited
  exact waited

/-- Every simulation that can be reached can be come to with a history. -/
theorem Reachable.recorded (reachable : Reachable s) :
    ∃ history executed, Recorded s history executed := by
  induction reachable with
  | initial => exact ⟨_, _, .initial⟩
  | addHost _ name ip ih => exact ih.imp fun _ => .imp fun _ past => past.build (.addHost name ip)
  | newPipeline _ id _ ih =>
    exact ih.imp fun _ => .imp fun _ past => past.build (.setNumbering id _)
  | addSwitch _ id name pipeline ih =>
    exact ih.imp fun _ => .imp fun _ past => past.build (.addSwitch id name pipeline)
  | connect _ done ih => exact ih.imp fun _ => .imp fun _ past => past.build (.connect done)
  | command _ place line done ih =>
    exact ih.imp fun _ => .imp fun _ past => past.build (.command done)
  | takeUid _ ih => exact ih.imp fun _ => .imp fun _ past => past.build .takeUid
  | takeReports _ ih => exact ih.imp fun _ => .imp fun _ past => past.build .takeReports
  | send _ done ih =>
    obtain ⟨history, executed, past⟩ := ih
    obtain ⟨more, further⟩ := past.act_eq_ok (.send _ _) done
    exact ⟨_, _, further⟩
  | inject _ done ih =>
    obtain ⟨history, executed, past⟩ := ih
    cases done
    exact ⟨_, _, past.schedule _⟩
  | events _ ran ih =>
    obtain ⟨history, executed, past⟩ := ih
    obtain ⟨more, further⟩ := past.executes ran
    exact ⟨_, _, further⟩
  | run _ done ih =>
    obtain ⟨history, executed, past⟩ := ih
    obtain ⟨more, ran, further, -⟩ := past.run_eq_ok done
    exact ⟨_, _, further⟩
  | runUntil _ limit done ih =>
    obtain ⟨history, executed, past⟩ := ih
    obtain ⟨more, ran, further, -⟩ := past.runUntil_eq_ok done
    exact ⟨_, _, further⟩

/-! ## The order on a link -/

/-- What a link has done with the frames that it was given: all of them arrive at its other end; each
leaves when the one before has left and it has been sent, and arrives the latency later, as far as times
are below their bound; and the link never sends two frames at once. -/
structure Delivers (link : Link) (sent : List (Pending NetworkEvent × Transmission)) : Prop where
  target : ∀ p e, (p, e) ∈ sent → p.event = .deliver link.target link.targetPort e.frame
  leaves : ∀ previous p e,
    (previous, p, e) ∈ (Time.zero :: sent.map (·.2.departure)).zip sent →
    0 < link.bandwidth → e.departure.toNat < Time.maxNanos →
    e.departure.toNat = max e.start.toNat previous.toNat +
      (8 * 10 ^ 9 * e.frame.length) ⌈/⌉ link.bandwidth
  arrives : ∀ p e, (p, e) ∈ sent → p.due.toNat < Time.maxNanos →
    p.due.toNat = e.departure.toNat + link.latency.toNat
  apart : sent.Pairwise fun first second => first.2.departure ≤ second.2.begins

/-- How long a frame takes, as long as that is below the largest time. -/
theorem toNat_departure {e : Transmission} (bandwidth : 0 < e.before.bandwidth)
    (early : e.departure.toNat < Time.maxNanos) :
    e.departure.toNat = e.begins.toNat + (8 * 10 ^ 9 * e.frame.length) ⌈/⌉ e.before.bandwidth := by
  have bits : e.frame.length * 8 * 1000000000 + (e.before.bandwidth - 1) =
      8 * 10 ^ 9 * e.frame.length + e.before.bandwidth - 1 := by
    omega
  have same : e.departure = e.begins + Link.sendTime e.before.bandwidth e.frame.length := rfl
  rw [same, Link.sendTime, if_neg (Nat.ne_of_gt bandwidth), bits, Time.toNat_add,
    Time.toNat_ofNanos] at early ⊢
  rw [Nat.ceilDiv_eq_add_pred_div]
  omega

variable {id : LinkId} {link : Link}

theorem Serial.delivers (serial : Serial scheduler net history executed)
    (there : net.links[id]? = some link) : Delivers link (sentOn id history) := by
  have serves := serial.serving.serves id link there
  rw [← map_sentOn] at serves
  have before (p : Pending NetworkEvent) (e : Transmission) (member : (p, e) ∈ sentOn id history) :=
    serves.before_eq e (List.mem_map_of_mem member)
  have entry (p : Pending NetworkEvent) (e : Transmission) (member : (p, e) ∈ sentOn id history) :=
    serial.arrives _ (mem_sentOn.mp member).1 e rfl
  refine ⟨?_, ?_, ?_, ?_⟩
  · intro p e member
    rw [(entry p e member).2, Transmission.event, before p e member]
  · intro previous p e member bandwidth early
    obtain ⟨-, own⟩ := List.of_mem_zip member
    have found : e.before.freeAt = previous := by
      refine serves.freeAt_eq (previous, e) ?_
      rw [List.map_map, List.zip_map_right]
      exact List.mem_map_of_mem (f := Prod.map (fun t => t) Prod.snd) member
    have same : e.before.bandwidth = link.bandwidth := by rw [before p e own]
    rw [toNat_departure (same ▸ bandwidth) early, Transmission.begins, Time.toNat_later, found, same]
  · intro p e member early
    have same : e.before.latency = link.latency := by rw [before p e member]
    rw [(entry p e member).1, Transmission.arrival, same, Time.toNat_add] at early ⊢
    exact Nat.min_eq_left (Nat.le_of_lt (Nat.lt_of_not_le fun bound =>
      Nat.lt_irrefl _ (Nat.min_eq_right bound ▸ early)))
  · exact List.pairwise_map.mp serves.apart

/-- The arrivals of a link come in the order of the calls: none is due before an earlier one, and of those
that are due at one time the earlier has the smaller number. -/
theorem Serial.ascending (serial : Serial scheduler net history executed)
    (there : net.links[id]? = some link) :
    ((sentOn id history).map (·.1)).Pairwise Pending.before := by
  have serves := serial.serving.serves id link there
  rw [← map_sentOn] at serves
  have numbers : ((sentOn id history).map (·.1)).Pairwise (·.seq < ·.seq) := by
    refine List.Pairwise.sublist (sentOn_sublist id history) ?_
    rw [← List.pairwise_map, serial.orderly.numbered]
    exact List.pairwise_lt_range
  have arrivals := List.pairwise_map.mp serves.arrivals
  refine List.pairwise_map.mpr ((arrivals.and (List.pairwise_map.mp numbers)).imp_of_mem ?_)
  rintro ⟨p, e⟩ ⟨q, f⟩ pMem qMem ⟨notLater, older⟩
  refine Pending.before_of_older ?_ older
  rw [(serial.arrives _ (mem_sentOn.mp pMem).1 e rfl).1, (serial.arrives _ (mem_sentOn.mp qMem).1 f rfl).1]
  exact notLater

theorem Serial.inOrder (serial : Serial scheduler net history executed)
    (there : net.links[id]? = some link) :
    ((sentOn id history).map (·.1)).Sublist (executed ++ scheduler.queue) := by
  have : Std.Antisymm (α := Pending NetworkEvent) Pending.before :=
    ⟨fun p q pq qp => by rw [Pending.before_iff] at *; omega⟩
  refine List.sublist_of_subperm_of_pairwise ?_ (serial.ascending there) serial.orderly.ascending
  exact (sentOn_sublist id history).subperm.trans serial.orderly.exactlyOnce.symm.subperm

/-- Links deliver in order and send one frame at a time. In every simulation with a history, the frames that
a link was given arrive in the order of the calls, those that have arrived before those that will; and each
leaves and arrives when it should. Whatever is made to happen and every run only make the history longer,
so this stays so, and after a run to the end all of them have arrived. Events are numbered without end here;
where their numbers have 64 bits, fewer than 2^64 of them can be in the history. -/
theorem links_deliver_in_order (past : Recorded s history executed) :
    (∀ id link, s.network.links[id]? = some link →
      ((sentOn id history).map (·.1)).Sublist (executed ++ s.scheduler.queue) ∧
        Delivers link (sentOn id history)) ∧
    (∀ op after, Outside op → act op s = .ok () after →
      ∃ more, Recorded after (history ++ more) executed) ∧
    (∀ isWanted new ran scheduler net,
      Scheduler.Executes Network.behaviour isWanted s.scheduler s.network new ran scheduler net →
      ∃ more, Recorded ⟨scheduler, net⟩ (history ++ more) (executed ++ ran)) ∧
    (∀ after, run s = .ok () after → ∃ more ran,
      Recorded after (history ++ more) (executed ++ ran) ∧
      ∀ id link, after.network.links[id]? = some link →
        ((sentOn id (history ++ more)).map (·.1)).Sublist (executed ++ ran)) ∧
    (∀ limit after, runUntil limit s = .ok () after → ∃ more ran,
      Recorded after (history ++ more) (executed ++ ran) ∧
      ∀ p ∈ after.scheduler.queue, limit < p.due) := by
  refine ⟨?links, ?outside, ?stretch, ?run, ?runUntil⟩
  case links =>
    intro id link there
    exact ⟨past.serial.inOrder there, past.serial.delivers there⟩
  case outside =>
    intro op after outside done
    exact past.act_eq_ok outside done
  case stretch =>
    intro isWanted new ran scheduler net events
    exact past.executes events
  case run =>
    intro after done
    obtain ⟨more, ran, further, empty⟩ := past.run_eq_ok done
    refine ⟨more, ran, further, ?_⟩
    intro id link there
    have order := further.serial.inOrder there
    rwa [empty, List.append_nil] at order
  case runUntil =>
    intro limit after done
    exact past.runUntil_eq_ok done

/-- Two frames that a host gives to its link at once, the second of them empty, and the events of a run. Both
are due at one time, and arrive in the order of the calls. -/
theorem links_deliver_in_order_tied :
    ∃ s history executed link, Recorded s history executed ∧ s.network.links[0]? = some link ∧
      (((sentOn 0 history).map (·.1)).Sublist (executed ++ s.scheduler.queue) ∧
        Delivers link (sentOn 0 history)) ∧
      (sentOn 0 history).map (fun sent => (sent.1.seq, sent.2.departure.toNat, sent.1.due.toNat)) =
        [(0, 3, 8), (1, 3, 8)] ∧
      executed.map (·.seq) = [0, 1] := by
  have hosts := (Recorded.initial.build (.addHost "a" (.v4 (.ofNat 1)))).build
    (.addHost "b" (.v4 (.ofNat 2)))
  have cabled := hosts.build
    (.connect (show Network.connect 0 1 (.ofNanos 5) 8000000000 _ = .ok _ _ from rfl))
  have first := cabled.happen (.transmit 0 1 (Frame.ofBytes 0 [1, 2, 3])) rfl
    (.transmit (show Activity.outgoing 0 1 _ = .ok _ _ from rfl)
      (show Activity.transmit _ 0 1 (Frame.ofBytes 0 [1, 2, 3]) _ = .ok _ _ from rfl))
  have second := first.happen (.transmit 0 1 (Frame.ofBytes 1 [])) rfl
    (.transmit (show Activity.outgoing 0 1 _ = .ok _ _ from rfl)
      (show Activity.transmit _ 0 1 (Frame.ofBytes 1 []) _ = .ok _ _ from rfl))
  have arrived := second.execute (show Scheduler.next? _ (fun _ => true) = some _ from rfl) rfl
    (.quiet rfl rfl rfl)
  have both := arrived.execute (show Scheduler.next? _ (fun _ => true) = some _ from rfl) rfl
    (.quiet rfl rfl rfl)
  exact ⟨_, _, _, _, both, rfl, (links_deliver_in_order both).1 0 _ rfl, by decide +kernel, rfl⟩

end NetworkSimulation

end Switchyard
