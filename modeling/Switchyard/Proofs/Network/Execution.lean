import Switchyard.Proofs.Network.Balance

/-!
# Carrying out what happens

What transmissions, deliveries and injections come to where nothing is in their way: the port is connected,
the node is there and free, the pipeline has an answer, the addresses are of one family.
-/

namespace Switchyard

open Sequencing

namespace Activity

variable {s t : Activity} {now : Time} {id : NodeId} {n : Node} {port : Nat} {frame : Frame}

theorem requireNode_of_found (found : s.network.node? id = some n) :
    onNetwork (Network.requireNode id) s = .ok n s :=
  (looksUp_requireNode id).found found

/-- A port that is connected gives the frame to its link. -/
theorem transmit_of_link {place : LinkId} {link : Link} (found : s.network.node? id = some n)
    (connected : n.ports[port]? = some place) (there : s.network.links[place]? = some link) :
    transmit now id (port + 1) frame s = .ok ()
      ⟨{ s.network with links := s.network.links.set place (link.send now frame.length).1 },
        s.planned ++ [⟨(link.send now frame.length).2,
          .deliver link.target link.targetPort frame⟩]⟩ := by
  have out : outgoing id (port + 1) s = .ok (some place) s := by
    unfold outgoing
    rw [if_neg (Nat.succ_ne_zero port), state_bind_of_ok (requireNode_of_found found),
      Nat.add_sub_cancel, connected]
    rfl
  have same : s.network.links.getD place default = link := by
    rw [List.getD_eq_getElem?_getD, there, Option.getD_some]
  rw [← same]
  unfold transmit
  rw [state_bind_of_ok out]
  rfl

/-- There is no port zero. -/
theorem transmit_zero : transmit now id 0 frame s = .ok ()
    ⟨{ s.network with stats := s.network.stats.countDropped }, s.planned⟩ := rfl

/-- A host sends by its one port. -/
theorem sendFromHost_of_link {place : LinkId} {link : Link} (found : s.network.node? id = some n)
    (connected : n.ports[0]? = some place) (there : s.network.links[place]? = some link) :
    sendFromHost now id frame s = .ok ()
      ⟨{ s.network with
          links := s.network.links.set place (link.send now frame.length).1
          stats := s.network.stats.onHost n.name (·.countSent frame.length) },
        s.planned ++ [⟨(link.send now frame.length).2,
          .deliver link.target link.targetPort frame⟩]⟩ := by
  let counted : Activity := { s with
    network := { s.network with
      stats := s.network.stats.onHost n.name (·.countSent frame.length) } }
  unfold sendFromHost
  rw [state_bind_of_ok (requireNode_of_found found)]
  exact transmit_of_link (s := counted) found connected there

/-- The counts of a frame that a host received under way for so many nanoseconds. -/
theorem receive_of_sent {name : String} {sent : Time} (tagged : frame.sent? = some sent)
    (fits : s.network.stats.totalLatency + (now.toNat - sent.toNat) ≤ Time.maxNanos) :
    receive now name frame s = .ok ()
      { s with network := { s.network with
        stats := (s.network.stats.countDelivered name frame.length).countLatency
          (now.toNat - sent.toNat) } } := by
  let counted : Activity := { s with network := { s.network with
    stats := (s.network.stats.countDelivered name frame.length).countLatency
      (now.toNat - sent.toNat) } }
  have small : ¬Time.maxNanos < counted.network.stats.totalLatency := Nat.not_lt.mpr fits
  have last : (if Time.maxNanos < counted.network.stats.totalLatency then
      throw Fault.latencyOverflow else pure () : ActivityM Unit) counted = .ok () counted := by
    rw [if_neg small]
    rfl
  unfold receive countLatency
  simp only [tagged]
  exact last

/-- A free node handles what is delivered, and is free again. -/
theorem deliver_of_handle (found : s.network.node? id = some n) (idle : n.busy = false)
    (handled : handle now id n port frame { s with network := s.network.setBusy id true } = .ok () t)
    (kept : t.network.nodes = (s.network.setBusy id true).nodes) :
    deliver now id port frame s = .ok () { t with
      network := { t.network with nodes := s.network.nodes } } := by
  have still : t.network.node? id = some { n with busy := true } := by
    rw [Network.node?, kept, Network.setBusy_eq found]
    exact List.getElem?_set_self (List.getElem?_eq_some_iff.mp found).1
  have freed : t.network.setBusy id false = { t.network with nodes := s.network.nodes } := by
    rw [Network.setBusy_eq still, kept, Network.setBusy_eq found]
    exact congrArg (fun nodes => { t.network with nodes := nodes }) (set_busy_free found idle)
  rw [← freed]
  unfold deliver
  rw [state_bind_of_ok (requireNode_of_found found), if_neg (by simp [idle])]
  show ((change (·.setBusy id true)) >>= fun _ => _) s = _
  rw [state_bind_of_ok (show change (·.setBusy id true) s = .ok () _ from rfl),
    state_bind_of_ok handled]
  rfl

/-- A host receives what is delivered. -/
theorem deliver_host {ip : IpAddr} {mac : MacAddr} {sent : Time} (found : s.network.node? id = some n)
    (idle : n.busy = false) (host : n.kind = .host ip mac) (tagged : frame.sent? = some sent)
    (fits : s.network.stats.totalLatency + (now.toNat - sent.toNat) ≤ Time.maxNanos) :
    deliver now id port frame s = .ok ()
      { s with network := { s.network with
        stats := (s.network.stats.countDelivered n.name frame.length).countLatency
          (now.toNat - sent.toNat) } } := by
  have marked := Network.setBusy_eq found true
  have received : receive now n.name frame { s with network := s.network.setBusy id true } = .ok () _ :=
    receive_of_sent tagged (by rw [marked]; exact fits)
  have handled : handle now id n port frame { s with network := s.network.setBusy id true } =
      receive now n.name frame { s with network := s.network.setBusy id true } := by
    unfold handle
    rw [host]
  rw [deliver_of_handle found idle (handled.trans received) rfl, marked]

/-- A switch sends what its pipeline answers with. -/
theorem forward_of_emitted {name : String} {pipeline : Pipeline} {own : NumberingId}
    {outcome : Outcome} {numbering : Numbering}
    (processed : pipeline.process frame port now (s.network.numberingOf own) = .ok outcome numbering)
    (emitted : outcome.emissions.forM (emit now id)
      { s with network :=
        { ({ s.network with stats := s.network.stats.countSwitchReceived }).setNumbering own
            numbering with
          reports := s.network.reports ++ outcome.reports } } = .ok () t) :
    forward now id name pipeline own port frame s = .ok () t := by
  let counted : Activity := { s with
    network := { s.network with stats := s.network.stats.countSwitchReceived } }
  have same : counted.network.numberingOf own = s.network.numberingOf own := by cases own <;> rfl
  have answered : process now name pipeline own port frame counted = .ok outcome.emissions
      { s with network :=
        { ({ s.network with stats := s.network.stats.countSwitchReceived }).setNumbering own
            numbering with
          reports := s.network.reports ++ outcome.reports } } := by
    have shown : pipeline.process frame port now (counted.network.numberingOf own) =
        .ok outcome numbering := by
      rw [same, processed]
    unfold process
    rw [get_bind]
    simp only [shown]
    cases own <;> rfl
  unfold forward
  rw [state_bind_of_ok (show count Stats.countSwitchReceived s = .ok () counted from rfl),
    state_bind_of_ok answered]
  exact emitted

/-- A flow that has frames left sends the next one, and plans the one after it. -/
theorem inject_of_link {flow : Flow} {left : Nat} {ip : IpAddr} {mac : MacAddr} {place : LinkId}
    {link : Link} (more : flow.remaining = left + 1)
    (found : s.network.node? flow.source = some n) (host : n.kind = .host ip mac)
    (fits : flow.payloadBytes ip ≤ Network.maxBytes)
    (next : flow.nextFrame? now s.network.nextUid.toNat ip mac
      { s.network with nextUid := s.network.nextUid + 1 } = some frame)
    (connected : n.ports[0]? = some place) (there : s.network.links[place]? = some link) :
    flow.inject now s = .ok ()
      ⟨{ s.network with
          nextUid := s.network.nextUid + 1
          links := s.network.links.set place (link.send now frame.length).1
          stats := s.network.stats.onHost n.name (·.countSent frame.length) },
        s.planned ++ [⟨(link.send now frame.length).2,
          .deliver link.target link.targetPort frame⟩] ++
            if 0 < left then [⟨now + flow.gap, .inject { flow with remaining := left }⟩] else []⟩ := by
  have address : s.network.host? flow.source = some (ip, mac) :=
    Network.host?_of_node? found (by rw [Node.host?, host])
  have sent : sendFromHost now flow.source frame
      { s with network := { s.network with nextUid := s.network.nextUid + 1 } } = .ok () _ :=
    sendFromHost_of_link found connected there
  unfold Flow.inject
  rw [get_bind]
  simp only [more, address, if_neg (Nat.not_lt.mpr fits), Network.takeUid, next]
  rw [state_bind_of_ok (show change (fun _ => { s.network with nextUid := s.network.nextUid + 1 }) s =
    .ok () _ from rfl), state_bind_of_ok sent]
  by_cases another : 0 < left
  · rw [if_pos another, if_pos another]
    rfl
  · rw [if_neg another, if_neg another, List.append_nil]
    rfl

/-- A node that is there can always send: what comes to no port is lost. -/
theorem exists_transmit (found : s.network.node? id = some n) (now : Time) (port : Nat) (frame : Frame) :
    ∃ t, transmit now id port frame s = .ok () t := by
  have out : ∃ place, outgoing id port s = .ok place s := by
    unfold outgoing
    split
    · exact ⟨none, rfl⟩
    · rw [state_bind_of_ok (requireNode_of_found found)]
      exact ⟨_, rfl⟩
  obtain ⟨place, out⟩ := out
  unfold transmit
  rw [state_bind_of_ok out]
  cases place with
  | none => exact ⟨_, rfl⟩
  | some place => exact ⟨_, rfl⟩

theorem exists_sendFromHost (found : s.network.node? id = some n) (now : Time) (frame : Frame) :
    ∃ t, sendFromHost now id frame s = .ok () t := by
  let counted : Activity := { s with
    network := { s.network with
      stats := s.network.stats.onHost n.name (·.countSent frame.length) } }
  unfold sendFromHost
  rw [state_bind_of_ok (requireNode_of_found found)]
  exact exists_transmit (s := counted) found now 1 frame

/-- An injection does not fail if its payload fits the memory. -/
theorem exists_inject {flow : Flow}
    (fits : ∀ ip mac, s.network.host? flow.source = some (ip, mac) →
      flow.payloadBytes ip ≤ Network.maxBytes) (now : Time) :
    ∃ t, flow.inject now s = .ok () t := by
  unfold Flow.inject
  rw [get_bind]
  cases more : flow.remaining with
  | zero => exact ⟨_, rfl⟩
  | succ left =>
    cases host : s.network.host? flow.source with
    | none => exact ⟨_, rfl⟩
    | some address =>
      obtain ⟨n, found, -⟩ := Option.bind_eq_some_iff.mp host
      let numbered : Activity :=
        { s with network := { s.network with nextUid := s.network.nextUid + 1 } }
      simp only [if_neg (Nat.not_lt.mpr (fits address.1 address.2 host)), Network.takeUid]
      rw [state_bind_of_ok (show change (fun _ => { s.network with
        nextUid := s.network.nextUid + 1 }) s = .ok () numbered from rfl)]
      cases next : flow.nextFrame? now s.network.nextUid.toNat address.1 address.2
          { s.network with nextUid := s.network.nextUid + 1 } with
      | none => exact ⟨_, rfl⟩
      | some frame =>
        obtain ⟨m, sent⟩ := exists_sendFromHost (s := numbered) found now frame
        dsimp only
        rw [state_bind_of_ok sent]
        split
        · exact ⟨_, rfl⟩
        · exact ⟨_, rfl⟩

theorem inject_of_long {flow : Flow} {left : Nat} {ip : IpAddr} {mac : MacAddr}
    (more : flow.remaining = left + 1) (host : s.network.host? flow.source = some (ip, mac))
    (long : Network.maxBytes < flow.payloadBytes ip) (now : Time) :
    flow.inject now s = .error (.payloadTooLong (flow.payloadBytes ip)) s := by
  unfold Flow.inject
  rw [get_bind]
  simp only [more, host, if_pos long]
  rfl

/-- It fails for no other reason, and not if nothing is left to send. -/
theorem exists_inject_iff {flow : Flow} {now : Time} :
    (∃ t, flow.inject now s = .ok () t) ↔ flow.remaining = 0 ∨
      ∀ ip mac, s.network.host? flow.source = some (ip, mac) →
        flow.payloadBytes ip ≤ Network.maxBytes := by
  constructor
  · rintro ⟨t, done⟩
    cases more : flow.remaining with
    | zero => exact .inl rfl
    | succ left =>
      refine .inr fun ip mac host => Nat.le_of_not_lt fun long => ?_
      cases done.symm.trans (inject_of_long more host long now)
  · rintro (nothing | fits)
    · unfold Flow.inject
      rw [get_bind, nothing]
      exact ⟨_, rfl⟩
    · exact exists_inject fits now

end Activity

end Switchyard
