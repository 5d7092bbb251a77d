import Switchyard.Proofs.Network.Execution
import Switchyard.Proofs.Star.Building

/-!
# What the switch of a star sends

The switch sends what its pipeline answers with, one frame after another, each by a link of its own. As long
as these links are free, all the frames leave at the same time.
-/

namespace Switchyard

open Sequencing

namespace Star

variable {options : StarOptions} {count : Nat} {now late : Time}

/-- Every link down from the switch is free by a time, and those of some ports are free already. -/
def FreeBy (options : StarOptions) (count : Nat) (now late : Time) (ports : List Nat) (net : Network) :
    Prop :=
  ∀ i < count, ∃ free, net.links[2 * i + 1]? = some { downlink options i with freeAt := free } ∧
    free ≤ late ∧ (i + 1 ∈ ports → free ≤ now)

/-- The events that frames sent by the switch come to. -/
def arrivals (due : Time) (emissions : List Emission) : List (Planned NetworkEvent) :=
  (emissions.filter (·.port ≠ 0)).map fun e => ⟨due, .deliver e.port 1 e.frame⟩

/-- The switch has sent frames: all but those for port zero are on their ways, and nothing else has changed
but the links down. -/
structure Emitted (options : StarOptions) (count : Nat) (late : Time) (emissions : List Emission)
    (s t : Activity) : Prop where
  nodes : t.network.nodes = s.network.nodes
  uplinks : ∀ i, t.network.links[2 * i]? = s.network.links[2 * i]?
  downlinks : FreeBy options count late late [] t.network
  stats : t.network.stats = { s.network.stats with
    switchSent := s.network.stats.switchSent + emissions.length
    droppedNoPort := s.network.stats.droppedNoPort + (emissions.map (·.port)).count 0 }
  planned : t.planned = s.planned ++ arrivals (late + options.latency) emissions

variable {n : Node} {s : Activity} {e : Emission} {rest : List Emission}

/-- A link that is free begins to send at once. -/
theorem send_downlink {i bytes : Nat} {free : Time} (isFree : free ≤ now) :
    ({ downlink options i with freeAt := free } : Link).send now bytes =
      ({ downlink options i with freeAt := now + Link.sendTime options.bandwidth bytes },
        now + Link.sendTime options.bandwidth bytes + options.latency) := by
  have begins : now.later free = now := by
    rw [← Time.toNat_inj, Time.toNat_later]
    exact Nat.max_eq_left isFree
  have leaves : ({ downlink options i with freeAt := free } : Link).departure now bytes =
      now + Link.sendTime options.bandwidth bytes := by
    show now.later free + Link.sendTime options.bandwidth bytes = _
    rw [begins]
  rw [Link.send, leaves]
  rfl

/-- One frame. -/
theorem emit_eq (found : s.network.node? 0 = some n)
    (wired : ∀ i < count, n.ports[i]? = some (2 * i + 1)) (inside : e.port ≤ count)
    (leaves : late = now + Link.sendTime options.bandwidth e.frame.length)
    (apart : e.port ∉ rest.map (·.port))
    (free : FreeBy options count now late ((e :: rest).map (·.port)) s.network) :
    ∃ t, Activity.emit now 0 e s = .ok () t ∧ t.network.nodes = s.network.nodes ∧
      (∀ i, t.network.links[2 * i]? = s.network.links[2 * i]?) ∧
      FreeBy options count now late (rest.map (·.port)) t.network ∧
      t.network.stats = { s.network.stats with
        switchSent := s.network.stats.switchSent + 1
        droppedNoPort := s.network.stats.droppedNoPort + [e.port].count 0 } ∧
      t.planned = s.planned ++ arrivals (late + options.latency) [e] := by
  obtain ⟨port, frame⟩ := e
  let counted : Activity := { s with
    network := { s.network with stats := s.network.stats.countSwitchSent } }
  have counting : Activity.count Stats.countSwitchSent s = .ok () counted := rfl
  cases port with
  | zero =>
    refine ⟨_, state_bind_eq_ok.mpr ⟨_, _, counting, Activity.transmit_zero⟩, rfl, fun i => rfl, ?_, rfl,
      (List.append_nil _).symm⟩
    intro i below
    obtain ⟨since, there, early, ready⟩ := free i below
    exact ⟨since, there, early, fun member => ready (List.mem_cons_of_mem _ member)⟩
  | succ i =>
    have below : i < _ := inside
    obtain ⟨since, there, -, ready⟩ := free i below
    have isFree := ready List.mem_cons_self
    have bound := (List.getElem?_eq_some_iff.mp there).1
    have sent : Activity.transmit now 0 (i + 1) frame counted = .ok () _ :=
      Activity.transmit_of_link found (wired i below) there
    rw [send_downlink isFree, ← leaves] at sent
    refine ⟨_, state_bind_eq_ok.mpr ⟨_, _, counting, sent⟩, rfl, ?_, ?_, rfl, rfl⟩
    · intro j
      exact List.getElem?_set_ne (by omega)
    · intro j jBelow
      by_cases same : j = i
      · subst same
        exact ⟨late, List.getElem?_set_self bound, Nat.le_refl _, fun member => absurd member apart⟩
      · obtain ⟨since, there, early, ready⟩ := free j jBelow
        refine ⟨since, ?_, early, fun member => ready (List.mem_cons_of_mem _ member)⟩
        exact (List.getElem?_set_ne (by omega)).trans there

/-- All of them, if no two go by one port. -/
theorem emitAll_eq {emissions : List Emission} {length : Nat} (found : s.network.node? 0 = some n)
    (wired : ∀ i < count, n.ports[i]? = some (2 * i + 1))
    (inside : ∀ e ∈ emissions, e.port ≤ count) (same : ∀ e ∈ emissions, e.frame.length = length)
    (distinct : (emissions.map (·.port)).Nodup)
    (leaves : late = now + Link.sendTime options.bandwidth length)
    (free : FreeBy options count now late (emissions.map (·.port)) s.network) :
    ∃ t, emissions.forM (Activity.emit now 0) s = .ok () t ∧
      Emitted options count late emissions s t := by
  induction emissions generalizing s with
  | nil =>
    refine ⟨s, rfl, rfl, fun i => rfl, ?_, rfl, (List.append_nil _).symm⟩
    intro i below
    obtain ⟨since, there, early, -⟩ := free i below
    exact ⟨since, there, early, fun member => absurd member List.not_mem_nil⟩
  | cons e rest ih =>
    obtain ⟨apart, others⟩ := List.nodup_cons.mp distinct
    obtain ⟨own, inRest⟩ := List.forall_mem_cons.mp inside
    obtain ⟨ownLength, restLength⟩ := List.forall_mem_cons.mp same
    obtain ⟨m, first, nodes, uplinks, links, stats, planned⟩ :=
      emit_eq found wired own (ownLength ▸ leaves) apart free
    have still : m.network.node? 0 = some n := by
      rw [Network.node?, nodes]
      exact found
    obtain ⟨t, last, emitted⟩ := ih still inRest restLength others links
    refine ⟨t, ?_, emitted.nodes.trans nodes, fun i => (emitted.uplinks i).trans (uplinks i),
      emitted.downlinks, ?_, ?_⟩
    · rw [List.forM_eq_forM, List.forM_cons]
      exact state_bind_eq_ok.mpr ⟨_, _, first, last⟩
    · rw [emitted.stats, stats]
      simp only [List.map_cons, List.length_cons, List.count_cons, List.count_nil]
      congr 1 <;> omega
    · rw [emitted.planned, planned, List.append_assoc, arrivals, arrivals, ← List.map_append,
        ← List.filter_append]
      rfl

/-- The switch handles a frame: it sends what its pipeline answers with. -/
theorem deliver_switch {pipeline : Pipeline} {net : Network} {port length : Nat} {frame : Frame}
    {outcome : Outcome} {after : Numbering}
    (found : net.node? 0 = some (switchNode pipeline count))
    (processed : pipeline.process frame port now net.numbering = .ok outcome after)
    (inside : ∀ e ∈ outcome.emissions, e.port ≤ count)
    (same : ∀ e ∈ outcome.emissions, e.frame.length = length)
    (distinct : (outcome.emissions.map (·.port)).Nodup)
    (leaves : late = now + Link.sendTime options.bandwidth length)
    (free : FreeBy options count now late (outcome.emissions.map (·.port)) net) :
    ∃ t, Activity.deliver now 0 port frame ⟨net, []⟩ = .ok () t ∧
      Emitted options count late outcome.emissions
        ⟨{ net with stats := net.stats.countSwitchReceived }, []⟩ t := by
  let busy : Network :=
    { net with nodes := net.nodes.set 0 { switchNode pipeline count with busy := true } }
  let numbered : Network := { busy with
    stats := net.stats.countSwitchReceived
    numbering := after
    reports := net.reports ++ outcome.reports }
  have marked : net.setBusy 0 true = busy := Network.setBusy_eq found true
  have still : numbered.node? 0 = some { switchNode pipeline count with busy := true } :=
    List.getElem?_set_self (List.getElem?_eq_some_iff.mp found).1
  have wired : ∀ i < count, (switchNode pipeline count).ports[i]? = some (2 * i + 1) := by
    intro i below
    show ((List.range count).map (2 * · + 1))[i]? = _
    rw [List.getElem?_map, List.getElem?_range below]
    rfl
  obtain ⟨t, sent, emitted⟩ :=
    emitAll_eq (s := ⟨numbered, []⟩) still wired inside same distinct leaves free
  have handled : Activity.handle now 0 (switchNode pipeline count) port frame
      ⟨net.setBusy 0 true, []⟩ = .ok () t := by
    rw [marked]
    show Activity.forward now 0 _ pipeline .shared port frame ⟨busy, []⟩ = .ok () t
    exact Activity.forward_of_emitted processed sent
  have kept : t.network.nodes = (net.setBusy 0 true).nodes := by
    rw [marked]
    exact emitted.nodes
  refine ⟨_, Activity.deliver_of_handle (s := ⟨net, []⟩) found rfl handled kept, rfl, emitted.uplinks,
    emitted.downlinks, emitted.stats, emitted.planned⟩

end Star

end Switchyard
