import Switchyard.Proofs.Star.Emission
import Switchyard.Proofs.Star.Tally

/-!
# The progress of a flow through a star

Three things happen while a flow passes through a star: its host sends the next frame, a frame comes up to the
switch, and a copy comes down to a host. Each finds the network as the timetable says, and leaves it so.
-/

namespace Switchyard

open Sequencing

/-- What happens in a network, if it succeeds. -/
theorem Network.perform_of_ok {net : Network} {op : ActivityM Unit} {t : Activity}
    (done : op ⟨net, []⟩ = .ok () t) : net.perform op = .ok (t.network, t.planned) := by
  rw [perform, done]

namespace Star

namespace Passage

open Timetable

/-- The network when a flow has come so far. -/
structure Stands (c : Passage) (x : Stage) (net : Network) : Prop where
  nodes : net.nodes = starNodes c.pipeline c.options c.options.hosts
  uplink : ∃ free, net.links[2 * c.source]? = some { uplink c.options c.source with freeAt := free } ∧
    (x.sent < c.flow.remaining → max (c.sentAt x.sent) free.toNat = c.beginsAt x.sent)
  downlinks : ∃ late, FreeBy c.options c.options.hosts late late [] net ∧
    late.toNat ≤ c.risenAt x.handled
  tally : c.Tally x.handled x.falling net.stats
  within : x.sent ≤ c.flow.remaining
  rising : ∀ entry ∈ x.rising.zipIdx x.handled,
    c.flow.Carries c.ip (.ofNanos (c.sentAt entry.2)) entry.1
  falling : ∀ entry ∈ x.falling, entry.1 < x.handled ∧ entry.2.1 ∈ c.connected ∧
    entry.2.2.sent? = some (.ofNanos (c.sentAt entry.1))

variable {c : Passage} {x : Stage} {net : Network} {k handled port : Nat} {frame : Frame}
  {rising : List Frame} {falling rest : List (Nat × Nat × Frame)}

/-- The order of what is falling does not matter. -/
theorem Stands.reorder (stands : c.Stands ⟨handled, rising, falling⟩ net) (perm : falling.Perm rest) :
    c.Stands ⟨handled, rising, rest⟩ net where
  nodes := stands.nodes
  uplink := stands.uplink
  downlinks := stands.downlinks
  tally := stands.tally.reorder perm
  within := stands.within
  rising := stands.rising
  falling entry member := stands.falling entry (perm.mem_iff.mpr member)

/-! ## A host sends -/

/-- The injection after so many frames, if there is one. -/
def upcoming (c : Passage) (k : Nat) : List (Planned NetworkEvent) :=
  if k < c.flow.remaining then [⟨.ofNanos (c.sentAt k), .inject (c.rest k)⟩] else []

/-- The link of the host keeps to the timetable. -/
theorem send_uplink {free : Time} (fits : c.sentAt k ≤ Time.maxNanos)
    (begins : max (c.sentAt k) free.toNat = c.beginsAt k) (latest : c.risenAt k ≤ Time.maxNanos) :
    ({ uplink c.options c.source with freeAt := free } : Link).send (.ofNanos (c.sentAt k))
        (c.flow.frameLength c.ip) =
      ({ uplink c.options c.source with freeAt := .ofNanos (c.beginsAt k + c.sending) },
        .ofNanos (c.risenAt k)) := by
  unfold risenAt at *
  have leaves : ({ uplink c.options c.source with freeAt := free } : Link).departure
      (.ofNanos (c.sentAt k)) (c.flow.frameLength c.ip) = .ofNanos (c.beginsAt k + c.sending) := by
    show Time.ofNanos (((Time.ofNanos (c.sentAt k)).later free).toNat + c.sending) = _
    rw [Time.toNat_later, Time.toNat_ofNanos_of_le fits, begins]
  have arrives : (Time.ofNanos (c.beginsAt k + c.sending) + c.options.latency) =
      .ofNanos (c.beginsAt k + c.sending + c.latency) := by
    show Time.ofNanos ((Time.ofNanos (c.beginsAt k + c.sending)).toNat + c.latency) = _
    rw [Time.toNat_ofNanos_of_le (by omega)]
  rw [Link.send, leaves]
  exact Prod.ext rfl arrives

/-- What a host plans when it sends a frame is the injection of the next one. -/
theorem planned_upcoming (fits : c.sentAt k ≤ Time.maxNanos) :
    (if 0 < c.flow.remaining - (k + 1) then
      [(⟨.ofNanos (c.sentAt k) + (c.rest k).gap,
        .inject { c.rest k with remaining := c.flow.remaining - (k + 1) }⟩ : Planned NetworkEvent)]
      else []) = c.upcoming (k + 1) := by
  have due : Time.ofNanos (c.sentAt k) + (c.rest k).gap = .ofNanos (c.sentAt (k + 1)) := by
    show Time.ofNanos ((Time.ofNanos (c.sentAt k)).toNat + c.flow.gap.toNat) = _
    rw [Time.toNat_ofNanos_of_le fits, sentAt_succ]
  rw [due, upcoming]
  by_cases another : k + 1 < c.flow.remaining
  · rw [if_pos another, if_pos (by omega)]
    rfl
  · rw [if_neg another, if_neg (by omega)]

/-- A host sends the next frame, and plans the one after it. -/
theorem Stands.inject (stands : c.Stands x net) (sound : c.Sound)
    (more : x.sent < c.flow.remaining) :
    ∃ frame net', net.perform ((c.rest x.sent).inject (.ofNanos (c.sentAt x.sent))) =
        .ok (net', ⟨.ofNanos (c.risenAt x.sent), .deliver 0 (c.source + 1) frame⟩ ::
          c.upcoming (x.sent + 1)) ∧
      c.Stands { x with rising := x.rising ++ [frame] } net' := by
  have fits := sound.sentAt_le more
  have family : c.ip.isV4 = (c.rest x.sent).destination.isV4 := sound.family
  obtain ⟨frame, next, length, sent, passable⟩ := Flow.exists_nextFrame family
    (.ofNanos (c.sentAt x.sent)) net.nextUid.toNat (MacAddr.ofIndex (c.source + 1))
    { net with nextUid := net.nextUid + 1 }
  have carries : c.flow.Carries c.ip (.ofNanos (c.sentAt x.sent)) frame := ⟨length, sent, passable⟩
  obtain ⟨free, there, begins⟩ := stands.uplink
  have found : net.node? (c.rest x.sent).source = some (hostNode c.options c.source) := by
    show net.nodes[c.flow.source]? = _
    rw [stands.nodes, sound.sends]
    exact getElem?_starNodes_host sound.source
  have left : (c.rest x.sent).remaining = c.flow.remaining - (x.sent + 1) + 1 := by
    show c.flow.remaining - x.sent = _
    omega
  have done := Activity.inject_of_link (s := ⟨net, []⟩) left found rfl sound.fits next rfl there
  have bytes : frame.length = c.flow.frameLength c.ip := length
  rw [planned_upcoming fits, bytes, send_uplink fits (begins more) (sound.risenAt_le more)] at done
  refine ⟨frame, _, Network.perform_of_ok done, ?_⟩
  have bound := (List.getElem?_eq_some_iff.mp there).1
  constructor
  case nodes => exact stands.nodes
  case uplink =>
    refine ⟨_, List.getElem?_set_self bound, ?_⟩
    intro another
    rw [x.sent_concat] at another ⊢
    have latest := sound.risenAt_le more
    unfold risenAt at latest
    rw [Time.toNat_ofNanos_of_le (by omega), beginsAt_succ_eq_max]
  case downlinks =>
    obtain ⟨late, freeBy, early⟩ := stands.downlinks
    refine ⟨late, ?_, early⟩
    intro i inside
    obtain ⟨since, known, rest⟩ := freeBy i inside
    exact ⟨since, (List.getElem?_set_ne (by omega)).trans known, rest⟩
  case tally => exact stands.tally.send _ _
  case within =>
    rw [x.sent_concat]
    exact more
  case rising =>
    show ∀ entry ∈ (x.rising ++ [frame]).zipIdx x.handled, _
    rw [List.zipIdx_append]
    refine List.forall_mem_append.mpr ⟨stands.rising, ?_⟩
    intro entry member
    obtain rfl := List.mem_singleton.mp member
    exact carries
  case falling => exact stands.falling

/-! ## The switch handles a frame -/

/-- The arrival of a copy at its host. -/
def landing (c : Passage) (entry : Nat × Nat × Frame) : Planned NetworkEvent :=
  ⟨.ofNanos (c.fallenAt entry.1), .deliver entry.2.1 1 entry.2.2⟩

/-- The copies of a frame that have a link to go by. -/
def copies (k : Nat) (emissions : List Emission) : List (Nat × Nat × Frame) :=
  (emissions.filter (·.port ≠ 0)).map fun e => (k, e.port, e.frame)

theorem ports_copies (k : Nat) {emissions : List Emission} (ports : emissions.map (·.port) = c.ports) :
    (copies k emissions).map (·.2.1) = c.connected := by
  rw [copies, List.map_map, connected, ← ports, List.filter_map]
  rfl

theorem mem_copies {k : Nat} {emissions : List Emission} {sent : Time}
    (ports : emissions.map (·.port) = c.ports) (tagged : ∀ e ∈ emissions, e.frame.sent? = some sent) :
    ∀ entry ∈ copies k emissions,
      entry.1 = k ∧ entry.2.1 ∈ c.connected ∧ entry.2.2.sent? = some sent := by
  intro entry member
  have connected := ports_copies k ports ▸ List.mem_map_of_mem member
  obtain ⟨e, kept, rfl⟩ := List.mem_map.mp member
  exact ⟨rfl, connected, tagged e (List.mem_filter.mp kept).1⟩

theorem landing_copies (k : Nat) (emissions : List Emission) :
    (copies k emissions).map c.landing = arrivals (.ofNanos (c.fallenAt k)) emissions := by
  rw [copies, arrivals, List.map_map]
  rfl

/-- A frame on its way up is one of the flow. -/
theorem Stands.handled_lt (stands : c.Stands ⟨handled, frame :: rising, falling⟩ net) :
    handled < c.flow.remaining := by
  have within := stands.within
  simp only [Stage.sent, List.length_cons] at within
  omega

/-- When a frame has come up, all links down are free. -/
theorem Stands.downlinks_free (stands : c.Stands x net) {now late : Time}
    (reached : c.risenAt x.handled ≤ now.toNat) (later : now ≤ late) (ports : List Nat) :
    FreeBy c.options c.options.hosts now late ports net := by
  obtain ⟨bound, freeBy, early⟩ := stands.downlinks
  intro i below
  obtain ⟨since, there, soon, -⟩ := freeBy i below
  have sinceNow : since ≤ now := Nat.le_trans soon (Nat.le_trans early reached)
  exact ⟨since, there, Nat.le_trans sinceNow later, fun _ => sinceNow⟩

/-- A frame comes up to the switch, and a copy goes down by each port with a link. -/
theorem Stands.rise (stands : c.Stands ⟨handled, frame :: rising, falling⟩ net) (sound : c.Sound) :
    ∃ fresh net', net.perform
        (Activity.deliver (.ofNanos (c.risenAt handled)) 0 (c.source + 1) frame) =
          .ok (net', fresh.map c.landing) ∧
      (∀ entry ∈ fresh, entry.1 = handled) ∧ fresh.length = c.connected.length ∧
      c.Stands ⟨handled + 1, rising, falling ++ fresh⟩ net' := by
  have carries : c.flow.Carries c.ip (.ofNanos (c.sentAt handled)) frame :=
    stands.rising (frame, handled) List.mem_cons_self
  have inside := stands.handled_lt
  have latest := sound.timely handled inside
  let now : Time := .ofNanos (c.risenAt handled)
  have nowNanos : now.toNat = c.risenAt handled := Time.toNat_ofNanos_of_le (sound.risenAt_le inside)
  have lateNanos := toNat_leavesAt latest
  obtain ⟨outcome, after, processed, ports, emissions⟩ := sound.forwards carries now net.numbering
  have found : net.node? 0 = some (switchNode c.pipeline c.options.hosts) := by
    rw [Network.node?, stands.nodes]
    rfl
  have later : now ≤ c.leavesAt handled := Time.le_iff.mpr (by omega)
  have free := stands.downlinks_free (Nat.le_of_eq nowNanos.symm) later (outcome.emissions.map (·.port))
  obtain ⟨t, delivered, emitted⟩ := deliver_switch found processed
    (fun e member => sound.ports _ (ports ▸ List.mem_map_of_mem member))
    (fun e member => (emissions e member).1.trans carries.length) (ports ▸ sound.distinct) rfl free
  have fresh := ports_copies handled ports
  have made := mem_copies (k := handled) ports fun e member => (emissions e member).2.trans carries.sent
  have planned : t.planned = (copies handled outcome.emissions).map c.landing := by
    rw [emitted.planned, landing_copies, ← leavesAt_add_latency latest]
    rfl
  have performed := Network.perform_of_ok delivered
  rw [planned] at performed
  have numbers (entry : Nat × Nat × Frame) (member : entry ∈ copies handled outcome.emissions) :
      entry.1 = handled := (made entry member).1
  refine ⟨copies handled outcome.emissions, _, performed, numbers, ?_, ?_⟩
  · rw [← fresh, List.length_map]
  constructor
  case nodes => exact emitted.nodes.trans stands.nodes
  case uplink =>
    obtain ⟨since, there, begins⟩ := stands.uplink
    refine ⟨since, (emitted.uplinks c.source).trans there, ?_⟩
    rw [Stage.sent_handle handled frame rising falling]
    exact begins
  case downlinks =>
    refine ⟨c.leavesAt handled, emitted.downlinks, ?_⟩
    rw [lateNanos]
    exact c.risenAt_add_sending_le handled
  case tally =>
    have length : outcome.emissions.length = c.ports.length := by rw [← ports, List.length_map]
    rw [emitted.stats, ports, length]
    exact stands.tally.rise sound.distinct numbers fresh
  case within =>
    rw [Stage.sent_handle handled frame rising falling]
    exact stands.within
  case rising =>
    intro entry member
    exact stands.rising entry (List.mem_cons_of_mem _ member)
  case falling =>
    refine List.forall_mem_append.mpr ⟨?_, ?_⟩
    · intro entry member
      obtain ⟨before, rest⟩ := stands.falling entry member
      exact ⟨Nat.lt_succ_of_lt before, rest⟩
    · intro entry member
      obtain ⟨number, rest⟩ := made entry member
      rw [number]
      exact ⟨Nat.lt_succ_self handled, rest⟩

/-! ## A host receives -/

/-- A copy comes down to its host. -/
theorem Stands.fall (stands : c.Stands ⟨handled, rising, (k, port, frame) :: rest⟩ net)
    (sound : c.Sound) :
    ∃ net', net.perform (Activity.deliver (.ofNanos (c.fallenAt k)) port 1 frame) = .ok (net', []) ∧
      c.Stands ⟨handled, rising, rest⟩ net' := by
  obtain ⟨before, connected, tagged⟩ := stands.falling (k, port, frame) List.mem_cons_self
  obtain ⟨member, positive⟩ := List.mem_filter.mp connected
  have bound := sound.ports port member
  obtain ⟨i, rfl⟩ := Nat.exists_eq_succ_of_ne_zero (of_decide_eq_true positive)
  have inside : k < c.flow.remaining := by
    have within := stands.within
    simp only [Stage.sent] at within before
    omega
  have fits := stands.tally.latency_fits sound (Nat.le_trans (Nat.le_add_right _ _) stands.within)
  have under : (Time.ofNanos (c.fallenAt k)).toNat - (Time.ofNanos (c.sentAt k)).toNat = c.delay k := by
    rw [Time.toNat_ofNanos_of_le (sound.timely k inside), Time.toNat_ofNanos_of_le (sound.sentAt_le inside), delay]
  have found : net.node? (i + 1) = some (hostNode c.options i) := by
    rw [Network.node?, stands.nodes]
    exact getElem?_starNodes_host bound
  rw [← under] at fits
  have done : Activity.deliver (.ofNanos (c.fallenAt k)) (i + 1) 1 frame ⟨net, []⟩ = .ok () _ :=
    Activity.deliver_host found rfl rfl tagged fits
  refine ⟨_, Network.perform_of_ok done, ?_⟩
  rw [under]
  constructor
  case nodes => exact stands.nodes
  case uplink => exact stands.uplink
  case downlinks => exact stands.downlinks
  case tally => exact stands.tally.fall _
  case within => exact stands.within
  case rising => exact stands.rising
  case falling => exact fun entry member => stands.falling entry (List.mem_cons_of_mem _ member)

end Passage

end Star

end Switchyard
