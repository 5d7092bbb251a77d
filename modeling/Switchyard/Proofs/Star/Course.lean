import Switchyard.Network.Simulation
import Switchyard.Proofs.Simulation.Agenda
import Switchyard.Proofs.Star.Progress

/-!
# The course of a flow through a star

What waits while a flow passes through a star is known at every moment: the next injection, the frames on
their way up and the copies on their way down, each at the time of the timetable. Whichever is due first, the
rest of the agenda and what is planned then are what waits afterwards; and each event is one of a number that
is known beforehand. So the run ends, with all frames handled and nothing on its way.
-/

namespace Switchyard

open Sequencing

namespace Star

namespace Passage

open Timetable

/-- The arrival of a frame at the switch. -/
def climbing (c : Passage) (entry : Frame × Nat) : Planned NetworkEvent :=
  ⟨.ofNanos (c.risenAt entry.2), .deliver 0 (c.source + 1) entry.1⟩

/-- What waits when a flow has come so far. -/
def agenda (c : Passage) (x : Stage) : List (Planned NetworkEvent) :=
  c.upcoming x.sent ++ (x.rising.zipIdx x.handled).map c.climbing ++ x.falling.map c.landing

/-- The number of events that are still to be executed. -/
def left (c : Passage) (x : Stage) : Nat :=
  (c.flow.remaining - x.sent) * (c.connected.length + 2) +
    x.rising.length * (c.connected.length + 1) + x.falling.length

/-- A simulation in which a flow has come so far and nothing else happens. -/
structure Underway (c : Passage) (x : Stage) (s : Scheduler NetworkEvent) (net : Network) : Prop where
  stands : c.Stands x net
  waiting : s.agenda.Perm (c.agenda x)
  orderly : ∃ scheduled executed, s.Orderly scheduled executed

variable {c : Passage} {x y : Stage} {s m : Scheduler NetworkEvent} {net net' : Network}
  {p : Pending NetworkEvent} {planned rest : List (Planned NetworkEvent)}

variable (rest) in
/-- The first event leaves the rest of the agenda, and adds what it plans. -/
theorem Underway.advance (underway : c.Underway x s net)
    (taken : s.next? (fun _ => true) = some (p, m))
    (first : (c.agenda x).Perm (⟨p.due, p.event⟩ :: rest)) (ahead : ∀ q ∈ planned, p.due ≤ q.due)
    (next : (planned ++ rest).Perm (c.agenda y)) (stands : c.Stands y net') :
    c.Underway y (m.scheduleAll planned) net' := by
  obtain ⟨scheduled, executed, orderly⟩ := underway.orderly
  have now : m.now = p.due := by rw [(Scheduler.next?_eq_some.mp taken).2.2]
  have waiting := underway.waiting
  rw [Scheduler.agenda_of_next? taken] at waiting
  have others : m.agenda.Perm rest := (waiting.trans first).cons_inv
  refine ⟨stands, ?_, _, _, (orderly.take taken).scheduleAll planned⟩
  exact ((Scheduler.agenda_scheduleAll (now ▸ ahead)).trans (others.append_left planned)).trans next

/-- The next injection. -/
theorem Underway.inject (underway : c.Underway x s net) (sound : c.Sound)
    (taken : s.next? (fun _ => true) = some (p, m)) (more : x.sent < c.flow.remaining)
    (first : (⟨p.due, p.event⟩ : Planned NetworkEvent) =
      ⟨.ofNanos (c.sentAt x.sent), .inject (c.rest x.sent)⟩) :
    ∃ net' planned y, net.perform (p.event.activity p.due) = .ok (net', planned) ∧
      c.Underway y (m.scheduleAll planned) net' ∧ c.left x = c.left y + 1 := by
  obtain ⟨due, event⟩ := Planned.mk.inj first
  obtain ⟨frame, net', performed, stands⟩ := underway.stands.inject sound more
  refine ⟨net', _, { x with rising := x.rising ++ [frame] }, by rw [due, event]; exact performed, ?_, ?_⟩
  · refine underway.advance ((x.rising.zipIdx x.handled).map c.climbing ++ x.falling.map c.landing) taken
      ?_ ?_ ?_ stands
    · rw [first, agenda, upcoming, if_pos more, List.append_assoc]
      exact .refl _
    · rw [due]
      refine List.forall_mem_cons.mpr ⟨Time.ofNanos_le_ofNanos ?_, ?_⟩
      · have := c.sentAt_le_beginsAt x.sent
        unfold risenAt
        omega
      · unfold upcoming
        split
        · refine List.forall_mem_singleton.mpr (Time.ofNanos_le_ofNanos ?_)
          rw [sentAt_succ]
          exact Nat.le_add_right _ _
        · simp
    · have climbs : ((x.rising ++ [frame]).zipIdx x.handled).map c.climbing =
          (x.rising.zipIdx x.handled).map c.climbing ++
            [⟨.ofNanos (c.risenAt x.sent), .deliver 0 (c.source + 1) frame⟩] := by
        rw [List.zipIdx_append, List.map_append]
        rfl
      rw [agenda, x.sent_concat, climbs, List.perm_iff_count]
      intro q
      simp only [List.count_append, List.count_cons, List.count_nil]
      omega
  · obtain ⟨others, same⟩ := Nat.exists_eq_add_of_lt more
    have before : c.flow.remaining - x.sent = others + 1 := by omega
    have after : c.flow.remaining - (x.sent + 1) = others := by omega
    simp only [left, x.sent_concat, before, after, List.length_append, List.length_singleton, Nat.succ_mul]
    omega

/-- Of the frames on their way up, the one that is due first is the next that the switch handles. -/
theorem first_of_rising (lasting : 0 < c.sending) {rising : List Frame} {handled : Nat}
    {entry : Frame × Nat} (member : entry ∈ rising.zipIdx handled)
    (latest : c.risenAt entry.2 ≤ Time.maxNanos)
    (first : ∀ other ∈ rising.zipIdx handled, (c.climbing entry).due ≤ (c.climbing other).due) :
    ∃ others, rising = entry.1 :: others ∧ entry.2 = handled := by
  cases rising with
  | nil => cases member
  | cons frame others =>
    rcases List.mem_cons.mp member with rfl | later
    · exact ⟨others, rfl, rfl⟩
    · have behind : handled < entry.2 := (List.mem_zipIdx later).1
      have order := risenAt_lt lasting behind
      have due := first (frame, handled) List.mem_cons_self
      rw [Time.le_iff, climbing, climbing, Time.toNat_ofNanos_of_le latest,
        Time.toNat_ofNanos_of_le (by dsimp only; omega)] at due
      dsimp only at due
      omega

/-- The next frame that comes up. -/
theorem Underway.rise (underway : c.Underway x s net) (sound : c.Sound)
    (taken : s.next? (fun _ => true) = some (p, m)) {entry : Frame × Nat}
    (member : entry ∈ x.rising.zipIdx x.handled)
    (same : (⟨p.due, p.event⟩ : Planned NetworkEvent) = c.climbing entry) :
    ∃ net' planned y, net.perform (p.event.activity p.due) = .ok (net', planned) ∧
      c.Underway y (m.scheduleAll planned) net' ∧ c.left x = c.left y + 1 := by
  obtain ⟨due, event⟩ := Planned.mk.inj same
  obtain ⟨handled, rising, falling⟩ := x
  have inside : entry.2 < c.flow.remaining := by
    have within := underway.stands.within
    have below := (List.mem_zipIdx member).2.1
    simp only [Stage.sent] at within below
    omega
  have earliest : ∀ other ∈ rising.zipIdx handled, (c.climbing entry).due ≤ (c.climbing other).due := by
    intro other otherMem
    obtain ⟨scheduled, executed, orderly⟩ := underway.orderly
    have waits : c.climbing other ∈ s.agenda := underway.waiting.mem_iff.mpr
      (List.mem_append_left _ (List.mem_append_right _ (List.mem_map_of_mem otherMem)))
    rw [Scheduler.agenda_of_next? taken] at waits
    rw [← same]
    rcases List.mem_cons.mp waits with first | later
    · rw [first]
      exact Nat.le_refl _
    · exact orderly.due_le_of_next? taken _ later
  obtain ⟨others, rfl, number⟩ :=
    first_of_rising sound.lasting member (sound.risenAt_le inside) earliest
  obtain ⟨frame, k⟩ := entry
  obtain rfl : k = handled := number
  obtain ⟨fresh, net', performed, numbers, length, stands⟩ := underway.stands.rise sound
  refine ⟨net', _, ⟨k + 1, others, falling ++ fresh⟩, by rw [due, event]; exact performed, ?_, ?_⟩
  · refine underway.advance (c.upcoming (Stage.sent ⟨k, frame :: others, falling⟩) ++
      (others.zipIdx (k + 1)).map c.climbing ++ falling.map c.landing) taken ?_ ?_ ?_ stands
    · rw [same, agenda, List.append_assoc, List.append_assoc]
      exact List.perm_middle
    · refine List.forall_mem_map.mpr fun landed member => ?_
      rw [due, landing, numbers landed member]
      refine Time.ofNanos_le_ofNanos ?_
      unfold fallenAt
      dsimp only
      omega
    · rw [agenda, Stage.sent_handle k frame others falling, List.map_append, List.perm_iff_count]
      intro q
      simp only [List.count_append]
      omega
  · simp only [left, Stage.sent, List.length_cons, List.length_append, length, Nat.succ_mul]
    rw [show k + 1 + others.length = k + (others.length + 1) by omega]
    omega

/-- The next copy that comes down. -/
theorem Underway.fall (underway : c.Underway x s net) (sound : c.Sound)
    (taken : s.next? (fun _ => true) = some (p, m)) {entry : Nat × Nat × Frame}
    (member : entry ∈ x.falling)
    (same : (⟨p.due, p.event⟩ : Planned NetworkEvent) = c.landing entry) :
    ∃ net' planned y, net.perform (p.event.activity p.due) = .ok (net', planned) ∧
      c.Underway y (m.scheduleAll planned) net' ∧ c.left x = c.left y + 1 := by
  obtain ⟨due, event⟩ := Planned.mk.inj same
  obtain ⟨handled, rising, falling⟩ := x
  obtain ⟨k, port, frame⟩ := entry
  obtain ⟨rest, perm⟩ : ∃ rest, falling.Perm ((k, port, frame) :: rest) :=
    ⟨_, List.perm_cons_erase member⟩
  obtain ⟨net', performed, stands⟩ := (underway.stands.reorder perm).fall sound
  refine ⟨net', [], ⟨handled, rising, rest⟩, by rw [due, event]; exact performed, ?_, ?_⟩
  · refine underway.advance (c.agenda ⟨handled, rising, rest⟩) taken ?_ (by simp) (.refl _) stands
    rw [same]
    exact ((perm.map c.landing).append_left _).trans List.perm_middle
  · have length := perm.length_eq
    simp only [left, Stage.sent, List.length_cons] at length ⊢
    omega

theorem left_eq_zero (within : x.sent ≤ c.flow.remaining) (nothing : c.agenda x = []) :
    c.left x = 0 := by
  rw [agenda, List.append_eq_nil_iff, List.append_eq_nil_iff, List.map_eq_nil_iff, List.map_eq_nil_iff,
    List.zipIdx_eq_nil_iff, upcoming, ite_eq_right_iff] at nothing
  obtain ⟨⟨last, rising⟩, falling⟩ := nothing
  have spent : ¬x.sent < c.flow.remaining := fun more => List.cons_ne_nil _ _ (last more)
  have none : c.flow.remaining - x.sent = 0 := by omega
  rw [left, none, rising, falling]
  simp

/-- When nothing is left, all frames have been handled and nothing is on its way. -/
theorem eq_of_left_eq_zero (within : x.sent ≤ c.flow.remaining) (nothing : c.left x = 0) :
    x = ⟨c.flow.remaining, [], []⟩ := by
  obtain ⟨handled, rising, falling⟩ := x
  simp only [left, Nat.add_eq_zero_iff, Nat.mul_eq_zero, Nat.succ_ne_zero, or_false,
    List.length_eq_zero_iff] at nothing
  obtain ⟨⟨spent, rfl⟩, rfl⟩ := nothing
  simp only [Stage.sent, List.length_nil, Nat.add_zero] at spent within
  rw [show handled = c.flow.remaining by omega]

theorem agenda_end (c : Passage) : c.agenda ⟨c.flow.remaining, [], []⟩ = [] := by
  simp [agenda, upcoming, Stage.sent]

/-- As long as something is left, there is a first event; it succeeds, and leaves one event less. -/
theorem Underway.step (underway : c.Underway x s net) (sound : c.Sound) (more : 0 < c.left x) :
    ∃ p m net' planned y, s.next? (fun _ => true) = some (p, m) ∧
      Network.behaviour.execute m.clock p.event net = .ok (net', planned) ∧
        c.Underway y (m.scheduleAll planned) net' ∧ c.left x = c.left y + 1 := by
  cases taken : s.next? (fun _ => true) with
  | none =>
    have waiting := underway.waiting
    rw [Scheduler.next?_eq_none_iff_agenda.mp taken] at waiting
    rw [left_eq_zero underway.stands.within waiting.nil_eq.symm] at more
    cases more
  | some first =>
    obtain ⟨p, m⟩ := first
    have now : m.clock.now = p.due := by
      rw [(Scheduler.next?_eq_some.mp taken).2.2]
      rfl
    have known : (⟨p.due, p.event⟩ : Planned NetworkEvent) ∈ c.agenda x := by
      have waiting := underway.waiting
      rw [Scheduler.agenda_of_next? taken] at waiting
      exact waiting.mem_iff.mp List.mem_cons_self
    have step : ∃ net' planned y, net.perform (p.event.activity p.due) = .ok (net', planned) ∧
        c.Underway y (m.scheduleAll planned) net' ∧ c.left x = c.left y + 1 := by
      rcases List.mem_append.mp known with known | landing
      · rcases List.mem_append.mp known with injection | climbing
        · unfold upcoming at injection
          split at injection
          case isTrue another =>
            exact underway.inject sound taken another (List.mem_singleton.mp injection)
          case isFalse => cases injection
        · obtain ⟨entry, member, same⟩ := List.mem_map.mp climbing
          exact underway.rise sound taken member same.symm
      · obtain ⟨entry, member, same⟩ := List.mem_map.mp landing
        exact underway.fall sound taken member same.symm
    obtain ⟨net', planned, y, performed, next, count⟩ := step
    refine ⟨p, m, net', planned, y, rfl, ?_, next, count⟩
    show net.perform (p.event.activity m.clock.now) = _
    rw [now, performed]

/-- The flow is underway, and so many events are left. -/
def Remains (c : Passage) (k : Nat) (s : Scheduler NetworkEvent) (net : Network) : Prop :=
  ∃ x, c.Underway x s net ∧ c.left x = k

theorem Remains.agenda_eq_nil (spent : c.Remains 0 s net) : s.agenda = [] := by
  obtain ⟨x, underway, nothing⟩ := spent
  have waiting := underway.waiting
  rw [eq_of_left_eq_zero underway.stands.within nothing, agenda_end] at waiting
  exact waiting.eq_nil

/-- A run carries the flow to its end. -/
theorem Underway.run (underway : c.Underway x s net) (sound : c.Sound)
    (enough : c.left x ≤ Scheduler.maxEvents - s.executed) :
    ∃ t v, s.run Network.behaviour net = .ok (t, v) ∧ c.Stands ⟨c.flow.remaining, [], []⟩ v := by
  have step : ∀ {k s net}, c.Remains (k + 1) s net → ∃ p m net' planned,
      s.next? (fun _ => true) = some (p, m) ∧
        Network.behaviour.execute m.clock p.event net = .ok (net', planned) ∧
          c.Remains k (m.scheduleAll planned) (Network.behaviour.tick net') := by
    rintro k s net ⟨x, underway, more⟩
    obtain ⟨p, m, net', planned, y, taken, executed, next, count⟩ :=
      underway.step sound (by omega)
    exact ⟨p, m, net', planned, taken, executed, y, next, by omega⟩
  obtain ⟨t, v, ran, y, spent, nothing⟩ :=
    Scheduler.runWhile_drains Remains.agenda_eq_nil step ⟨x, underway, rfl⟩ enough
  have stands := spent.stands
  rw [eq_of_left_eq_zero stands.within nothing] at stands
  exact ⟨t, v, ran, stands⟩

/-! ## From the start -/

theorem stands_start (sound : c.Sound) (numbering : Numbering) :
    c.Stands ⟨0, [], []⟩ (starNetwork c.pipeline c.options numbering c.options.hosts) where
  nodes := rfl
  uplink := by
    refine ⟨Time.zero, (getElem?_starLinks sound.source).1, fun _ => ?_⟩
    have zero : Time.zero.toNat = 0 := rfl
    rw [zero, Nat.max_zero]
    simp [Stage.sent, sentAt, beginsAt]
  downlinks := by
    refine ⟨Time.zero, fun i inside => ?_, Nat.zero_le _⟩
    exact ⟨Time.zero, (getElem?_starLinks inside).2, Nat.le_refl _, fun _ => Nat.le_refl _⟩
  tally := c.tally_zero
  within := Nat.zero_le _
  rising := by simp
  falling := by simp

/-- What is counted when all frames have been handled: each host has received all of them or none. -/
structure Counted (c : Passage) (stats : Stats) : Prop where
  received : ∀ k < c.options.hosts, ∃ h, stats.host? (hostName k) = some h ∧
    h.receivedFrames = if k + 1 ∈ c.ports then c.flow.remaining else 0
  delivered : stats.deliveredFrames = c.flow.remaining * c.connected.length
  switchReceived : stats.switchReceived = c.flow.remaining
  switchSent : stats.switchSent = c.flow.remaining * c.ports.length
  droppedNoPort : stats.droppedNoPort = c.flow.remaining * c.ports.count 0

theorem Tally.counted {stats : Stats} (tally : c.Tally c.flow.remaining [] stats) :
    c.Counted stats where
  received := tally.received
  delivered := tally.delivered
  switchReceived := tally.switchReceived
  switchSent := tally.switchSent
  droppedNoPort := tally.droppedNoPort

/-- A flow that is started in a star at rest comes to its end. -/
theorem Sound.run (sound : c.Sound) (numbering : Numbering)
    (few : c.flow.remaining * (c.connected.length + 2) ≤ Scheduler.maxEvents) :
    ∃ after, (NetworkSimulation.schedule c.start (.inject c.flow) >>= fun _ => NetworkSimulation.run)
        ⟨Scheduler.empty, starNetwork c.pipeline c.options numbering c.options.hosts⟩ =
          .ok () after ∧
      c.Counted after.network.stats := by
  let net := starNetwork c.pipeline c.options numbering c.options.hosts
  let s : Scheduler NetworkEvent := Scheduler.empty.schedule ⟨c.start, .inject c.flow⟩
  have stands := stands_start sound numbering
  have waiting : s.agenda.Perm [⟨c.start, .inject c.flow⟩] :=
    Scheduler.agenda_schedule (Nat.zero_le _)
  have ended : ∃ t v, s.run Network.behaviour net = .ok (t, v) ∧
      c.Stands ⟨c.flow.remaining, [], []⟩ v := by
    rcases Nat.eq_zero_or_pos c.flow.remaining with none | some
    · -- a flow without frames has an event that does nothing
      have idle : ∀ q ∈ s.agenda, ∀ clock, Network.behaviour.execute clock q.event net = .ok (net, []) := by
        intro q member clock
        rw [List.mem_singleton.mp (waiting.mem_iff.mp member)]
        show net.perform (c.flow.inject clock.now) = _
        have nothing : c.flow.inject clock.now ⟨net, []⟩ = .ok () ⟨net, []⟩ := by
          unfold Flow.inject
          rw [get_bind, none]
          rfl
        exact Network.perform_of_ok nothing
      have one : s.agenda.length ≤ Scheduler.maxEvents - s.executed := by
        rw [waiting.length_eq]
        exact show 1 ≤ Scheduler.maxEvents by decide
      obtain ⟨t, ran⟩ := Scheduler.runWhile_idle idle rfl one
      rw [none]
      exact ⟨t, net, ran, stands⟩
    · have underway : c.Underway ⟨0, [], []⟩ s net := by
        refine ⟨stands, ?_, _, _, Scheduler.orderly_empty.schedule _⟩
        have first : (⟨.ofNanos (c.sentAt 0), .inject (c.rest 0)⟩ : Planned NetworkEvent) =
            ⟨c.start, .inject c.flow⟩ := by
          have due : Time.ofNanos (c.sentAt 0) = c.start := by
            rw [← Time.toNat_inj, sentAt, Nat.zero_mul, Nat.add_zero,
              Time.toNat_ofNanos_of_le c.start.toNat_le]
          rw [due]
          rfl
        have planned : c.agenda ⟨0, [], []⟩ = [⟨c.start, .inject c.flow⟩] := by
          rw [← first, agenda, upcoming]
          exact congrArg (· ++ [] ++ []) (if_pos some)
        rw [planned]
        exact waiting
      refine underway.run sound (Nat.le_trans (Nat.le_of_eq ?_) few)
      simp [left, Stage.sent]
  obtain ⟨t, v, ran, stands⟩ := ended
  refine ⟨⟨t, v⟩, ?_, stands.tally.counted⟩
  show NetworkSimulation.advance (s.run Network.behaviour net) ⟨s, net⟩ = _
  rw [ran]
  rfl

end Passage

end Star

end Switchyard
