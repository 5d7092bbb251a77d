import Switchyard.Proofs.Simulation.Order

/-!
# Runs in parts

A run up to a time may stop at any earlier time on its way and go on from there. Stopping moves the clock
on, but taking an event sets it anew, so that no event sees that the run has stopped, and at the end the
clock is moved to the same time in either way.
-/

namespace Switchyard

theorem Time.later_later {now early late : Time} (order : early ≤ late) :
    (now.later early).later late = now.later late := by
  rw [Time.le_iff] at order
  rw [← Time.toNat_inj, Time.toNat_later, Time.toNat_later, Time.toNat_later]
  omega

namespace Scheduler

variable {ε ω φ : Type} {b : Behaviour ε ω φ} {s t m : Scheduler ε} {w v : ω} {p : Pending ε}
  {isWanted isEarly isLate : Time → Bool} {new ran : List (Pending ε)} {early late : Time}

/-- Taking an event sets the clock, whatever it has shown. -/
theorem next?_atTime (s : Scheduler ε) (now : Time) :
    { s with now := now }.next? isWanted = s.next? isWanted := rfl

theorem runWhile_atTime (taken : s.next? isWanted = some (p, m)) (now : Time) (budget : Nat) (w : ω) :
    { s with now := now }.runWhile b isWanted budget w = s.runWhile b isWanted budget w := by
  unfold runWhile
  simp only [next?_atTime, taken]

/-- Waiting is not seen by a run that goes on at least as long. -/
theorem runUntil_wait (order : early ≤ late) (s : Scheduler ε) (w : ω) :
    { s with now := s.now.later early }.runUntil b late w = s.runUntil b late w := by
  unfold runUntil
  cases taken : s.next? (fun due => due ≤ late) with
  | none =>
    have waiting : { s with now := s.now.later early }.next? (fun due => due ≤ late) = none := taken
    rw [runWhile_of_none taken, runWhile_of_none waiting]
    show Except.ok ({ s with now := (s.now.later early).later late }, w) = _
    rw [Time.later_later order]
    rfl
  | some first => rw [runWhile_atTime taken]

/-- Whatever is to be executed early is to be executed late. -/
theorem next?_of_weaker (weaker : ∀ due, isEarly due = true → isLate due = true)
    (taken : s.next? isEarly = some (p, m)) : s.next? isLate = some (p, m) := by
  obtain ⟨queue, wanted, same⟩ := next?_eq_some.mp taken
  exact next?_eq_some.mpr ⟨queue, weaker _ wanted, same⟩

/-- A run may be interrupted: it goes on with the numbers for events that are left. -/
theorem runWhile_runWhile (weaker : ∀ due, isEarly due = true → isLate due = true) (most : Nat)
    (s : Scheduler ε) (w : ω) :
    (do
      let (m, u) ← s.runWhile b isEarly (most - s.executed) w
      m.runWhile b isLate (most - m.executed) u) =
      s.runWhile b isLate (most - s.executed) w := by
  generalize left : most - s.executed = budget
  induction budget generalizing s w with
  | zero =>
    cases taken : s.next? isEarly with
    | none =>
      rw [runWhile_of_none taken, ← left]
      rfl
    | some first =>
      unfold runWhile
      simp only [taken, next?_of_weaker weaker taken]
      rfl
  | succ budget ih =>
    cases taken : s.next? isEarly with
    | none =>
      rw [runWhile_of_none taken, ← left]
      rfl
    | some first =>
      obtain ⟨p, m⟩ := first
      have counted : m.executed = s.executed + 1 := by rw [(next?_eq_some.mp taken).2.2]
      rw [runWhile, runWhile]
      simp only [taken, next?_of_weaker weaker taken]
      cases b.execute m.clock p.event w with
      | error fault => rfl
      | ok result =>
        obtain ⟨w', planned⟩ := result
        refine ih (m.scheduleAll planned) (b.tick w') ?_
        rw [executed_scheduleAll, counted]
        omega

/-- A run up to a time leaves a world that has ticked once for every event that it has counted. -/
theorem ticked_runUntil (ended : s.runUntil b late w = .ok (t, v)) :
    s.executed ≤ t.executed ∧ Ticked b (t.executed - s.executed) w v := by
  obtain ⟨new, ran, last, events, -, rfl⟩ := runUntil_eq_ok ended
  have counted : last.executed = s.executed + ran.length := events.executed_eq
  show s.executed ≤ last.executed ∧ Ticked b (last.executed - s.executed) w v
  rw [counted, Nat.add_sub_cancel_left]
  exact ⟨Nat.le_add_right _ _, events.ticked⟩

/-- A run up to a time may be split at any time before: from every scheduler and every world, whatever the
events do to the world and plan, the two runs one after another come to what the one run comes to, be it an
end with the clock, the queue, the counts and the world, be it a fault. Where the one run ends, so do both
parts, and the ticks of the world in the parts add up to those in the whole. What a world plans when it
ticks is among what the event before the tick plans. -/
theorem runUntil_split (order : early ≤ late) (b : Behaviour ε ω φ) (s : Scheduler ε) (w : ω) :
    (do
      let (m, u) ← s.runUntil b early w
      m.runUntil b late u) = s.runUntil b late w ∧
    ∀ t v, s.runUntil b late w = .ok (t, v) → ∃ m u,
      s.runUntil b early w = .ok (m, u) ∧ m.runUntil b late u = .ok (t, v) ∧
      s.executed ≤ m.executed ∧ m.executed ≤ t.executed ∧
      Ticked b (m.executed - s.executed) w u ∧ Ticked b (t.executed - m.executed) u v ∧
      Ticked b (t.executed - s.executed) w v := by
  have split : (do
      let (m, u) ← s.runUntil b early w
      m.runUntil b late u) = s.runUntil b late w := by
    have weaker (due : Time) (isEarly : decide (due ≤ early) = true) : decide (due ≤ late) = true :=
      decide_eq_true (Nat.le_trans (of_decide_eq_true isEarly) order)
    calc
      _ = (do
          let (m, u) ← s.runWhile b (fun due => due ≤ early) (maxEvents - s.executed) w
          { m with now := m.now.later early }.runUntil b late u) := by
        rw [runUntil, bind_assoc]
        rfl
      _ = (do
          let (m, u) ← s.runWhile b (fun due => due ≤ early) (maxEvents - s.executed) w
          m.runUntil b late u) := by simp only [runUntil_wait order]
      _ = s.runUntil b late w := by
        rw [runUntil, ← runWhile_runWhile weaker, bind_assoc]
        rfl
  refine ⟨split, fun t v ended => ?_⟩
  obtain ⟨⟨m, u⟩, first, second⟩ := Sequencing.bind_eq_ok.mp (split.trans ended)
  obtain ⟨upward, ticksBefore⟩ := ticked_runUntil first
  obtain ⟨further, ticksBehind⟩ := ticked_runUntil second
  exact ⟨m, u, first, second, upward, further, ticksBefore, ticksBehind, (ticked_runUntil ended).2⟩

/-- The run up to 20 stops at 7: three of the five probes have run by then, one of them planned meanwhile
for a time that was over, and those that are due at 10 find the clock there. -/
theorem runUntil_split_tied :
    Time.ofNanos 7 ≤ Time.ofNanos 20 ∧
    (do
      let (m, u) ← tied.runUntil Probe.behaviour (.ofNanos 7) ⟨[], 0⟩
      m.runUntil Probe.behaviour (.ofNanos 20) u) =
      tied.runUntil Probe.behaviour (.ofNanos 20) ⟨[], 0⟩ ∧
    ∃ m u t v, tied.runUntil Probe.behaviour (.ofNanos 7) ⟨[], 0⟩ = .ok (m, u) ∧
      m.runUntil Probe.behaviour (.ofNanos 20) u = .ok (t, v) ∧
      Ticked Probe.behaviour (m.executed - tied.executed) ⟨[], 0⟩ u ∧
      Ticked Probe.behaviour (t.executed - m.executed) u v ∧
      v.notes.map (fun note => (note.id, note.clock.now.toNat, note.clock.executed)) =
        [(2, 5, 1), (5, 5, 2), (4, 5, 3), (1, 10, 4), (3, 10, 5)] := by
  have order : Time.ofNanos 7 ≤ Time.ofNanos 20 := by decide
  obtain ⟨split, parts⟩ := runUntil_split order Probe.behaviour tied ⟨[], 0⟩
  refine ⟨order, split, ?_⟩
  have seen : (tied.runUntil Probe.behaviour (.ofNanos 20) ⟨[], 0⟩).toOption.map
      (fun result => result.2.notes.map
        fun note => (note.id, note.clock.now.toNat, note.clock.executed)) =
        some [(2, 5, 1), (5, 5, 2), (4, 5, 3), (1, 10, 4), (3, 10, 5)] := by
    decide +kernel
  cases ended : tied.runUntil Probe.behaviour (.ofNanos 20) ⟨[], 0⟩ with
  | error stop =>
    rw [ended] at seen
    cases seen
  | ok result =>
    rw [ended] at seen
    obtain ⟨m, u, first, second, -, -, before, behind, -⟩ := parts _ _ ended
    exact ⟨m, u, result.1, result.2, first, second, before, behind, Option.some.inj seen⟩

end Scheduler

end Switchyard
