import Switchyard.Proofs.Simulation.Order

/-!
# Agendas

The agenda of a scheduler is what waits in its queue, without the numbers. An event that is scheduled and
not for the past gets onto it as it is. A run whose events all succeed, and of which so many are left, ends
with nothing on the agenda if there are numbers for them.
-/

namespace Switchyard

namespace Scheduler

variable {ε ω φ : Type} {s m : Scheduler ε} {planned : List (Planned ε)} {p : Pending ε}

/-- What waits, first event first. -/
def agenda (s : Scheduler ε) : List (Planned ε) := s.queue.map fun p => ⟨p.due, p.event⟩

theorem agenda_schedule {q : Planned ε} (ahead : s.now ≤ q.due) :
    (s.schedule q).agenda.Perm (q :: s.agenda) := by
  have due : s.now.later q.due = q.due := if_pos ahead
  have entry : (⟨(s.pendingOf q).due, (s.pendingOf q).event⟩ : Planned ε) = q := by
    rw [pendingOf, due]
  have inserted := ((s.pendingOf q).insert_perm s.queue).map
    fun p => (⟨p.due, p.event⟩ : Planned ε)
  rwa [List.map_cons, entry] at inserted

theorem agenda_scheduleAll (ahead : ∀ q ∈ planned, s.now ≤ q.due) :
    (s.scheduleAll planned).agenda.Perm (planned ++ s.agenda) := by
  induction planned generalizing s with
  | nil => exact .refl _
  | cons first rest ih =>
    obtain ⟨own, others⟩ := List.forall_mem_cons.mp ahead
    rw [scheduleAll_cons]
    exact ((ih (s := s.schedule first) others).trans ((agenda_schedule own).append_left rest)).trans
      List.perm_middle

/-- The event that is taken was the first on the agenda. -/
theorem agenda_of_next? {isWanted : Time → Bool} (taken : s.next? isWanted = some (p, m)) :
    s.agenda = ⟨p.due, p.event⟩ :: m.agenda := by
  rw [agenda, (next?_eq_some.mp taken).1, List.map_cons, agenda]

/-- All events are to be executed, so that there is a next one unless nothing waits. -/
theorem next?_eq_none_iff_agenda : s.next? (fun _ => true) = none ↔ s.agenda = [] := by
  rw [agenda, List.map_eq_nil_iff, next?_eq_none_iff_queue]

/-- Nothing on the agenda is due before the event that is taken. -/
theorem Orderly.due_le_of_next? {scheduled executed : List (Pending ε)} {isWanted : Time → Bool}
    (orderly : s.Orderly scheduled executed) (taken : s.next? isWanted = some (p, m)) :
    ∀ q ∈ m.agenda, p.due ≤ q.due := by
  obtain ⟨queue, -, -⟩ := next?_eq_some.mp taken
  have sorted := (List.pairwise_append.mp orderly.ascending).2.1
  rw [queue] at sorted
  exact List.forall_mem_map.mpr fun q member =>
    Pending.due_le_of_before (List.rel_of_pairwise_cons sorted member)

/-- A run ends if every event succeeds and leaves one event less to execute: it comes to where nothing is
left. -/
theorem runWhile_drains {b : Behaviour ε ω φ} {left : Nat → Scheduler ε → ω → Prop}
    (empty : ∀ {s w}, left 0 s w → s.agenda = [])
    (step : ∀ {k s w}, left (k + 1) s w → ∃ p m w' planned,
      s.next? (fun _ => true) = some (p, m) ∧ b.execute m.clock p.event w = .ok (w', planned) ∧
        left k (m.scheduleAll planned) (b.tick w'))
    {k budget : Nat} {w : ω} (start : left k s w) (enough : k ≤ budget) :
    ∃ t v, s.runWhile b (fun _ => true) budget w = .ok (t, v) ∧ left 0 t v := by
  induction k generalizing s w budget with
  | zero =>
    exact ⟨s, w, runWhile_of_none (next?_eq_none_iff_agenda.mpr (empty start)), start⟩
  | succ k ih =>
    obtain ⟨p, m, w', planned, taken, executed, rest⟩ := step start
    obtain ⟨budget, rfl⟩ := Nat.exists_eq_add_of_lt enough
    obtain ⟨t, v, ran, done⟩ := ih rest (Nat.le_add_right k budget)
    refine ⟨t, v, ?_, done⟩
    rw [runWhile]
    simp only [taken, executed]
    exact ran

/-- Events that change nothing and plan nothing are executed one after another. -/
theorem runWhile_idle {b : Behaviour ε ω φ} {w : ω} {budget : Nat}
    (idle : ∀ q ∈ s.agenda, ∀ clock, b.execute clock q.event w = .ok (w, [])) (still : b.tick w = w)
    (enough : s.agenda.length ≤ budget) :
    ∃ t, s.runWhile b (fun _ => true) budget w = .ok (t, w) := by
  induction budget generalizing s with
  | zero =>
    have none := next?_eq_none_iff_agenda.mpr (List.length_eq_zero_iff.mp (Nat.le_zero.mp enough))
    exact ⟨s, runWhile_of_none none⟩
  | succ budget ih =>
    cases taken : s.next? (fun _ => true) with
    | none => exact ⟨s, runWhile_of_none taken⟩
    | some first =>
      obtain ⟨p, m⟩ := first
      rw [agenda_of_next? taken] at idle enough
      obtain ⟨own, others⟩ := List.forall_mem_cons.mp idle
      obtain ⟨t, ran⟩ := ih (s := m) others (Nat.le_of_succ_le_succ enough)
      refine ⟨t, ?_⟩
      rw [runWhile]
      simp only [taken, own, still]
      exact ran

end Scheduler

end Switchyard
