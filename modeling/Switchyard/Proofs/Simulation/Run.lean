import Switchyard.Proofs.Sequencing
import Switchyard.Simulation.Scheduler

/-!
# What a run executes

A run takes one event after another off the queue. `Executes` says which events a stretch of a run
executed and which it scheduled meanwhile; the runs of the scheduler are such stretches, up to where
nothing more is to be executed.
-/

namespace Switchyard

namespace Scheduler

variable {ε ω φ : Type}

/-- The entries that scheduling the events puts into the queue, in order. -/
def recorded (s : Scheduler ε) : List (Planned ε) → List (Pending ε)
  | [] => []
  | planned :: rest => s.pendingOf planned :: (s.schedule planned).recorded rest

theorem scheduleAll_cons (s : Scheduler ε) (planned : Planned ε) (rest : List (Planned ε)) :
    s.scheduleAll (planned :: rest) = (s.schedule planned).scheduleAll rest := rfl

@[simp] theorem now_scheduleAll (s : Scheduler ε) (planned : List (Planned ε)) :
    (s.scheduleAll planned).now = s.now := by
  induction planned generalizing s with
  | nil => rfl
  | cons first rest ih => rw [scheduleAll_cons, ih, schedule]

@[simp] theorem executed_scheduleAll (s : Scheduler ε) (planned : List (Planned ε)) :
    (s.scheduleAll planned).executed = s.executed := by
  induction planned generalizing s with
  | nil => rfl
  | cons first rest ih => rw [scheduleAll_cons, ih, schedule]

/-- The queue gets the entries that are recorded, and nothing else. -/
theorem queue_scheduleAll (s : Scheduler ε) (planned : List (Planned ε)) :
    (s.scheduleAll planned).queue.Perm (s.recorded planned ++ s.queue) := by
  induction planned generalizing s with
  | nil => exact .refl _
  | cons first rest ih =>
    have inserted : (s.schedule first).queue.Perm (s.pendingOf first :: s.queue) :=
      Pending.insert_perm _ _
    rw [scheduleAll_cons, recorded, List.cons_append]
    exact ((ih _).trans (inserted.append_left _)).trans List.perm_middle

/-- The first entry of a kind is that of the first event of the kind. -/
theorem find?_recorded (isWanted : ε → Bool) (s : Scheduler ε) (planned : List (Planned ε)) :
    ((s.recorded planned).find? (isWanted ·.event)).map (fun p => (p.due, p.event)) =
      (planned.find? (isWanted ·.event)).map fun q => (s.now.later q.due, q.event) := by
  induction planned generalizing s with
  | nil => rfl
  | cons first rest ih =>
    rw [recorded, List.find?_cons, List.find?_cons]
    cases wanted : isWanted first.event with
    | true =>
      have own : isWanted (s.pendingOf first).event = true := wanted
      rw [own]
      rfl
    | false =>
      have own : isWanted (s.pendingOf first).event = false := wanted
      rw [own]
      exact ih (s.schedule first)

/-- An event that is taken stands first in the queue, and its time is the time from then on. -/
theorem next?_eq_some {s m : Scheduler ε} {isWanted : Time → Bool} {p : Pending ε} :
    s.next? isWanted = some (p, m) ↔
      s.queue = p :: m.queue ∧ isWanted p.due = true ∧
        m = { s with now := p.due, executed := s.executed + 1, queue := m.queue } := by
  unfold next?
  cases queue : s.queue with
  | nil => simp
  | cons first rest =>
    by_cases wanted : isWanted first.due
    · simp only [if_pos wanted, Option.some.injEq, Prod.mk.injEq, List.cons.injEq]
      constructor
      · rintro ⟨rfl, rfl⟩
        exact ⟨⟨rfl, rfl⟩, wanted, rfl⟩
      · rintro ⟨⟨rfl, same⟩, -, taken⟩
        exact ⟨rfl, by rw [taken, same]⟩
    · simp only [if_neg wanted, reduceCtorEq, List.cons.injEq, false_iff]
      rintro ⟨⟨rfl, -⟩, isTrue, -⟩
      exact wanted isTrue

/-- What is not taken waits on, whatever is planned. -/
theorem waits_on {s m : Scheduler ε} {isWanted : Time → Bool} {p q : Pending ε}
    (taken : s.next? isWanted = some (q, m)) (other : q ≠ p) (waiting : p ∈ s.queue)
    (planned : List (Planned ε)) : p ∈ (m.scheduleAll planned).queue := by
  rw [(next?_eq_some.mp taken).1] at waiting
  have behind : p ∈ m.queue := (List.mem_cons.mp waiting).resolve_left (Ne.symm other)
  exact (queue_scheduleAll m planned).mem_iff.mpr (List.mem_append_right _ behind)

theorem next?_eq_none {s : Scheduler ε} {isWanted : Time → Bool} :
    s.next? isWanted = none ↔ ∀ p, s.queue.head? = some p → isWanted p.due = false := by
  unfold next?
  cases s.queue with
  | nil => simp
  | cons first rest => by_cases wanted : isWanted first.due <;> simp [wanted]

theorem next?_eq_none_iff_queue {s : Scheduler ε} : s.next? (fun _ => true) = none ↔ s.queue = [] := by
  rw [next?_eq_none]
  cases s.queue <;> simp

/-- A stretch of a run from `s` and `w` to `t` and `v`: the events `ran` are executed one after
another, and the entries `new` are put into the queue meanwhile. -/
inductive Executes (b : Behaviour ε ω φ) (isWanted : Time → Bool) :
    Scheduler ε → ω → List (Pending ε) → List (Pending ε) → Scheduler ε → ω → Prop where
  | done {s : Scheduler ε} {w : ω} : Executes b isWanted s w [] [] s w
  | next {s m t : Scheduler ε} {w w' v : ω} {p : Pending ε} {planned : List (Planned ε)}
      {new ran : List (Pending ε)}
      (taken : s.next? isWanted = some (p, m))
      (executed : b.execute m.clock p.event w = .ok (w', planned))
      (rest : Executes b isWanted (m.scheduleAll planned) (b.tick w') new ran t v) :
      Executes b isWanted s w (m.recorded planned ++ new) (p :: ran) t v

variable {b : Behaviour ε ω φ} {isWanted : Time → Bool} {s t : Scheduler ε} {w v : ω}
  {new ran : List (Pending ε)} {budget : Nat}

/-- Only events that are to be executed are. -/
theorem Executes.wanted (run : Executes b isWanted s w new ran t v) :
    ∀ p ∈ ran, isWanted p.due = true := by
  induction run with
  | done => simp
  | next taken _ _ ih =>
    intro p mem
    rcases List.mem_cons.mp mem with rfl | mem
    · exact (next?_eq_some.mp taken).2.1
    · exact ih p mem

/-- A stretch counts the events that it executes. -/
theorem Executes.executed_eq (run : Executes b isWanted s w new ran t v) :
    t.executed = s.executed + ran.length := by
  induction run with
  | done => rfl
  | @next s m t w w' v p planned new ran taken _ _ ih =>
    have counted : m.executed = s.executed + 1 := by rw [(next?_eq_some.mp taken).2.2]
    rw [ih, executed_scheduleAll, counted, List.length_cons]
    omega

theorem runWhile_of_none (next : s.next? isWanted = none) :
    s.runWhile b isWanted budget w = .ok (s, w) := by
  unfold runWhile
  simp only [next]

/-- How a run goes: it executes a stretch of events, and then nothing is left to execute, or there is
no number for the next event, or the next event fails. -/
theorem runWhile_trace (b : Behaviour ε ω φ) (isWanted : Time → Bool) (budget : Nat)
    (s : Scheduler ε) (w : ω) :
    ∃ new ran t v, Executes b isWanted s w new ran t v ∧
      (t.next? isWanted = none ∧ s.runWhile b isWanted budget w = .ok (t, v) ∨
        ∃ p m, t.next? isWanted = some (p, m) ∧
          (ran.length = budget ∧ s.runWhile b isWanted budget w = .error .tooManyEvents ∨
            ran.length < budget ∧ ∃ fault, b.execute m.clock p.event v = .error fault ∧
              s.runWhile b isWanted budget w = .error (.event fault))) := by
  induction budget generalizing s w with
  | zero =>
    refine ⟨[], [], s, w, .done, ?_⟩
    cases next : s.next? isWanted with
    | none => exact .inl ⟨rfl, runWhile_of_none next⟩
    | some taken =>
      refine .inr ⟨taken.1, taken.2, rfl, .inl ⟨rfl, ?_⟩⟩
      unfold runWhile
      simp only [next]
  | succ budget ih =>
    cases next : s.next? isWanted with
    | none => exact ⟨[], [], s, w, .done, .inl ⟨next, runWhile_of_none next⟩⟩
    | some taken =>
      obtain ⟨p, m⟩ := taken
      cases executed : b.execute m.clock p.event w with
      | error fault =>
        refine ⟨[], [], s, w, .done, .inr ⟨p, m, next, .inr ⟨Nat.succ_pos budget, fault, executed, ?_⟩⟩⟩
        unfold runWhile
        simp only [next, executed]
      | ok result =>
        obtain ⟨w', planned⟩ := result
        have same : s.runWhile b isWanted (budget + 1) w =
            (m.scheduleAll planned).runWhile b isWanted budget (b.tick w') := by
          rw [runWhile]
          simp only [next, executed]
        obtain ⟨new, ran, t, v, rest, outcome⟩ := ih (m.scheduleAll planned) (b.tick w')
        rw [← same] at outcome
        refine ⟨m.recorded planned ++ new, p :: ran, t, v, .next next executed rest, ?_⟩
        simpa only [List.length_cons, Nat.add_right_cancel_iff, Nat.add_lt_add_iff_right] using outcome

/-- A run that ends has executed a stretch of events, and no event is left to execute. -/
theorem runWhile_eq_ok (ended : s.runWhile b isWanted budget w = .ok (t, v)) :
    ∃ new ran, Executes b isWanted s w new ran t v ∧ t.next? isWanted = none := by
  obtain ⟨new, ran, t', v', run, ⟨none, same⟩ | ⟨p, m, -, ⟨-, stopped⟩ | ⟨-, fault, -, stopped⟩⟩⟩ :=
    runWhile_trace b isWanted budget s w
  · rw [ended] at same
    cases same
    exact ⟨new, ran, run, none⟩
  · rw [ended] at stopped
    cases stopped
  · rw [ended] at stopped
    cases stopped

/-- A run that comes through executes no more events than it may. -/
theorem Executes.length_le {result : Scheduler ε × ω} (run : Executes b isWanted s w new ran t v)
    (ended : s.runWhile b isWanted budget w = .ok result) : ran.length ≤ budget := by
  induction run generalizing budget with
  | done => exact Nat.zero_le budget
  | next taken executed _ ih =>
    unfold runWhile at ended
    cases budget with
    | zero =>
      simp only [taken] at ended
      cases ended
    | succ budget =>
      simp only [taken, executed] at ended
      exact Nat.succ_le_succ (ih ended)

/-- After a stretch, a run goes on with what is left of its budget. -/
theorem Executes.runWhile_eq (run : Executes b isWanted s w new ran t v) (budget : Nat) :
    s.runWhile b isWanted (ran.length + budget) w = t.runWhile b isWanted budget v := by
  induction run with
  | done => rw [List.length_nil, Nat.zero_add]
  | next taken executed _ ih =>
    rw [List.length_cons, Nat.add_right_comm, runWhile]
    simp only [taken, executed]
    exact ih

/-- A run fails exactly where, after a stretch that leaves some of its budget, the next event fails. -/
theorem runWhile_eq_fault_iff {fault : φ} :
    s.runWhile b isWanted budget w = .error (.event fault) ↔
      ∃ new ran t v p m, Executes b isWanted s w new ran t v ∧ ran.length < budget ∧
        t.next? isWanted = some (p, m) ∧ b.execute m.clock p.event v = .error fault := by
  constructor
  · intro stopped
    obtain ⟨new, ran, t, v, run, ⟨-, ended⟩ | ⟨p, m, next, ⟨-, exhausted⟩ | ⟨room, other, failed, same⟩⟩⟩ :=
      runWhile_trace b isWanted budget s w
    · rw [stopped] at ended
      cases ended
    · rw [stopped] at exhausted
      cases exhausted
    · rw [stopped] at same
      cases same
      exact ⟨new, ran, t, v, p, m, run, room, next, failed⟩
  · rintro ⟨new, ran, t, v, p, m, run, room, next, failed⟩
    obtain ⟨left, rfl⟩ := Nat.exists_eq_add_of_lt room
    rw [Nat.add_assoc, run.runWhile_eq, runWhile]
    simp only [next, failed]

/-- A run up to a time is a stretch of a run, and then the clock is moved on. -/
theorem runUntil_eq_ok {limit : Time} (ended : s.runUntil b limit w = .ok (t, v)) :
    ∃ new ran last, Executes b (fun due => due ≤ limit) s w new ran last v ∧
      last.next? (fun due => due ≤ limit) = none ∧ t = { last with now := last.now.later limit } := by
  obtain ⟨⟨last, world⟩, ran, moved⟩ := Sequencing.bind_eq_ok.mp ended
  cases moved
  obtain ⟨new, events, run, none⟩ := runWhile_eq_ok ran
  exact ⟨new, events, last, run, none, rfl⟩

end Scheduler

end Switchyard
