import Switchyard.Proofs.Simulation.Run
import Switchyard.Simulation.Probe

/-!
# Order of execution

The keys of executed events, time and number, ascend: time never goes back, and events of one time
are executed in the order in which they were scheduled. What has been scheduled has either been
executed, once, or is still waiting. All of it is one invariant of the executed events with the queue
behind them, kept by every way in which a scheduler changes.
-/

namespace Switchyard

variable {ε ω φ : Type}

namespace Pending

variable {p q r : Pending ε} {queue : List (Pending ε)}

theorem before_iff : p.before q ↔
    p.due.toNat < q.due.toNat ∨ p.due.toNat = q.due.toNat ∧ p.seq < q.seq := by
  rw [before, Time.lt_iff, Time.toNat_inj]

theorem before_trans (first : p.before q) (second : q.before r) : p.before r := by
  rw [before_iff] at *
  omega

theorem due_le_of_before (earlier : p.before q) : p.due ≤ q.due := by
  rw [before_iff] at earlier
  rw [Time.le_iff]
  omega

/-- An event that is not due later and has a smaller number is executed before. -/
theorem before_of_older (notLater : q.due ≤ p.due) (older : q.seq < p.seq) : q.before p := by
  rw [Time.le_iff] at notLater
  rw [before_iff]
  omega

theorem due_le_of_not_before (notBefore : ¬ p.before q) : q.due ≤ p.due := by
  rw [before_iff] at notBefore
  rw [Time.le_iff]
  omega

theorem insert_pairwise (sorted : queue.Pairwise before) (newest : ∀ q ∈ queue, q.seq < p.seq) :
    (p.insert queue).Pairwise before := by
  induction queue with
  | nil => exact List.pairwise_singleton _ _
  | cons q queue ih =>
    obtain ⟨ahead, rest⟩ := List.pairwise_cons.mp sorted
    unfold insert
    split
    case isTrue first =>
      refine List.pairwise_cons.mpr ⟨fun r mem => ?_, sorted⟩
      rcases List.mem_cons.mp mem with rfl | mem
      · exact first
      · exact before_trans first (ahead r mem)
    case isFalse notFirst =>
      have behind := ih rest fun r mem => newest r (List.mem_cons_of_mem _ mem)
      refine List.pairwise_cons.mpr ⟨fun r mem => ?_, behind⟩
      rcases List.mem_cons.mp ((p.insert_perm queue).mem_iff.mp mem) with rfl | mem
      · exact before_of_older (due_le_of_not_before notFirst) (newest q List.mem_cons_self)
      · exact ahead r mem

end Pending

namespace Scheduler

/-- Of all events that were scheduled, `executed` have been executed and the others wait, all in the
order of their keys; the scheduler counts both right, and nothing waits for the past. -/
structure Orderly (s : Scheduler ε) (scheduled executed : List (Pending ε)) : Prop where
  ascending : (executed ++ s.queue).Pairwise Pending.before
  elapsed : ∀ p ∈ executed, p.due ≤ s.now
  ahead : ∀ p ∈ s.queue, s.now ≤ p.due
  exactlyOnce : (executed ++ s.queue).Perm scheduled
  numbered : scheduled.map (·.seq) = List.range s.nextSeq
  counted : s.executed = executed.length

variable {s m t : Scheduler ε} {scheduled executed new ran : List (Pending ε)}

theorem Orderly.seq_lt (orderly : s.Orderly scheduled executed) :
    ∀ p ∈ executed ++ s.queue, p.seq < s.nextSeq := by
  intro p mem
  have known : p.seq ∈ scheduled.map (·.seq) :=
    List.mem_map_of_mem (orderly.exactlyOnce.mem_iff.mp mem)
  rw [orderly.numbered] at known
  exact List.mem_range.mp known

theorem orderly_empty : (empty : Scheduler ε).Orderly [] [] where
  ascending := .nil
  elapsed := by simp
  ahead := by simp [empty]
  exactlyOnce := .refl _
  numbered := rfl
  counted := rfl

theorem Orderly.schedule (orderly : s.Orderly scheduled executed) (planned : Planned ε) :
    (s.schedule planned).Orderly (scheduled ++ [s.pendingOf planned]) executed := by
  have perm := (s.pendingOf planned).insert_perm s.queue
  have notPast : s.now ≤ (s.pendingOf planned).due := by
    show s.now.toNat ≤ (s.now.later planned.due).toNat
    rw [Time.toNat_later]
    exact Nat.le_max_left _ _
  obtain ⟨past, waiting, apart⟩ := List.pairwise_append.mp orderly.ascending
  constructor
  case ascending =>
    refine List.pairwise_append.mpr ⟨past, ?_, fun p pMem q qMem => ?_⟩
    · exact Pending.insert_pairwise waiting fun q mem =>
        orderly.seq_lt q (List.mem_append_right _ mem)
    rcases List.mem_cons.mp (perm.mem_iff.mp qMem) with rfl | qMem
    · -- what was executed is not due later, and has a smaller number
      exact Pending.before_of_older (Nat.le_trans (orderly.elapsed p pMem) notPast)
        (orderly.seq_lt p (List.mem_append_left _ pMem))
    · exact apart p pMem q qMem
  case elapsed => exact orderly.elapsed
  case ahead =>
    intro p mem
    rcases List.mem_cons.mp (perm.mem_iff.mp mem) with rfl | mem
    · exact notPast
    · exact orderly.ahead p mem
  case exactlyOnce =>
    have moved := (perm.append_left executed).trans List.perm_middle
    exact (moved.trans (orderly.exactlyOnce.cons _)).trans (List.perm_append_singleton _ _).symm
  case numbered =>
    rw [List.map_append, orderly.numbered]
    exact (List.range_succ).symm
  case counted => exact orderly.counted

theorem Orderly.scheduleAll (orderly : s.Orderly scheduled executed) (planned : List (Planned ε)) :
    (s.scheduleAll planned).Orderly (scheduled ++ s.recorded planned) executed := by
  induction planned generalizing s scheduled with
  | nil =>
    show s.Orderly (scheduled ++ []) executed
    rwa [List.append_nil]
  | cons first rest ih =>
    have done := ih (orderly.schedule first)
    rwa [List.append_assoc] at done

theorem Orderly.take {isWanted : Time → Bool} {p : Pending ε}
    (orderly : s.Orderly scheduled executed) (taken : s.next? isWanted = some (p, m)) :
    m.Orderly scheduled (executed ++ [p]) := by
  obtain ⟨queue, -, same⟩ := next?_eq_some.mp taken
  have whole : executed ++ [p] ++ m.queue = executed ++ s.queue := by simp [queue]
  have now : m.now = p.due := by rw [same]
  have due := orderly.ahead p (queue ▸ List.mem_cons_self)
  constructor
  case ascending => exact whole ▸ orderly.ascending
  case elapsed =>
    intro q mem
    rw [now]
    rcases List.mem_append.mp mem with mem | mem
    · exact Nat.le_trans (orderly.elapsed q mem) due
    · rw [List.mem_singleton.mp mem]
      exact Nat.le_refl _
  case ahead =>
    intro q mem
    have sorted := (List.pairwise_append.mp orderly.ascending).2.1
    rw [queue] at sorted
    rw [now]
    exact Pending.due_le_of_before (List.rel_of_pairwise_cons sorted mem)
  case exactlyOnce => exact whole ▸ orderly.exactlyOnce
  case numbered => rw [same]; exact orderly.numbered
  case counted => rw [same, List.length_append, orderly.counted]; rfl

/-- The clock may be moved on as long as nothing is due before. -/
theorem Orderly.wait (orderly : s.Orderly scheduled executed) {limit : Time}
    (later : ∀ p ∈ s.queue, limit < p.due) :
    Orderly { s with now := s.now.later limit } scheduled executed where
  ascending := orderly.ascending
  elapsed p mem := by
    have := orderly.elapsed p mem
    show p.due.toNat ≤ (s.now.later limit).toNat
    rw [Time.toNat_later]
    exact Nat.le_trans this (Nat.le_max_left _ _)
  ahead p mem := by
    show (s.now.later limit).toNat ≤ p.due.toNat
    rw [Time.toNat_later]
    exact Nat.max_le.mpr ⟨orderly.ahead p mem, Nat.le_of_lt (later p mem)⟩
  exactlyOnce := orderly.exactlyOnce
  numbered := orderly.numbered
  counted := orderly.counted

variable {b : Behaviour ε ω φ} {isWanted : Time → Bool} {w v : ω}

theorem Executes.orderly (run : Executes b isWanted s w new ran t v)
    (orderly : s.Orderly scheduled executed) : t.Orderly (scheduled ++ new) (executed ++ ran) := by
  induction run generalizing scheduled executed with
  | done => simpa using orderly
  | next taken _ _ ih => simpa using ih ((orderly.take taken).scheduleAll _)

/-- The events of a stretch up to a limit leave the clock between where it was and the limit. -/
theorem Executes.now_between {limit : Time}
    (run : Executes b (fun due => due ≤ limit) s w new ran t v)
    (orderly : s.Orderly scheduled executed) :
    s.now ≤ t.now ∧ t.now.toNat ≤ max s.now.toNat limit.toNat := by
  induction run generalizing scheduled executed with
  | done => exact ⟨Nat.le_refl _, Nat.le_max_left _ _⟩
  | @next s m t w w' v p planned new ran taken _ _ ih =>
    obtain ⟨queue, wanted, same⟩ := next?_eq_some.mp taken
    have after := ih ((orderly.take taken).scheduleAll planned)
    have due : s.now.toNat ≤ p.due.toNat := orderly.ahead p (queue ▸ List.mem_cons_self)
    have early : p.due.toNat ≤ limit.toNat := of_decide_eq_true wanted
    have now : m.now = p.due := by rw [same]
    rw [now_scheduleAll, now, Time.le_iff] at after
    rw [Time.le_iff]
    omega

/-- Where the first event of an ordered queue is late, all are. -/
theorem Orderly.all_late (orderly : s.Orderly scheduled executed) {limit : Time}
    (none : s.next? (fun due => due ≤ limit) = none) : ∀ p ∈ s.queue, limit < p.due := by
  intro p mem
  have sorted := (List.pairwise_append.mp orderly.ascending).2.1
  have late := next?_eq_none.mp none
  cases queue : s.queue with
  | nil =>
    rw [queue] at mem
    cases mem
  | cons first rest =>
    rw [queue] at mem sorted late
    have firstLate : limit < first.due := by
      have := late first rfl
      simp only [decide_eq_false_iff_not, Time.le_iff] at this
      exact Nat.lt_of_not_le this
    rcases List.mem_cons.mp mem with rfl | mem
    · exact firstLate
    · exact Nat.lt_of_lt_of_le firstLate
        (Pending.due_le_of_before (List.rel_of_pairwise_cons sorted mem))

/-- The world has ticked so many times between `w` and `v`: whatever count of ticks it keeps, one that
events leave alone and a tick raises by one, it has gone up by that much. -/
def Ticked (b : Behaviour ε ω φ) (times : Nat) (w v : ω) : Prop :=
  ∀ ticks : ω → Nat,
    (∀ clock event w w' planned, b.execute clock event w = .ok (w', planned) → ticks w' = ticks w) →
    (∀ w, ticks (b.tick w) = ticks w + 1) → ticks v = ticks w + times

theorem Executes.ticked (run : Executes b isWanted s w new ran t v) : Ticked b ran.length w v := by
  intro ticks executing ticking
  induction run with
  | done => rfl
  | next _ executed _ ih =>
    rw [ih, ticking, executing _ _ _ _ _ executed, List.length_cons]
    omega

/-- What can become of a scheduler, and what has been scheduled and executed by then: events are
scheduled from outside, stretches of runs are executed, and the clock is moved on where nothing is
due before. -/
inductive Reached (b : Behaviour ε ω φ) :
    Scheduler ε → List (Pending ε) → List (Pending ε) → Prop where
  | start : Reached b empty [] []
  | schedule {s : Scheduler ε} {scheduled executed : List (Pending ε)}
      (past : Reached b s scheduled executed) (planned : Planned ε) :
      Reached b (s.schedule planned) (scheduled ++ [s.pendingOf planned]) executed
  | execute {s t : Scheduler ε} {w v : ω} {isWanted : Time → Bool}
      {scheduled executed new ran : List (Pending ε)}
      (past : Reached b s scheduled executed) (run : Executes b isWanted s w new ran t v) :
      Reached b t (scheduled ++ new) (executed ++ ran)
  | wait {s : Scheduler ε} {scheduled executed : List (Pending ε)}
      (past : Reached b s scheduled executed) (limit : Time) (later : ∀ p ∈ s.queue, limit < p.due) :
      Reached b { s with now := s.now.later limit } scheduled executed

theorem Reached.orderly (past : Reached b s scheduled executed) : s.Orderly scheduled executed := by
  induction past with
  | start => exact orderly_empty
  | schedule _ planned ih => exact ih.schedule planned
  | execute _ run ih => exact run.orderly ih
  | wait _ limit later ih => exact ih.wait later

/-- A run that has no number left for an event has had the most events there can be. -/
theorem Executes.exhausted {p : Pending ε} (run : Executes b isWanted s w new ran t v)
    (orderly : s.Orderly scheduled executed) (next : t.next? isWanted = some (p, m))
    (length : ran.length = maxEvents - s.executed) :
    UInt64.size ≤ (scheduled ++ new).length := by
  have after := run.orderly orderly
  have all := after.exactlyOnce.length_eq
  have queue := congrArg List.length (next?_eq_some.mp next).1
  simp only [List.length_append, List.length_cons] at all queue ⊢
  have counted := orderly.counted
  simp only [maxEvents, UInt64.size] at *
  omega

/-- A run of events that never fail ends, unless more events are scheduled than there are numbers. -/
theorem Reached.runWhile_ok (past : Reached b s scheduled executed)
    (succeed : ∀ clock event w, ∃ result, b.execute clock event w = .ok result)
    (few : ∀ new ran t v, Executes b isWanted s w new ran t v →
      (scheduled ++ new).length < UInt64.size) :
    ∃ result, s.runWhile b isWanted (maxEvents - s.executed) w = .ok result := by
  obtain ⟨new, ran, t, v, run, ⟨-, ended⟩ | ⟨p, m, next, ⟨length, -⟩ | ⟨-, fault, failed, -⟩⟩⟩ :=
    runWhile_trace b isWanted (maxEvents - s.executed) s w
  · exact ⟨_, ended⟩
  · have many := run.exhausted past.orderly next length
    have := few new ran t v run
    omega
  · obtain ⟨result, done⟩ := succeed m.clock p.event v
    rw [done] at failed
    cases failed

/-- Runs execute events in the order of their keys, each exactly once. This holds of every scheduler
that can be reached, after every event and in the middle of one; a run ends with an empty queue, and
a run up to a time with all that was due by then executed and the clock moved there. If no event
fails and there are numbers enough, runs end. -/
theorem runs_ascending_exactly_once (past : Reached b s scheduled executed) (w : ω) :
    s.Orderly scheduled executed ∧
    (∀ isWanted new ran t v, Executes b isWanted s w new ran t v →
      t.Orderly (scheduled ++ new) (executed ++ ran) ∧ Ticked b ran.length w v) ∧
    (∀ isWanted p m planned, s.next? isWanted = some (p, m) →
      m.clock.now = p.due ∧
        (m.scheduleAll planned).Orderly (scheduled ++ m.recorded planned) (executed ++ [p])) ∧
    (∀ t v, s.run b w = .ok (t, v) → ∃ new ran,
      Reached b t (scheduled ++ new) (executed ++ ran) ∧
      t.Orderly (scheduled ++ new) (executed ++ ran) ∧ Ticked b ran.length w v ∧ t.queue = []) ∧
    (∀ limit t v, s.runUntil b limit w = .ok (t, v) → ∃ new ran,
      Reached b t (scheduled ++ new) (executed ++ ran) ∧
      t.Orderly (scheduled ++ new) (executed ++ ran) ∧ Ticked b ran.length w v ∧
      (∀ p ∈ ran, p.due ≤ limit) ∧ (∀ p ∈ t.queue, limit < p.due) ∧
      t.now = s.now.later limit) ∧
    ((∀ clock event w, ∃ result, b.execute clock event w = .ok result) →
      (∀ isWanted new ran t v, Executes b isWanted s w new ran t v →
        (scheduled ++ new).length < UInt64.size) →
      (∃ result, s.run b w = .ok result) ∧
        ∀ limit, ∃ result, s.runUntil b limit w = .ok result) := by
  refine ⟨past.orderly, ?stretch, ?middle, ?run, ?runUntil, ?ends⟩
  case stretch =>
    intro isWanted new ran t v events
    exact ⟨events.orderly past.orderly, events.ticked⟩
  case middle =>
    intro isWanted p m planned taken
    refine ⟨?_, (past.orderly.take taken).scheduleAll planned⟩
    rw [(next?_eq_some.mp taken).2.2, clock]
  case run =>
    intro t v ended
    obtain ⟨new, ran, events, none⟩ := runWhile_eq_ok ended
    refine ⟨new, ran, past.execute events, events.orderly past.orderly, events.ticked, ?_⟩
    cases queue : t.queue with
    | nil => rfl
    | cons first rest =>
      have absurd := next?_eq_none.mp none first (by rw [queue]; rfl)
      cases absurd
  case runUntil =>
    intro limit t v ended
    obtain ⟨new, ran, last, events, none, rfl⟩ := runUntil_eq_ok ended
    have orderly := events.orderly past.orderly
    have late := orderly.all_late none
    refine ⟨new, ran, (past.execute events).wait limit late, orderly.wait late, events.ticked, ?_,
      late, ?_⟩
    · intro p mem
      simpa using events.wanted p mem
    · have between := events.now_between past.orderly
      rw [Time.le_iff] at between
      rw [← Time.toNat_inj, Time.toNat_later, Time.toNat_later]
      omega
  case ends =>
    intro succeed few
    refine ⟨past.runWhile_ok succeed fun new ran t v => few _ new ran t v, fun limit => ?_⟩
    obtain ⟨⟨last, v⟩, done⟩ := past.runWhile_ok succeed fun new ran t v =>
      few (fun due => due ≤ limit) new ran t v
    exact ⟨_, by rw [runUntil, done]; rfl⟩

/-- Probes for two times, two for each, one of which plans a further one for a time that is over. -/
def tied : Scheduler Probe :=
  (((empty.schedule ⟨.ofNanos 10, .mk 1 []⟩).schedule ⟨.ofNanos 5, .mk 2 []⟩).schedule
    ⟨.ofNanos 10, .mk 3 []⟩).schedule ⟨.ofNanos 5, .mk 5 [⟨.zero, .mk 4 []⟩]⟩

/-- The probe for a time that is over comes behind those of its time, and before all later ones. -/
theorem runs_ascending_exactly_once_tied :
    ∃ scheduled t log, Reached Probe.behaviour tied scheduled [] ∧
      tied.run Probe.behaviour ⟨[], 0⟩ = .ok (t, log) ∧
      (∃ new ran, Reached Probe.behaviour t (scheduled ++ new) ran ∧
        t.Orderly (scheduled ++ new) ran ∧ Ticked Probe.behaviour ran.length ⟨[], 0⟩ log ∧
        t.queue = []) ∧
      log.notes.map (·.id) = [2, 5, 4, 1, 3] ∧ log.ticks = 5 := by
  have past : Reached Probe.behaviour tied _ [] :=
    (((Reached.start.schedule _).schedule _).schedule _).schedule _
  have seen : (tied.run Probe.behaviour ⟨[], 0⟩).toOption.map
      (fun result => (result.2.notes.map (·.id), result.2.ticks)) = some ([2, 5, 4, 1, 3], 5) := by
    decide +kernel
  cases ended : tied.run Probe.behaviour ⟨[], 0⟩ with
  | error stop =>
    rw [ended] at seen
    cases seen
  | ok result =>
    rw [ended] at seen
    obtain ⟨notes, ticks⟩ := Prod.mk.inj (Option.some.inj seen)
    exact ⟨_, result.1, result.2, past, rfl,
      (runs_ascending_exactly_once past ⟨[], 0⟩).2.2.2.1 _ _ ended, notes, ticks⟩

end Scheduler

end Switchyard
