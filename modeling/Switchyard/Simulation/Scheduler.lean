import Switchyard.Time

/-!
# The scheduler

Events wait in a queue until they are due. The queue is kept in the order in which events are
executed: by time, and events of one time in the order in which they were scheduled. An event cannot
be scheduled for the past; it is due at once instead. Executing an event may schedule others.
-/

namespace Switchyard

/-- An event to schedule, and when it is due. -/
structure Planned (ε : Type) where
  due : Time
  event : ε
  deriving DecidableEq

/-- An event in the queue. Events are numbered as they are scheduled. -/
structure Pending (ε : Type) where
  due : Time
  seq : Nat
  event : ε
  deriving DecidableEq

/-- The clock, the queue, and the numbers of events scheduled and executed. Events are numbered without end;
a counter of 64 bits would start again from zero after 2^64 events, and so has the same numbers, and the queue
the same order, as long as fewer events than that are scheduled. -/
structure Scheduler (ε : Type) where
  now : Time
  nextSeq : Nat
  executed : Nat
  queue : List (Pending ε)
  deriving DecidableEq

/-- What an event sees of the scheduler: the time, how many events are waiting, and how many have been
executed, this one included. -/
structure Clock where
  now : Time
  pending : Nat
  executed : Nat
  deriving DecidableEq

/-- What events do to a world. An event may fail, and else plans further events. After each event
the world is told that a tick has passed. -/
structure Behaviour (ε ω φ : Type) where
  execute : Clock → ε → ω → Except φ (ω × List (Planned ε))
  tick : ω → ω

/-- Why a run stopped: an event failed, or there was no number left for the next one. -/
inductive RunFault (φ : Type) where
  | event (fault : φ)
  | tooManyEvents
  deriving DecidableEq

variable {ε ω φ : Type}

/-- The order in which events are executed: by time, then by number. -/
def Pending.before (p q : Pending ε) : Prop := p.due < q.due ∨ p.due = q.due ∧ p.seq < q.seq

instance (p q : Pending ε) : Decidable (p.before q) :=
  inferInstanceAs (Decidable (p.due < q.due ∨ p.due = q.due ∧ p.seq < q.seq))

/-- Puts an event into its place in a queue. -/
def Pending.insert (p : Pending ε) : List (Pending ε) → List (Pending ε)
  | [] => [p]
  | q :: queue => if p.before q then p :: q :: queue else q :: Pending.insert p queue

/-- Putting an event into a queue adds that event and nothing else. -/
theorem Pending.insert_perm (p : Pending ε) (queue : List (Pending ε)) :
    (p.insert queue).Perm (p :: queue) := by
  induction queue with
  | nil => exact .refl _
  | cons q queue ih =>
    simp only [insert]
    split
    · exact .refl _
    · exact (ih.cons q).trans (.swap p q queue)

@[simp] theorem Pending.length_insert (p : Pending ε) (queue : List (Pending ε)) :
    (p.insert queue).length = queue.length + 1 :=
  (p.insert_perm queue).length_eq

namespace Scheduler

/-- The most events that can be executed: their number has 64 bits. -/
def maxEvents : Nat := UInt64.size - 1

/-- Nothing has been scheduled. -/
def empty : Scheduler ε := ⟨Time.zero, 0, 0, []⟩

/-- The event as it is put into the queue: never due in the past, and under the next number. -/
def pendingOf (s : Scheduler ε) (planned : Planned ε) : Pending ε :=
  ⟨s.now.later planned.due, s.nextSeq, planned.event⟩

/-- Schedules an event. -/
def schedule (s : Scheduler ε) (planned : Planned ε) : Scheduler ε :=
  { s with nextSeq := s.nextSeq + 1, queue := (s.pendingOf planned).insert s.queue }

/-- Schedules events in order. -/
def scheduleAll (s : Scheduler ε) (planned : List (Planned ε)) : Scheduler ε :=
  planned.foldl schedule s

/-- Takes the first event, if it is one to execute now. Its time is the time from then on. -/
def next? (s : Scheduler ε) (isWanted : Time → Bool) : Option (Pending ε × Scheduler ε) :=
  match s.queue with
  | [] => none
  | p :: queue =>
    if isWanted p.due then
      some (p, { s with now := p.due, executed := s.executed + 1, queue := queue })
    else none

def clock (s : Scheduler ε) : Clock := ⟨s.now, s.queue.length, s.executed⟩

/-- Executes events while there is one to execute, at most `budget` of them. -/
def runWhile (b : Behaviour ε ω φ) (isWanted : Time → Bool) :
    Nat → Scheduler ε → ω → Except (RunFault φ) (Scheduler ε × ω)
  | budget, s, w =>
    match s.next? isWanted with
    | none => .ok (s, w)
    | some (p, s) =>
      match budget with
      | 0 => .error .tooManyEvents
      | budget + 1 =>
        match b.execute s.clock p.event w with
        | .error fault => .error (.event fault)
        | .ok (w, planned) => runWhile b isWanted budget (s.scheduleAll planned) (b.tick w)

/-- Executes events until none is left. -/
def run (b : Behaviour ε ω φ) (s : Scheduler ε) (w : ω) : Except (RunFault φ) (Scheduler ε × ω) :=
  s.runWhile b (fun _ => true) (maxEvents - s.executed) w

/-- Executes the events that are due up to a time, and moves the clock there. -/
def runUntil (b : Behaviour ε ω φ) (limit : Time) (s : Scheduler ε) (w : ω) :
    Except (RunFault φ) (Scheduler ε × ω) := do
  let (s, w) ← s.runWhile b (fun due => due ≤ limit) (maxEvents - s.executed) w
  return ({ s with now := s.now.later limit }, w)

end Scheduler

end Switchyard
