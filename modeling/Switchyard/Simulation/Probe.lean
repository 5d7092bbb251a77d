import Switchyard.Simulation.Scheduler

/-!
# Probes

Events that only watch the scheduler: a probe notes the time and how many events are waiting, and
plans the probes that follow it. They show a schedule at work without a network.
-/

namespace Switchyard

/-- A probe with a name and the probes that it plans. -/
inductive Probe where
  | mk (id : Nat) (follow : List (Planned Probe))

/-- What a probe noted. -/
structure ProbeNote where
  id : Nat
  clock : Clock
  deriving DecidableEq

/-- The notes of all probes so far, oldest first, and the number of ticks. -/
structure ProbeLog where
  notes : List ProbeNote
  ticks : Nat
  deriving DecidableEq

namespace Probe

/-- Notes the clock and plans the probes that follow. -/
def execute (clock : Clock) (probe : Probe) (log : ProbeLog) :
    Except Empty (ProbeLog × List (Planned Probe)) :=
  match probe with
  | mk id follow => .ok ({ log with notes := log.notes ++ [⟨id, clock⟩] }, follow)

def behaviour : Behaviour Probe ProbeLog Empty :=
  ⟨execute, fun log => { log with ticks := log.ticks + 1 }⟩

end Probe

end Switchyard
