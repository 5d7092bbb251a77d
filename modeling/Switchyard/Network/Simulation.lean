import Switchyard.Network.Traffic

/-!
# Network simulations

A network and the scheduler of its events. Things can also be made to happen from outside, at the
time that the clock shows.
-/

namespace Switchyard

/-- A network in time. -/
structure NetworkSimulation where
  scheduler : Scheduler NetworkEvent
  network : Network

/-- An operation on a simulation. -/
abbrev NetworkSimulationM := EStateM (RunFault Fault) NetworkSimulation

namespace NetworkSimulation

/-- An empty network at time zero. -/
def initial : NetworkSimulation := ⟨Scheduler.empty, Network.empty⟩

/-- Does something to the network that takes no time. -/
def onNetwork {ε α : Type} (op : EStateM ε Network α) : EStateM ε NetworkSimulation α := fun s =>
  match op s.network with
  | .ok a network => .ok a { s with network := network }
  | .error e network => .error e { s with network := network }

/-- Schedules an event. -/
def schedule (due : Time) (event : NetworkEvent) : NetworkSimulationM Unit :=
  modify fun s => { s with scheduler := s.scheduler.schedule ⟨due, event⟩ }

/-- Lets something happen now. -/
def act (op : Time → ActivityM Unit) : NetworkSimulationM Unit := do
  let s ← get
  match s.network.perform (op s.scheduler.now) with
  | .error fault => throw (.event fault)
  | .ok (network, planned) =>
    set { network, scheduler := s.scheduler.scheduleAll planned : NetworkSimulation }

/-- Puts what a run came to in place of the simulation. -/
def advance (result : Except (RunFault Fault) (Scheduler NetworkEvent × Network)) :
    NetworkSimulationM Unit := do
  let (scheduler, network) ← MonadExcept.ofExcept result
  set { scheduler, network : NetworkSimulation }

/-- Executes all events. -/
def run : NetworkSimulationM Unit := do
  let s ← get
  advance (s.scheduler.run Network.behaviour s.network)

/-- Executes the events that are due up to a time. -/
def runUntil (limit : Time) : NetworkSimulationM Unit := do
  let s ← get
  advance (s.scheduler.runUntil Network.behaviour limit s.network)

end NetworkSimulation

end Switchyard
