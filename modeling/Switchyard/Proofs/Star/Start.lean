import Switchyard.Network.Simulation
import Switchyard.Proofs.Star.Answer
import Switchyard.Proofs.Star.Building

/-!
# Starting a star

A basic switch takes the commands of a star, and the star is built around it. This works exactly if the
replication numbers have 16 bits.
-/

namespace Switchyard

open Sequencing

namespace Star

variable {options : StarOptions} {star : Star} {s : NetworkSimulation}

/-- A simulation in which nothing has happened yet, of a star around a basic switch that has taken the
commands of the star. -/
def Starts (options : StarOptions) (star : Star) (s : NetworkSimulation) : Prop :=
  ∃ fresh numbering answers loaded,
    BasicSwitch.pipeline BasicSwitch.description (.named "s0") .initial = .ok fresh numbering ∧
    Pipeline.runBatch (commands (hostIps options.hosts options.ipv6)) fresh = .ok answers loaded ∧
    NetworkSimulation.onNetwork (ε := Fault) (build loaded options)
      { NetworkSimulation.initial with network := { Network.empty with numbering := numbering } } =
        .ok star s

/-- The basic switch, as it is made. -/
theorem exists_basicSwitch (config : PipelineConfig) (start : Numbering) : ∃ fresh after,
    BasicSwitch.pipeline BasicSwitch.description config start = .ok fresh after := by
  obtain ⟨fresh, after, made⟩ : ∃ fresh after,
      Pipeline.new BasicSwitch.program BasicSwitch.positions.controls config start = .ok fresh after :=
    Pipeline.exists_new BasicSwitch.fields_ofLayout _ config start
  exact ⟨fresh, after, BasicSwitch.pipeline_eq_ok.mpr made⟩

/-- Its tables are empty, and it has no groups. -/
theorem plane_of_made {config : PipelineConfig} {start after : Numbering} {fresh : Pipeline}
    (made : BasicSwitch.pipeline BasicSwitch.description config start = .ok fresh after) :
    fresh.plane = ⟨BasicSwitch.program.tables, Multicast.empty⟩ := by
  obtain ⟨fields, middle, -, made⟩ := state_bind_eq_ok.mp (BasicSwitch.pipeline_eq_ok.mp made)
  obtain ⟨controlPort, last, -, made⟩ := state_bind_eq_ok.mp made
  obtain ⟨rfl, -⟩ := state_pure_eq_ok.mp made
  rfl

theorem room_of_narrow (narrow : options.hosts < UInt16.size) : options.hosts ≤ maxHosts := by
  have room : UInt16.size ≤ maxHosts := by decide
  omega

theorem onNetwork_build (pipeline : Pipeline) (numbering : Numbering)
    (narrow : options.hosts < UInt16.size) :
    NetworkSimulation.onNetwork (ε := Fault) (build pipeline options)
        { NetworkSimulation.initial with network := { Network.empty with numbering := numbering } } =
      .ok ⟨0, (List.range options.hosts).map (· + 1), (List.range options.hosts).map (· + 1)⟩
        ⟨Scheduler.empty, starNetwork pipeline options numbering options.hosts⟩ := by
  unfold NetworkSimulation.onNetwork
  simp only [build_eq _ _ _ (room_of_narrow narrow)]
  rfl

/-- What a star starts with: the switch has the plane of the star, and the network is that of the star. -/
theorem Starts.serves (starts : Starts options star s) :
    options.hosts < UInt16.size ∧
      star = ⟨0, (List.range options.hosts).map (· + 1), (List.range options.hosts).map (· + 1)⟩ ∧
      ∃ loaded numbering, Serves loaded (hostIps options.hosts options.ipv6) ∧
        s = ⟨Scheduler.empty, starNetwork loaded options numbering options.hosts⟩ := by
  obtain ⟨fresh, numbering, answers, loaded, made, loads, built⟩ := starts
  obtain ⟨narrow, rfl⟩ := runBatch_commands (plane_of_made made) loads
  have serves := serves_of_made made narrow
  rw [length_hostIps] at narrow
  rw [onNetwork_build _ _ narrow] at built
  obtain ⟨rfl, rfl⟩ := EStateM.Result.ok.inj built
  exact ⟨narrow, rfl, _, numbering, serves, rfl⟩

/-- A star with up to 65535 hosts can be started, and none with more. -/
theorem exists_starts_iff : (∃ star s, Starts options star s) ↔ options.hosts < UInt16.size := by
  constructor
  · rintro ⟨star, s, starts⟩
    exact starts.serves.1
  · intro narrow
    have few : (hostIps options.hosts options.ipv6).length < UInt16.size := by rwa [length_hostIps]
    obtain ⟨fresh, numbering, made⟩ := exists_basicSwitch (.named "s0") .initial
    obtain ⟨answers, loads⟩ := exists_runBatch (plane_of_made made) few
    exact ⟨_, _, fresh, numbering, answers, _, made, loads, onNetwork_build _ _ narrow⟩

end Star

end Switchyard
