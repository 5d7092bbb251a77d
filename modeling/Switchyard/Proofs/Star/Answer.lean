import Switchyard.Proofs.BasicSwitch.Datagram
import Switchyard.Proofs.Star.Hosts

/-!
# What the switch of a star answers

The frames of a flow, as the basic switch answers them in the middle of a star: by which ports they leave,
and that they leave with their length and the time at which they were sent.
-/

namespace Switchyard

open Sequencing

namespace Star

open BasicSwitch

/-- The pipeline sends the frames of a flow from an address, when they come by a port, by certain ports, with
their length and the time at which they were sent. -/
def Forwards (pipeline : Pipeline) (flow : Flow) (ip : IpAddr) (port : Nat) (ports : List Nat) : Prop :=
  ∀ ⦃sent frame⦄, flow.Carries ip sent frame → ∀ (now : Time) (numbering : Numbering),
    ∃ outcome after, pipeline.process frame port now numbering = .ok outcome after ∧
      outcome.emissions.map (·.port) = ports ∧
      ∀ e ∈ outcome.emissions, e.frame.length = frame.length ∧ e.frame.sent? = frame.sent?

variable {name : String} {start after : Numbering} {fresh : Pipeline} {ips : List IpAddr} {flow : Flow}

/-- A basic switch around which there is a star. -/
structure Serves (pipeline : Pipeline) (ips : List IpAddr) : Prop where
  installed : Installed pipeline
  controls : pipeline.controls = positions.controls
  limit : pipeline.config.maxFrame = Boundary.defaultMaxFrame
  known : pipeline.config.dropPort = 511
  loaded : pipeline.plane = plane ips
  reached : ControlPlane.Reachable program pipeline.plane

theorem serves_of_made (made : BasicSwitch.pipeline description (.named name) start = .ok fresh after)
    (narrow : ips.length < UInt16.size) :
    Serves { fresh with plane := plane ips } ips := by
  have new := pipeline_eq_ok.mp made
  have config : fresh.config = .named name := (Pipeline.new_eq_ok new).2.2.1
  refine ⟨installed_of_new new _, (Pipeline.new_eq_ok new).2.1, ?_, ?_, rfl, reachable_plane narrow⟩
  · show fresh.config.maxFrame = _
    rw [config]
    rfl
  · show fresh.config.dropPort = _
    rw [config]
    rfl

variable {pipeline : Pipeline}

/-- A frame of a flow, and what the pipeline answers it with. -/
theorem Serves.process (serves : Serves pipeline ips) {ip : IpAddr}
    (short : flow.frameLength ip ≤ Boundary.defaultMaxFrame) {sent : Time} {frame : Frame}
    (carries : flow.Carries ip sent frame) (port : Nat) (now : Time) (numbering : Numbering) :
    ∃ reports, pipeline.process frame port now numbering =
        .ok ⟨pipeline.forwarded frame now
          (pipeline.afterIngress numbering.nextPacket frame port now), reports⟩
          { numbering with nextPacket := numbering.nextPacket + 1 } ∧
      ∀ e ∈ pipeline.forwarded frame now
          (pipeline.afterIngress numbering.nextPacket frame port now),
        e.frame.length = frame.length ∧ e.frame.sent? = frame.sent? := by
  have ingress : pipeline.controls.ingress.FieldsOnly :=
    serves.controls ▸ positions.controls_fieldsOnly.1
  have egress : pipeline.controls.egress.FieldsOnly :=
    serves.controls ▸ positions.controls_fieldsOnly.2
  have fits : frame.length ≤ pipeline.config.maxFrame := by
    rw [serves.limit, carries.length]
    exact short
  obtain ⟨reports, done⟩ :=
    serves.installed.process_eq ingress egress frame fits port now numbering
  refine ⟨reports, done, fun e left => ?_⟩
  obtain ⟨forwards, tags, -⟩ := serves.installed.forwards_of_mem serves.known serves.controls left
  have bytes := forwards.elim ForwardsIpv4.length ForwardsIpv6.length
  rw [Frame.length_toBytes, Frame.length_toBytes] at bytes
  exact ⟨bytes, by rw [Frame.sent?, tags, Frame.sent?]⟩

/-- What the tables have for the frames of a flow. -/
theorem Serves.routed (serves : Serves pipeline ips) {ip : IpAddr} {sent : Time} {frame : Frame}
    (carries : flow.Carries ip sent frame) :
    Routed pipeline.plane.tables frame.toBytes
      ((plane ips).tables.lookup (tableName flow.destination) [flow.destination.number]) := by
  have passable := carries.passable
  rw [← serves.loaded]
  cases target : flow.destination with
  | v4 a =>
    rw [target] at passable
    exact passable.routed ((decides_iff serves.reached rfl).mpr rfl)
  | v6 a =>
    rw [target] at passable
    exact passable.routed ((decides_iff serves.reached rfl).mpr rfl)

/-- The port of a host, as far as the nine bits of the field for ports hold it. -/
def portOf (j : Nat) : Nat := (j + 1) % 512

/-- The ports by which a flow to a host leaves: the one that the field holds, unless that is the drop
port. -/
def unicastPorts (j : Nat) : List Nat := if portOf j = 511 then [] else [portOf j]

theorem mem_unicastPorts {j port : Nat} :
    port ∈ unicastPorts j ↔ port = portOf j ∧ portOf j ≠ 511 := by
  unfold unicastPorts
  split
  case isTrue dropped => simp [dropped]
  case isFalse kept => simp [kept]

theorem length_unicastPorts (j : Nat) :
    (unicastPorts j).length = if portOf j = 511 then 0 else 1 := by
  unfold unicastPorts
  split <;> rfl

theorem count_zero_unicastPorts (j : Nat) :
    (unicastPorts j).count 0 = if portOf j = 0 then 1 else 0 := by
  unfold unicastPorts
  split
  case isTrue dropped => simp [dropped]
  case isFalse => simp [List.count_singleton]

theorem nodup_unicastPorts (j : Nat) : (unicastPorts j).Nodup := by
  unfold unicastPorts
  split <;> simp

/-- A flow to a host leaves by the port that the field holds, unless that is the drop port. -/
theorem Serves.forwards_unicast (serves : Serves pipeline ips) {ip : IpAddr} {j : Nat}
    (destination : ips.idxOf? flow.destination = some j)
    (short : flow.frameLength ip ≤ Boundary.defaultMaxFrame) (port : Nat) :
    Forwards pipeline flow ip port (unicastPorts j) := by
  intro sent frame carries now numbering
  have routed := serves.routed carries
  rw [lookup_plane, destination] at routed
  obtain ⟨reports, done, emissions⟩ := serves.process short carries port now numbering
  refine ⟨_, _, done, ?_, emissions⟩
  have ports := ports_forward numbering.nextPacket port now serves.installed serves.controls
    serves.reached routed carries.passable.intact rfl rfl
  simp only [serves.known, carries.passable.hops, and_false, or_false] at ports
  exact ports

end Star

end Switchyard
