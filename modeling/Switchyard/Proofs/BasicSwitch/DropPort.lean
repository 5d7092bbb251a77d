import Switchyard.Proofs.BasicSwitch.Decision

/-!
# The drop port of the basic switch

The controls of the basic switch drop a packet by storing 511 in `egress_spec`, whatever drop port the
pipeline is set to. So drops are final with that drop port and with no other: a pipeline with another one
takes 511 for a port like any other, and sends to it what ingress refuses.
-/

namespace Switchyard

namespace BasicSwitch

open Packet Pipeline Sequencing

/-- What leaves when a frame of these bytes has come by a port: nothing of what is refused or has no hop
left, and of the copies for a group none that would go back by the port or that the filter names. -/
structure Discards (plane : ControlPlane) (b : Bytes) (port : Nat) (emissions : List Emission) :
    Prop where
  refused : ∀ call, Routed plane.tables b call →
    (BadChecksum b ∨ ∀ c ∈ call, c.action = "drop") → emissions = []
  exhausted : Exhausted b → emissions = []
  copies : ∀ c : ActionCall, Routed plane.tables b (some c) → ¬BadChecksum b → c.action = "multicast" →
    c.arg 0 % UInt16.size ≠ 0 →
    ∃ kept : List Replica, kept.Sublist (plane.multicast.replicate (c.arg 0 % UInt16.size)) ∧
      (∀ r ∈ kept, r.egressPort ≠ port ∧
        plane.tables.lookup "rid_filter" [r.rid % UInt16.size] = none) ∧
      emissions.map (·.port) = kept.map (·.egressPort)

/-- Drops are final: whatever commands have made of the tables and the groups, every frame within the
limit has an outcome without what is to be discarded. -/
def DropsFinal (p : Pipeline) : Prop :=
  ∀ plane, ControlPlane.Reachable program plane → ∀ frame : Frame, frame.length ≤ p.config.maxFrame →
    ∀ (port : Nat) (now : Time) (s : Numbering), ∃ outcome,
      { p with plane := plane }.process frame port now s =
          .ok outcome { s with nextPacket := s.nextPacket + 1 } ∧
        Discards plane frame.toBytes port outcome.emissions

section

variable {p : Pipeline} (installed : Installed p) (controls : p.controls = positions.controls)
  (reached : ControlPlane.Reachable program p.plane)

include installed controls reached

/-- With the drop port of the controls nothing leaves that is to be discarded. -/
theorem discards_forwarded (known : p.config.dropPort = 511) (id port : Nat) (frame : Frame)
    (now : Time) : Discards p.plane frame.toBytes port
      (p.forwarded frame now (p.afterIngress id frame port now)) := by
  refine ⟨?_, ?_, ?_⟩
  · intro call routed dropped
    have ports := ports_refused id port now installed controls reached routed
      (dropped.imp_right refused_of_drop)
    rw [if_pos known] at ports
    exact List.map_eq_nil_iff.mp ports
  · intro last
    obtain ⟨call, routed⟩ := exists_routed reached frame.toBytes
    obtain ⟨represents, cameBy⟩ :=
      afterIngress_represents id port now installed controls reached routed
    have ports := ports_forwarded installed controls reached represents cameBy frame now
    rw [known] at ports
    simp only [last, or_true, and_self, decide_true, Bool.not_true, List.filter_false, List.map_nil,
      if_true, ite_self] at ports
    exact List.map_eq_nil_iff.mp ports
  · intro c routed intact multicast group
    have ports := ports_multicast id port now installed controls reached routed intact rfl multicast
      group
    refine ⟨_, List.filter_sublist, ?_, ports⟩
    intro r member
    have stays := (List.mem_filter.mp member).2
    simp only [known, true_and, Bool.not_eq_true', decide_eq_false_iff_not, not_or,
      Bool.not_eq_true] at stays
    simp only [withheld, Bool.or_eq_false_iff, beq_eq_false_iff_ne, Option.isSome_eq_false_iff,
      Option.isNone_iff_eq_none] at stays
    refine ⟨?_, stays.1.2⟩
    rintro rfl
    exact stays.1.1 rfl

end

/-- For every setting there is a basic switch, and its drops are final exactly if the drop port is 511.
With any other drop port every frame that ingress refuses leaves once, by port 511. -/
theorem drops_final_iff (config : PipelineConfig) (start : Numbering) :
    ∃ p after, pipeline description config start = .ok p after ∧
      (DropsFinal p ↔ config.dropPort = 511) ∧
      (config.dropPort ≠ 511 → ∀ plane, ControlPlane.Reachable program plane →
        ∀ frame : Frame, frame.length ≤ config.maxFrame → ∀ (port : Nat) (now : Time) (s : Numbering)
          (call : Option ActionCall), Routed plane.tables frame.toBytes call →
          (BadChecksum frame.toBytes ∨ ∀ c ∈ call, c.action = "drop") → ∃ outcome,
            { p with plane := plane }.process frame port now s =
                .ok outcome { s with nextPacket := s.nextPacket + 1 } ∧
              outcome.emissions.map (·.port) = [511]) := by
  obtain ⟨p, after, new⟩ : ∃ p after, Pipeline.new program positions.controls config start =
      .ok p after := exists_new fields_ofLayout positions.controls config start
  obtain ⟨-, sameControls, rfl, -⟩ := new_eq_ok new
  have installed (plane : ControlPlane) : Installed { p with plane := plane } :=
    installed_of_new new plane
  have process (plane : ControlPlane) (frame : Frame) (short : frame.length ≤ p.config.maxFrame)
      (port : Nat) (now : Time) (s : Numbering) :=
    (installed plane).process_eq (sameControls ▸ positions.controls_fieldsOnly.1)
      (sameControls ▸ positions.controls_fieldsOnly.2) frame short port now s
  have leaves (other : p.config.dropPort ≠ 511) (plane : ControlPlane)
      (reached : ControlPlane.Reachable program plane) (frame : Frame)
      (short : frame.length ≤ p.config.maxFrame) (port : Nat) (now : Time) (s : Numbering)
      (call : Option ActionCall) (routed : Routed plane.tables frame.toBytes call)
      (dropped : BadChecksum frame.toBytes ∨ ∀ c ∈ call, c.action = "drop") : ∃ outcome,
        { p with plane := plane }.process frame port now s =
            .ok outcome { s with nextPacket := s.nextPacket + 1 } ∧
          outcome.emissions.map (·.port) = [511] := by
    obtain ⟨reports, done⟩ := process plane frame short port now s
    have ports := ports_refused s.nextPacket port now (installed plane) sameControls reached routed
      (dropped.imp_right refused_of_drop)
    rw [if_neg other] at ports
    exact ⟨_, done, ports⟩
  refine ⟨p, after, pipeline_eq_ok.mpr new, ⟨?_, ?_⟩, leaves⟩
  · -- a frame of no bytes is short enough for any limit, and it is neither IPv4 nor IPv6
    intro final
    by_contra other
    have fresh : ControlPlane.Reachable program ⟨program.tables, Multicast.empty⟩ := .loaded
    have short : (Frame.ofBytes 0 []).length ≤ p.config.maxFrame := Nat.zero_le _
    have routed : Routed program.tables (Frame.ofBytes 0 []).toBytes none :=
      Or.inr (Or.inr ⟨by decide, by decide, rfl⟩)
    have dropped : ∀ c ∈ (none : Option ActionCall), c.action = "drop" := by simp
    obtain ⟨outcome, done, discards⟩ := final _ fresh (Frame.ofBytes 0 []) short 0 .zero .initial
    obtain ⟨sent, again, ports⟩ := leaves other _ fresh (Frame.ofBytes 0 []) short 0 .zero .initial none
      routed (Or.inr dropped)
    obtain ⟨rfl, -⟩ := EStateM.Result.ok.inj (done.symm.trans again)
    rw [discards.refused none routed (Or.inr dropped)] at ports
    cases ports
  · intro known plane reached frame short port now s
    obtain ⟨reports, forwarded⟩ := process plane frame short port now s
    exact ⟨_, forwarded, discards_forwarded (installed plane) sameControls reached known s.nextPacket
      port frame now⟩

end BasicSwitch

end Switchyard
