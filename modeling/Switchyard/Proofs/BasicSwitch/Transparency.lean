import Switchyard.Proofs.BasicSwitch.Stages
import Switchyard.Proofs.Pipeline.Script

/-!
# A switch that only picks a port is transparent

With an ingress control that does no more than choose a port, and no egress control, every frame comes
out once and with its bytes as they were, but for a wrong IPv4 checksum, which is corrected. What comes
out passes a second time unchanged.
-/

namespace Switchyard

namespace BasicSwitch

open Packet Pipeline

/-- The controls that send every frame to a port. -/
def toPort (k : Nat) : Controls := Controls.ofScripts [.set StandardFields.egressSpecName k] []

theorem toPort_ingress (k : Nat) : (toPort k).ingress.FieldsOnly :=
  Script.control_set_fieldsOnly .ingress _ _

theorem toPort_egress (k : Nat) : (toPort k).egress.FieldsOnly :=
  Script.control_nil_fieldsOnly .egress

variable {p : Pipeline} {k : Nat}

/-- The packet after ingress represents the frame, and `egress_spec` holds the port. -/
theorem afterIngress_toPort (runs : Runs p) (controls : p.controls = toPort k) (id : Nat)
    (frame : Frame) (port : Nat) (now : Time) :
    Represents (p.afterIngress id frame port now) frame.toBytes ∧
      (p.afterIngress id frame port now).get 9 = 0 ∧
      (p.afterIngress id frame port now).get 1 = k % 512 := by
  have represents := shown_represents id port now frame.toBytes
  have found : (shown id port now frame.toBytes).layout.fieldId? StandardFields.egressSpecName =
      some 1 := by
    rw [represents.layout]
    decide
  have stored : (p.controls.ingress p.plane.tables (shown id port now frame.toBytes)).1 =
      (shown id port now frame.toBytes).set 1 k := by
    rw [controls]
    exact congrArg Prod.fst (Script.control_set found)
  rw [afterIngress_eq id port now runs.toInstalled, stored]
  refine ⟨(represents.set_metadata (by decide)).resume, ?_, ?_⟩
  · rw [get_exited, get_set_ne (by decide), shown_group]
  · have width : layout.width 1 = 9 := by decide
    rw [get_exited, represents.get_stored (by decide), width]

/-- A packet with a port and no group leaves once, as the corrected bytes that it represents. -/
theorem forwarded_toPort (runs : Runs p) (controls : p.controls = toPort k) (kept : k % 512 ≠ 511)
    {P : Packet} {b : Bytes} (represents : Represents P b) (group : P.get 9 = 0)
    (spec : P.get 1 = k % 512) (frame : Frame) (now : Time) :
    ∃ g, p.forwarded frame now P = [⟨k % 512, g⟩] ∧ g.toBytes = corrected b := by
  have noGroup := represents.field?_group.trans group
  have isPort : P.get p.fields.egressSpec = k % 512 := by
    rw [runs.fields]
    exact spec
  have drop : p.config.dropPort = 511 := by
    rw [runs.config]
    rfl
  have layout : P.layout = p.program.layout := by
    rw [represents.layout, runs.program]
    rfl
  have idle (pkt : Packet) : (p.controls.egress p.plane.tables pkt).1 = pkt := by
    rw [controls]
    exact congrArg Prod.fst (Script.control_nil .egress p.plane.tables pkt)
  have stays := egressSpec_assign runs.ready layout represents.wellFormed frame.length now .normal
    none (k % 512)
  rw [← idle (P.assign _)] at stays
  obtain ⟨g, sent⟩ := exists_emission stays frame (k % 512)
  have assigned := assign_egressMetadata (p := p) now represents frame.length (k % 512) .normal none
  rw [← idle (P.assign _)] at assigned
  obtain ⟨-, bytes, -⟩ := emission_evaluated runs.toInstalled sent assigned
  have forwarded := forwarded_unicast noGroup (by rw [isPort, drop]; exact kept) frame now
  rw [isPort, sent] at forwarded
  exact ⟨g, forwarded, bytes⟩

/-- Every frame comes out once, with its checksum corrected. -/
theorem process_toPort (runs : Runs p) (controls : p.controls = toPort k) (kept : k % 512 ≠ 511)
    (frame : Frame) (short : frame.length ≤ Boundary.defaultMaxFrame) (port : Nat) (now : Time)
    (s : Numbering) :
    ∃ g reports, p.process frame port now s =
        .ok ⟨[⟨k % 512, g⟩], reports⟩ { s with nextPacket := s.nextPacket + 1 } ∧
      g.toBytes = corrected frame.toBytes := by
  obtain ⟨represents, group, spec⟩ := afterIngress_toPort runs controls s.nextPacket frame port now
  obtain ⟨reports, done⟩ := runs.process_eq (controls ▸ toPort_ingress k) (controls ▸ toPort_egress k)
    frame short port now s
  obtain ⟨g, forwarded, bytes⟩ :=
    forwarded_toPort runs controls kept represents group spec frame now
  rw [forwarded] at done
  exact ⟨g, reports, done, bytes⟩

/-- A frame that is not too long comes out once, by the chosen port. Of its bytes only the IPv4 checksum
can change, and it does exactly if the parser found it bad; what comes out passes again unchanged. -/
theorem transparent {program : Program} {start after : Numbering} {p : Pipeline} (k : Nat)
    (loaded : Program.load description = .ok program)
    (made : Pipeline.new program (toPort k) .default start = .ok p after) (kept : k % 512 ≠ 511)
    (plane : ControlPlane) (f : Frame) (short : f.length ≤ Boundary.defaultMaxFrame)
    (port : Nat) (now : Time) (s : Numbering) :
    let running := { p with plane := plane }
    let parsed := running.parse
      (running.prepare port now (Packet.new s.nextPacket port f.toBytes program.layout))
    ∃ g reports,
      running.process f port now s =
        .ok ⟨[⟨k % 512, g⟩], reports⟩ { s with nextPacket := s.nextPacket + 1 } ∧
      g.toBytes.length = f.toBytes.length ∧
      (∀ i, i ≠ 24 → i ≠ 25 → g.toBytes[i]? = f.toBytes[i]?) ∧
      (g.toBytes ≠ f.toBytes ↔ parsed.checksumError = true) ∧
      (parsed.checksumError = true ↔ parsed.headerValid "ipv4" = true ∧
        storedChecksum f.toBytes ≠ computedChecksum f.toBytes) ∧
      (parsed.headerValid "ipv4" = true ↔ HoldsIpv4 f.toBytes) ∧
      ∀ again later t, ∃ h reports,
        running.process g again later t =
          .ok ⟨[⟨k % 512, h⟩], reports⟩ { t with nextPacket := t.nextPacket + 1 } ∧
        h.toBytes = g.toBytes := by
  intro running parsed
  obtain rfl : BasicSwitch.program = program := Except.ok.inj (load_description.symm.trans loaded)
  have runs : Runs running := runs_of_new made plane
  have controls : running.controls = toPort k := (new_eq_ok made).2.1
  have parsedEq : parsed = shown s.nextPacket port now f.toBytes := by
    rw [← parse_prepare runs, runs.program]
  have verdict := shown_verdict s.nextPacket port now f.toBytes
  have valid := (shown_represents s.nextPacket port now f.toBytes).headerValid_ipv4
  rw [← parsedEq] at verdict valid
  obtain ⟨g, reports, done, bytes⟩ := process_toPort runs controls kept f short port now s
  refine ⟨g, reports, done, ?_, ?_, ?_, ?_, valid, ?_⟩
  · rw [bytes, length_corrected]
  · intro i high low
    rw [bytes, getElem?_corrected high low]
  · rw [bytes, verdict, Ne, corrected_eq_self_iff, Classical.not_imp]
  · rw [verdict, valid]
  · intro again later t
    have shortAgain : g.length ≤ Boundary.defaultMaxFrame := by
      rw [← Frame.length_toBytes, bytes, length_corrected, Frame.length_toBytes]
      exact short
    obtain ⟨h, more, doneAgain, same⟩ :=
      process_toPort runs controls kept g shortAgain again later t
    refine ⟨h, more, doneAgain, ?_⟩
    rw [same, bytes, corrected_corrected]

theorem transparent_tunnel :
    ∃ program p after, Program.load description = .ok program ∧
      Pipeline.new program (toPort 3) .default .initial = .ok p after ∧ 3 % 512 ≠ 511 ∧
      (Frame.ofBytes 1 Boundary.tunnel).length ≤ Boundary.defaultMaxFrame ∧
      let parsed := p.parse
        (p.prepare 7 .zero (Packet.new 0 7 Boundary.tunnel program.layout))
      ∃ g reports,
        p.process (Frame.ofBytes 1 Boundary.tunnel) 7 .zero .initial =
          .ok ⟨[⟨3, g⟩], reports⟩ { Numbering.initial with nextPacket := 1 } ∧
        g.toBytes.length = Boundary.tunnel.length ∧
        (∀ i, i ≠ 24 → i ≠ 25 → g.toBytes[i]? = Boundary.tunnel[i]?) ∧
        (g.toBytes ≠ Boundary.tunnel ↔ parsed.checksumError = true) ∧
        (parsed.checksumError = true ↔ parsed.headerValid "ipv4" = true ∧
          storedChecksum Boundary.tunnel ≠ computedChecksum Boundary.tunnel) ∧
        (parsed.headerValid "ipv4" = true ↔ HoldsIpv4 Boundary.tunnel) ∧
        ∀ again later t, ∃ h reports,
          p.process g again later t =
            .ok ⟨[⟨3, h⟩], reports⟩ { t with nextPacket := t.nextPacket + 1 } ∧
          h.toBytes = g.toBytes := by
  have resolved : StandardFields.ofLayout program.layout = .ok fields := fields_ofLayout
  obtain ⟨p, after, made⟩ := exists_new resolved (toPort 3) .default .initial
  exact ⟨program, p, after, load_description, made, by decide, by decide,
    transparent 3 load_description made (by decide) p.plane (Frame.ofBytes 1 Boundary.tunnel)
      (by decide) 7 .zero .initial⟩

end BasicSwitch

end Switchyard
