import Mathlib.Data.List.Basic
import Switchyard.Proofs.Pipeline.Forwarding

/-!
# The drop port and the width of `egress_spec`

A packet is marked to be dropped by storing the drop port in `egress_spec`. What is stored is cut to the
width of the field, but it is compared with the drop port as it was set. So a mark means something only if
the field can hold the drop port. If it cannot, the pipeline drops nothing at all: a marked packet leaves by
the port that is left of the drop port.
-/

namespace Switchyard

open Packet Sequencing

namespace Pipeline

variable {p : Pipeline} {pkt P : Packet} {queued : Queued} {frame : Frame} {now : Time}

/-- The number of ports that `egress_spec` can name. -/
def portBound (p : Pipeline) : Nat := Nat.pow 2 (p.program.layout.width p.fields.egressSpec)

/-- The packet has in `egress_spec` what is there after the drop port has been stored in it. -/
def MarkedToDrop (p : Pipeline) (pkt : Packet) : Prop :=
  ∃ before : Packet, before.layout = p.program.layout ∧ before.WellFormed ∧
    pkt.get p.fields.egressSpec =
      (before.set p.fields.egressSpec p.config.dropPort).get p.fields.egressSpec

/-- A mark is the drop port, cut to the width of the field. -/
theorem markedToDrop_iff (ready : p.Ready) :
    p.MarkedToDrop pkt ↔ pkt.get p.fields.egressSpec = p.config.dropPort % p.portBound := by
  have stored {before : Packet} (layout : before.layout = p.program.layout) (wf : before.WellFormed) :
      (before.set p.fields.egressSpec p.config.dropPort).get p.fields.egressSpec =
        p.config.dropPort % p.portBound := by
    have declared := Layout.fieldId?_lt ready.fields.egressSpec
    rw [get_set_self (wf.lt_values (layout ▸ declared)), layout, portBound]
  constructor
  · rintro ⟨before, layout, wf, same⟩
    rw [same, stored layout wf]
  · intro same
    have wf := wellFormed_new 0 0 [] p.program.layout
    exact ⟨_, rfl, wf, same.trans (stored rfl wf).symm⟩

/-- A mark is read as one exactly if the field can hold the drop port. -/
theorem MarkedToDrop.isDropped_iff (ready : p.Ready) (marked : p.MarkedToDrop pkt) :
    p.isDropped pkt = true ↔ p.config.dropPort < p.portBound := by
  rw [Pipeline.isDropped_iff, (markedToDrop_iff ready).mp marked]
  exact Nat.mod_eq_iff_lt (Nat.ne_of_gt (Nat.pow_pos (by decide)))

/-- Where the field cannot hold the drop port, no packet is taken for a marked one. -/
theorem isDropped_of_wide (wide : p.portBound ≤ p.config.dropPort)
    (layout : pkt.layout = p.program.layout) (wf : pkt.WellFormed) : p.isDropped pkt = false := by
  have small : pkt.get p.fields.egressSpec < p.portBound := by
    rw [portBound, ← layout]
    exact wf.fits p.fields.egressSpec
  exact beq_eq_false_iff_ne.mpr (Nat.ne_of_lt (Nat.lt_of_lt_of_le small wide))

/-! ## Copies -/

/-- The frame that a copy comes to at the output, if it comes there. -/
def sends (p : Pipeline) (frame : Frame) (now : Time) (queued : Queued) : Option Emission :=
  (p.depart frame now queued).toOption.bind (·.emission)

theorem sends_of_isDropped (dropped : p.isDropped (p.egress frame.length now queued).1 = true) :
    p.sends frame now queued = none := by
  unfold sends depart
  simp only [dropped, if_true]
  rfl

/-- The copies on their way to egress are edits of the packet after ingress. -/
theorem descends_of_mem_queue (member : queued ∈ p.queue P) : Descends P queued.packet := by
  unfold queue at member
  dsimp only at member
  split at member
  case isTrue =>
    obtain ⟨⟨replica, index⟩, -, rfl⟩ := List.mem_map.mp member
    have replicated : Edits P (P.set p.fields.instanceType InstanceType.replication.code) :=
      Edits.refl.set _ _
    exact (replicated.descends.trans (descends_copy _ _)).trans (setOptional_edits _ _ _).descends
  case isFalse =>
    split at member
    case isTrue => cases member
    case isFalse =>
      obtain rfl := List.mem_singleton.mp member
      exact (Edits.refl.set _ _).descends

/-- What egress makes of a copy, if its control works on fields and flags. -/
theorem egress_descends (fieldsOnly : p.controls.egress.FieldsOnly) (length : Nat) (now : Time)
    (queued : Queued) : Descends queued.packet (p.egress length now queued).1 := by
  have shown : Edits queued.packet
      ((((setOptional p.fields.egressTime now.toNat queued.packet).set p.fields.egressPort
        queued.port).set p.fields.egressSpec (p.config.dropPort + 1)).set p.fields.packetLength length) :=
    (((setOptional_edits _ _ _).set _ _).set _ _).set _ _
  exact (shown.trans (fieldsOnly.writes p.plane.tables _)).descends

/-- Where the field cannot hold the drop port, every copy leaves by its port. -/
theorem exists_departure (wide : p.portBound ≤ p.config.dropPort)
    (fieldsOnly : p.controls.egress.FieldsOnly) (layout : queued.packet.layout = p.program.layout)
    (wf : queued.packet.WellFormed) (frame : Frame) (now : Time) :
    ∃ departure g, p.depart frame now queued = .ok departure ∧
      departure.emission = some ⟨queued.port, g⟩ := by
  have descends := p.egress_descends fieldsOnly frame.length now queued
  have stays := isDropped_of_wide wide (descends.layout.trans layout) (descends.wellFormed wf)
  obtain ⟨out, done, -⟩ := Program.deparse_ok (p := p.program) (descends.wellFormed wf).offset
  unfold depart
  simp only [stays, Bool.false_eq_true, if_false, done]
  exact ⟨_, _, rfl, rfl⟩

/-! ## Frames -/

/-- A frame is processed to the outcome of the packet that it becomes. -/
theorem outcome_of_process {s after : Numbering} {port : Nat} {outcome : Outcome}
    (done : p.process frame port now s = .ok outcome after) :
    p.outcome s.nextPacket frame port now = .ok outcome := by
  obtain ⟨id, numbered, taken, last⟩ := state_bind_eq_ok.mp done
  obtain ⟨rfl, -⟩ := EStateM.Result.ok.inj taken
  exact (ofExcept_eq_ok.mp last).1

theorem departures_of_outcome {id port : Nat} {outcome : Outcome}
    (done : p.outcome id frame port now = .ok outcome) (ready : p.Ready) :
    ∃ departures, (p.queue (p.afterIngress id frame port now)).mapM (p.depart frame now) =
        .ok departures ∧ outcome.emissions = departures.filterMap (·.emission) := by
  obtain ⟨pkt, entered, done⟩ := bind_eq_ok.mp done
  obtain ⟨departures, departed, done⟩ := bind_eq_ok.mp done
  rw [ready.boundary] at entered
  unfold Boundary.enter at entered
  split at entered
  case isTrue => cases entered
  case isFalse =>
    cases entered
    cases done
    exact ⟨departures, departed, rfl⟩

/-- Marks are kept to: a frame that ingress marks, and sets no group for, comes to nothing, and what leaves
for other frames are the copies that egress does not mark. -/
structure DropsMarked (p : Pipeline) : Prop where
  ingress : ∀ frame : Frame, frame.length ≤ p.config.maxFrame → ∀ (port : Nat) (now : Time) (s : Numbering),
    p.MarkedToDrop (p.afterIngress s.nextPacket frame port now) →
    p.groupOf (p.afterIngress s.nextPacket frame port now) = 0 →
    ∃ reports, p.process frame port now s = .ok ⟨[], reports⟩ { s with nextPacket := s.nextPacket + 1 }
  egress : ∀ (frame : Frame) (port : Nat) (now : Time) (s after : Numbering) (outcome : Outcome),
    p.process frame port now s = .ok outcome after →
    outcome.emissions =
        (p.queue (p.afterIngress s.nextPacket frame port now)).filterMap (p.sends frame now) ∧
      ∀ queued ∈ p.queue (p.afterIngress s.nextPacket frame port now),
        p.MarkedToDrop (p.egress frame.length now queued).1 → p.sends frame now queued = none

theorem dropsMarked_of_lt (ready : p.Ready) (holds : p.config.dropPort < p.portBound) :
    p.DropsMarked := by
  constructor
  case ingress =>
    intro frame short port now s marked noGroup
    have nothing : p.queue (p.afterIngress s.nextPacket frame port now) = [] := by
      unfold queue
      simp only [noGroup, ne_eq, not_true_eq_false, if_false, (marked.isDropped_iff ready).mpr holds,
        if_true]
    have departed : (p.queue (p.afterIngress s.nextPacket frame port now)).mapM (p.depart frame now) =
        .ok [] := by
      rw [nothing]
      rfl
    obtain ⟨reports, done⟩ := outcome_of_departures ready short departed
    exact ⟨reports, process_eq_ok done⟩
  case egress =>
    intro frame port now s after outcome done
    obtain ⟨departures, departed, emissions⟩ := departures_of_outcome (outcome_of_process done) ready
    refine ⟨emissions.trans (filterMap_of_mapM_eq_ok departed _), ?_⟩
    intro queued _ marked
    exact sends_of_isDropped ((marked.isDropped_iff ready).mpr holds)

/-- A marked frame is on its way to the port that is left of the drop port. -/
theorem queue_of_wide (ready : p.Ready) (wide : p.portBound ≤ p.config.dropPort)
    (marked : p.MarkedToDrop P) (noGroup : p.groupOf P = 0) :
    (p.queue P).map (·.port) = [word (p.config.dropPort % p.portBound)] := by
  have stays : ¬p.isDropped P = true := by
    rw [marked.isDropped_iff ready]
    exact Nat.not_lt.mpr wide
  unfold queue
  simp only [noGroup, ne_eq, not_true_eq_false, if_false, stays, (markedToDrop_iff ready).mp marked,
    Bool.false_eq_true, List.map_cons, List.map_nil]

/-- Nothing is dropped: a frame leaves by all ports that the traffic manager finds for it, and one that
ingress marks by the port that is left of the drop port. -/
def DropsNothing (p : Pipeline) : Prop :=
  ∀ frame : Frame, frame.length ≤ p.config.maxFrame → ∀ (port : Nat) (now : Time) (s : Numbering),
    let P := p.afterIngress s.nextPacket frame port now
    ∃ outcome, p.process frame port now s = .ok outcome { s with nextPacket := s.nextPacket + 1 } ∧
      outcome.emissions.map (·.port) = (p.queue P).map (·.port) ∧
      (p.MarkedToDrop P → p.groupOf P = 0 →
        outcome.emissions.map (·.port) = [word (p.config.dropPort % p.portBound)])

theorem dropsNothing_of_wide (ready : p.Ready) (wide : p.portBound ≤ p.config.dropPort)
    (ingress : p.controls.ingress.FieldsOnly) (egress : p.controls.egress.FieldsOnly) :
    p.DropsNothing := by
  intro frame short port now s P
  have descends := p.afterIngress_descends ingress s.nextPacket frame port now
  have wf := descends.wellFormed (wellFormed_new _ _ _ _)
  have leaves : ∀ queued ∈ p.queue P, ∃ departure g, p.depart frame now queued = .ok departure ∧
      departure.emission = some ⟨queued.port, g⟩ := by
    intro queued member
    have further := descends_of_mem_queue member
    exact exists_departure wide egress (further.layout.trans descends.layout) (further.wellFormed wf)
      frame now
  obtain ⟨departures, departed⟩ := exists_mapM_eq_ok fun queued member =>
    (leaves queued member).imp fun _ sent => sent.choose_spec.1
  obtain ⟨reports, done⟩ := outcome_of_departures ready short departed
  have ports : (departures.filterMap (·.emission)).map (·.port) = (p.queue P).map (·.port) := by
    rw [filterMap_of_mapM_eq_ok departed, List.map_filterMap, ← List.filterMap_eq_map]
    apply List.filterMap_congr
    intro queued member
    obtain ⟨departure, g, sent, emission⟩ := leaves queued member
    rw [sent]
    simp [Except.toOption, emission]
  refine ⟨_, process_eq_ok done, ports, ?_⟩
  intro marked noGroup
  exact ports.trans (queue_of_wide ready wide marked noGroup)

/-! ## Marking controls -/

/-- Controls that mark every frame and do nothing else. -/
def marking (fields : StandardFields) (dropPort : Nat) : Controls :=
  ⟨Control.silent fun _ pkt => (setOptional fields.group 0 pkt).set fields.egressSpec dropPort,
    Control.skip⟩

theorem marking_fieldsOnly (fields : StandardFields) (dropPort : Nat) :
    (marking fields dropPort).ingress.FieldsOnly ∧ (marking fields dropPort).egress.FieldsOnly := by
  refine ⟨⟨?_, ?_⟩, ⟨fun _ _ => Edits.refl, fun _ _ _ same => same⟩⟩
  · intro tables pkt
    exact (setOptional_edits _ _ _).set _ _
  · intro tables pkt other same
    have cleared : SameFields (setOptional fields.group 0 pkt) (setOptional fields.group 0 other) := by
      cases fields.group with
      | none => exact same
      | some group => exact same.set group 0
    exact cleared.set _ _

/-- They do mark it. -/
theorem marked_of_marking (ready : p.Ready)
    (controls : p.controls = marking p.fields p.config.dropPort) (id : Nat) (frame : Frame) (port : Nat)
    (now : Time) :
    p.MarkedToDrop (p.afterIngress id frame port now) ∧ p.groupOf (p.afterIngress id frame port now) = 0 := by
  let shown := p.parse (p.prepare port now (Packet.new id port frame.toBytes p.program.layout))
  let cleared := setOptional p.fields.group 0 shown
  have ingress : p.afterIngress id frame port now =
      { cleared.set p.fields.egressSpec p.config.dropPort with exited := false } := by
    show ({ (p.controls.ingress p.plane.tables shown).1 with exited := false } : Packet) = _
    rw [controls]
    rfl
  have descends : Descends (Packet.new id port frame.toBytes p.program.layout) cleared :=
    ((p.prepare_edits port now (Packet.new id port frame.toBytes p.program.layout)).descends.trans
      (p.parse_descends _)).trans (setOptional_edits _ _ _).descends
  have wf := descends.wellFormed (wellFormed_new _ _ _ _)
  rw [ingress]
  refine ⟨⟨cleared, descends.layout, wf, rfl⟩, ?_⟩
  unfold groupOf
  cases declared : p.fields.group with
  | none => rfl
  | some group =>
    have named := ready.fields.group.trans declared
    have other : p.fields.egressSpec ≠ group :=
      Layout.fieldId?_ne ready.fields.egressSpec named (by decide)
    have inside : group < shown.values.length := by
      have before : Descends (Packet.new id port frame.toBytes p.program.layout) shown :=
        (p.prepare_edits port now (Packet.new id port frame.toBytes p.program.layout)).descends.trans
          (p.parse_descends _)
      have declared := Layout.fieldId?_lt named
      exact (before.wellFormed (wellFormed_new _ _ _ _)).lt_values (before.layout ▸ declared)
    have zero : cleared.get group = 0 := by
      show (setOptional p.fields.group 0 shown).get group = 0
      rw [declared]
      exact (get_set_self inside).trans (Nat.zero_mod _)
    show (cleared.set p.fields.egressSpec p.config.dropPort).get group = 0
    rw [get_set_ne other, zero]

/-! ## The drop port -/

/-- For every program and setting, marks are kept to in all pipelines exactly if `egress_spec` can hold the
drop port. If it cannot, no pipeline drops anything, as long as its controls work on fields and flags. -/
theorem drops_marked_iff {d : Description} {program : Program} {fields : StandardFields}
    (loaded : Program.load d = .ok program)
    (resolved : StandardFields.ofLayout program.layout = .ok fields) (config : PipelineConfig) :
    let bound := Nat.pow 2 (program.layout.width fields.egressSpec)
    ((∀ controls start p after, new program controls config start = .ok p after →
        ∀ plane, { p with plane := plane }.DropsMarked) ↔ config.dropPort < bound) ∧
    (bound ≤ config.dropPort → ∀ controls start p after, new program controls config start = .ok p after →
      controls.ingress.FieldsOnly → controls.egress.FieldsOnly →
        ∀ plane, { p with plane := plane }.DropsNothing) := by
  intro bound
  have bounds {controls : Controls} {start after : Numbering} {p : Pipeline}
      (made : new program controls config start = .ok p after) : p.portBound = bound := by
    obtain ⟨same, -, -, -, found⟩ := new_eq_ok made
    rw [resolved] at found
    rw [portBound, same, ← Except.ok.inj found]
  have leaves (wide : bound ≤ config.dropPort) (controls start p after)
      (made : new program controls config start = .ok p after) (ingress : controls.ingress.FieldsOnly)
      (egress : controls.egress.FieldsOnly) (plane : ControlPlane) :
      { p with plane := plane }.DropsNothing := by
    have ready := ready_of_new loaded made plane
    have same := bounds made
    obtain ⟨-, rfl, rfl, -⟩ := new_eq_ok made
    exact dropsNothing_of_wide ready (same ▸ wide) ingress egress
  refine ⟨⟨?_, ?_⟩, leaves⟩
  · -- the frame of no bytes is short enough for any limit
    intro kept
    rw [← Nat.not_le]
    intro wide
    obtain ⟨p, after, made⟩ := exists_new resolved (marking fields config.dropPort) config .initial
    have ready := ready_of_new loaded made p.plane
    have both := marking_fieldsOnly fields config.dropPort
    have final := kept _ _ _ _ made p.plane
    have nothing := leaves wide _ _ _ _ made both.1 both.2 p.plane
    obtain ⟨-, controls, rfl, -, found⟩ := new_eq_ok made
    obtain rfl := Except.ok.inj (resolved.symm.trans found)
    have short : (Frame.ofBytes 0 []).length ≤ p.config.maxFrame := Nat.zero_le _
    obtain ⟨marked, noGroup⟩ := marked_of_marking ready controls 0 (Frame.ofBytes 0 []) 0 .zero
    obtain ⟨reports, empty⟩ := final.ingress _ short 0 .zero .initial marked noGroup
    obtain ⟨outcome, done, -, ports⟩ := nothing _ short 0 .zero .initial
    obtain ⟨rfl, -⟩ := EStateM.Result.ok.inj (empty.symm.trans done)
    cases ports marked noGroup
  · intro holds controls start p after made plane
    have ready := ready_of_new loaded made plane
    have same := bounds made
    obtain ⟨-, -, rfl, -⟩ := new_eq_ok made
    exact dropsMarked_of_lt ready (same ▸ holds)

/-- With nine bits for a port, the drop port 1000 comes to 488, and a marked frame leaves by that port. -/
theorem drops_marked_iff_hub : ∃ program fields p after outcome next,
    Program.load hub = .ok program ∧ StandardFields.ofLayout program.layout = .ok fields ∧
    program.layout.width fields.egressSpec = 9 ∧
    new program (marking fields 1000) { PipelineConfig.default with dropPort := 1000 } .initial =
      .ok p after ∧
    p.MarkedToDrop (p.afterIngress 0 (Frame.ofBytes 0 [1, 2, 3]) 1 .zero) ∧
    p.process (Frame.ofBytes 0 [1, 2, 3]) 1 .zero .initial = .ok outcome next ∧
    outcome.emissions.map (·.port) = [488] := by
  obtain ⟨program, fields, loaded, resolved, width⟩ : ∃ program fields,
      Program.load hub = .ok program ∧ StandardFields.ofLayout program.layout = .ok fields ∧
        program.layout.width fields.egressSpec = 9 := ⟨_, _, rfl, rfl, rfl⟩
  let config : PipelineConfig := { PipelineConfig.default with dropPort := 1000 }
  obtain ⟨p, after, made⟩ := exists_new resolved (marking fields 1000) config .initial
  have both := marking_fieldsOnly fields 1000
  have wide : Nat.pow 2 (program.layout.width fields.egressSpec) ≤ config.dropPort := by
    rw [width]
    decide
  have nothing := (drops_marked_iff loaded resolved config).2 wide _ _ _ _ made both.1 both.2 p.plane
  have ready := ready_of_new loaded made p.plane
  obtain ⟨same, controls, setting, -, found⟩ := new_eq_ok made
  obtain rfl := Except.ok.inj (resolved.symm.trans found)
  have port : p.config.dropPort % p.portBound = 488 := by
    rw [portBound, same, width, setting]
    exact show 1000 % Nat.pow 2 9 = 488 by decide
  have short : (Frame.ofBytes 0 [1, 2, 3]).length ≤ p.config.maxFrame := by
    rw [setting]
    decide
  obtain ⟨marked, noGroup⟩ := marked_of_marking ready (by rw [setting]; exact controls) 0
    (Frame.ofBytes 0 [1, 2, 3]) 1 .zero
  obtain ⟨outcome, done, -, ports⟩ := nothing _ short 1 .zero .initial
  have left := ports marked noGroup
  rw [port] at left
  exact ⟨program, p.fields, p, after, outcome, _, loaded, resolved, width, made, marked, done, left⟩

end Pipeline

end Switchyard
