import Switchyard.Proofs.BasicSwitch.Representation
import Switchyard.Proofs.Frame.Recovery

/-!
# The stages of a pipeline with the program of the basic switch

Whatever the controls are, the ingress control gets a packet that represents the bytes of the frame, with
no group set and the verdict on the checksum in a field; the egress control gets one that represents what
ingress left; and a frame that leaves has the corrected bytes of what egress left.
-/

namespace Switchyard

namespace BasicSwitch

open Packet Program Pipeline Sequencing

/-- The pipeline runs the program of the basic switch. -/
structure Installed (p : Pipeline) : Prop where
  program : p.program = program
  fields : p.fields = fields
  boundary : p.boundary = Boundary.standard p.config.maxFrame

/-- The pipeline runs the program of the basic switch with the default settings. -/
structure Runs (p : Pipeline) : Prop extends Installed p where
  config : p.config = .default

variable {p : Pipeline}

theorem installed_of_new {controls : Controls} {config : PipelineConfig} {start after : Numbering}
    (made : Pipeline.new program controls config start = .ok p after) (plane : ControlPlane) :
    Installed { p with plane := plane } := by
  obtain ⟨sameProgram, -, rfl, boundary, resolved⟩ := new_eq_ok made
  have fields := fields_ofLayout.symm.trans resolved
  exact ⟨sameProgram, (Except.ok.inj fields).symm, boundary⟩

theorem runs_of_new {controls : Controls} {start after : Numbering}
    (made : Pipeline.new program controls .default start = .ok p after) (plane : ControlPlane) :
    Runs { p with plane := plane } :=
  ⟨installed_of_new made plane, (new_eq_ok made).2.2.1⟩

theorem Installed.ready (installed : Installed p) : p.Ready := by
  refine ⟨?_, ?_, installed.boundary⟩
  · rw [installed.program]
    exact wellFormed_layout
  · rw [installed.program, installed.fields]
    exact StandardFields.resolved_of_ofLayout fields_ofLayout

theorem Installed.narrowGroup (installed : Installed p) :
    ∀ id, p.fields.group = some id → p.program.layout.width id ≤ 32 := by
  rw [installed.fields, installed.program]
  decide

theorem Installed.narrowSpec (installed : Installed p) :
    p.program.layout.width p.fields.egressSpec ≤ 32 := by
  rw [installed.fields, installed.program]
  decide

/-- The outcome of a frame is as specified, whatever the tables and the groups are. -/
theorem Installed.process_eq (installed : Installed p) (ingress : p.controls.ingress.FieldsOnly)
    (egress : p.controls.egress.FieldsOnly) (frame : Frame)
    (short : frame.length ≤ p.config.maxFrame) (port : Nat) (now : Time) (s : Numbering) :
    ∃ reports, p.process frame port now s =
      .ok ⟨p.forwarded frame now (p.afterIngress s.nextPacket frame port now), reports⟩
        { s with nextPacket := s.nextPacket + 1 } := by
  obtain ⟨reports, done⟩ := outcome_eq_forwarded installed.ready ingress egress installed.narrowGroup
    installed.narrowSpec s.nextPacket frame short port now
  exact ⟨reports, process_eq_ok done⟩

/-- A frame that is too long is an error, but it takes a packet number. -/
theorem Installed.process_of_long (installed : Installed p) {frame : Frame}
    (long : p.config.maxFrame < frame.length) (port : Nat) (now : Time) (s : Numbering) :
    p.process frame port now s =
      .error (.frameTooLarge frame.length p.config.maxFrame)
        { s with nextPacket := s.nextPacket + 1 } := by
  have refused : p.outcome s.nextPacket frame port now =
      .error (.frameTooLarge frame.length p.config.maxFrame) := by
    unfold outcome Boundary.enter
    rw [installed.boundary, Boundary.standard, if_pos long]
    rfl
  exact state_bind_eq_error.mpr (.inr ⟨s.nextPacket, _, rfl, ofExcept_eq_error.mpr ⟨refused, rfl⟩⟩)

theorem Runs.process_eq (runs : Runs p) (ingress : p.controls.ingress.FieldsOnly)
    (egress : p.controls.egress.FieldsOnly) (frame : Frame)
    (short : frame.length ≤ Boundary.defaultMaxFrame) (port : Nat) (now : Time) (s : Numbering) :
    ∃ reports, p.process frame port now s =
      .ok ⟨p.forwarded frame now (p.afterIngress s.nextPacket frame port now), reports⟩
        { s with nextPacket := s.nextPacket + 1 } :=
  runs.toInstalled.process_eq ingress egress frame (by rw [runs.config]; exact short) port now s

/-- A frame that is too long has no outcome. -/
theorem Runs.short_of_process (runs : Runs p) {frame : Frame} {port : Nat} {now : Time}
    {s t : Numbering} {outcome : Outcome} (done : p.process frame port now s = .ok outcome t) :
    frame.length ≤ Boundary.defaultMaxFrame := by
  obtain ⟨id, middle, -, done⟩ := state_bind_eq_ok.mp done
  obtain ⟨pkt, entered, -⟩ := bind_eq_ok.mp (ofExcept_eq_ok.mp done).1
  rw [runs.boundary, runs.config] at entered
  unfold Boundary.enter at entered
  split at entered
  case isTrue => contradiction
  case isFalse short => exact Nat.not_lt.mp short

/-! ## Ingress -/

/-- The packet that the parser gets. -/
def entry (id port : Nat) (now : Time) (data : Bytes) : Packet :=
  ((((Packet.new id port data layout).set 4 data.length).set 3 InstanceType.normal.code).set 7
    now.toNat).set 0 port

/-- The packet that the ingress control gets. -/
def shown (id port : Nat) (now : Time) (data : Bytes) : Packet :=
  let parsed := program.parse (entry id port now data)
  (parsed.set 5 parsed.parserError.code).set 6 parsed.checksumError.toNat

theorem Installed.parse_prepare (installed : Installed p) (id port : Nat) (now : Time)
    (data : Bytes) :
    p.parse (p.prepare port now (Packet.new id port data p.program.layout)) =
      shown id port now data := by
  unfold prepare Pipeline.parse
  rw [resetMetadata_new, installed.fields, installed.program]
  rfl

theorem parse_prepare (runs : Runs p) (id port : Nat) (now : Time) (data : Bytes) :
    p.parse (p.prepare port now (Packet.new id port data p.program.layout)) =
      shown id port now data :=
  runs.toInstalled.parse_prepare id port now data

variable (id port : Nat) (now : Time) (data : Bytes)

theorem entry_edits : Edits (Packet.new id port data layout) (entry id port now data) :=
  (((Edits.refl.set _ _).set _ _).set _ _).set _ _

theorem entry_data : (entry id port now data).data = data := rfl

theorem entry_parsable : Parsable (entry id port now data) :=
  have edits := entry_edits id port now data
  parsable_of_fresh ⟨edits.layout_eq, edits.wellFormed (wellFormed_new _ _ _ _), rfl⟩

theorem shown_represents : Represents (shown id port now data) data := by
  have parsed := parse_represents (entry_parsable id port now data)
  rw [entry_data] at parsed
  exact (parsed.set_metadata (by decide)).set_metadata (by decide)

/-- The parser leaves metadata alone. -/
theorem get_shown_metadata {field : Nat} (metadata : field < 13) (error : 5 ≠ field)
    (verdict : 6 ≠ field) :
    (shown id port now data).get field = (entry id port now data).get field := by
  have found := walk_start (entry_parsable id port now data)
  have apart : field ∉
      (entry id port now data).layout.fieldsOf (headersIn (entry id port now data).data) :=
    metadata_apart (headersIn_onWire _) metadata
  unfold shown
  rw [get_set_ne verdict, get_set_ne error, get_parse, found.others field apart]

/-- No group is set before ingress. -/
theorem shown_group : (shown id port now data).get 9 = 0 := by
  rw [get_shown_metadata id port now data (by decide) (by decide) (by decide)]
  unfold entry
  rw [get_set_ne (by decide), get_set_ne (by decide), get_set_ne (by decide), get_set_ne (by decide),
    get_new]

/-- The port by which the frame came, as far as the field holds it. -/
theorem shown_ingressPort : (shown id port now data).get 0 = port % 512 := by
  have parsable := entry_parsable id port now data
  have declared : 0 < (entry id port now data).values.length := by
    apply parsable.wellFormed.lt_values
    rw [parsable.layout]
    decide
  unfold entry at declared
  rw [length_set_values] at declared
  rw [get_shown_metadata id port now data (by decide) (by decide) (by decide)]
  exact get_set_self declared

/-- The parser finds a bad checksum exactly if the bytes hold another one than they should. -/
theorem shown_verdict : (shown id port now data).checksumError = true ↔
    HoldsIpv4 data ∧ storedChecksum data ≠ computedChecksum data := by
  have verdict := (parse_represents (entry_parsable id port now data)).hasBadChecksum_iff
  rw [entry_data, ← checksumError_parse] at verdict
  exact verdict

/-- The verdict on the checksum is shown in a field. -/
theorem shown_checksumError :
    (shown id port now data).get 6 ≠ 0 ↔
      HoldsIpv4 data ∧ storedChecksum data ≠ computedChecksum data := by
  have parsed := parse_represents (entry_parsable id port now data)
  rw [← shown_verdict]
  unfold shown
  rw [(parsed.set_metadata (by decide)).get_stored (by decide), set_checksumError,
    set_checksumError]
  cases (program.parse (entry id port now data)).checksumError <;> decide

/-- Ingress ends with what its control makes of the packet that it gets. -/
theorem afterIngress_eq (installed : Installed p) (frame : Frame) :
    p.afterIngress id frame port now =
      { (p.controls.ingress p.plane.tables (shown id port now frame.toBytes)).1 with
        exited := false } := by
  rw [← installed.parse_prepare id port now frame.toBytes]
  rfl

/-- Leaving a control early is no part of what a packet represents. -/
theorem Represents.resume {pkt : Packet} {b : Bytes} (represents : Represents pkt b) :
    Represents { pkt with exited := false } b := by
  obtain ⟨layout, wf, holds⟩ := represents
  exact ⟨layout, ⟨wf.values, wf.valid, wf.fits, wf.offset⟩,
    ⟨holds.order, holds.leads, holds.ends, holds.payload⟩⟩

theorem Represents.field?_group {pkt : Packet} {b : Bytes} (represents : Represents pkt b) :
    (pkt.field? "intrinsic_metadata.mcast_grp").getD 0 = pkt.get 9 := by
  have found : pkt.layout.fieldId? "intrinsic_metadata.mcast_grp" = some 9 := by
    rw [represents.layout]
    decide
  rw [field?, found]
  rfl

/-! ## Egress -/

/-- The metadata that a copy gets does not show in its bytes. -/
theorem Represents.assign {pkt : Packet} {b : Bytes} (represents : Represents pkt b)
    {new : List (String × Nat)}
    (names : ∀ entry ∈ new, ∀ id, BasicSwitch.layout.fieldId? entry.1 = some id → id < 13) :
    Represents (pkt.assign new) b := by
  induction new with
  | nil =>
    rw [assign_nil]
    exact represents
  | cons first new ih =>
    have rest := ih fun entry member => names entry (List.mem_cons_of_mem _ member)
    rw [assign_cons (by rw [represents.layout]; exact wellFormed_layout), represents.layout]
    cases found : BasicSwitch.layout.fieldId? first.1 with
    | none => exact rest
    | some id => exact rest.set_metadata (names first List.mem_cons_self id found)

theorem assign_egressMetadata {P : Packet} {b : Bytes} (represents : Represents P b)
    (length copyPort : Nat) (kind : InstanceType) (rid : Option Nat) :
    Represents (P.assign (p.egressMetadata length now kind rid copyPort)) b := by
  apply represents.assign
  have known : ∀ name ∈ [StandardFields.packetLengthName, StandardFields.egressSpecName,
      StandardFields.egressPortName, "intrinsic_metadata.egress_global_timestamp",
      "intrinsic_metadata.egress_rid", StandardFields.instanceTypeName],
      ∀ id ∈ layout.fieldId? name, id < 13 := by
    decide
  intro entry member id found
  refine known entry.1 ?_ id found
  unfold egressMetadata at member
  rcases List.mem_append.mp member with front | last
  · rcases List.mem_append.mp front with fixed | replication
    · simp only [List.mem_cons, List.not_mem_nil, or_false] at fixed
      rcases fixed with rfl | rfl | rfl | rfl <;> simp
    · cases rid with
      | none => contradiction
      | some rid =>
        rw [List.mem_singleton.mp replication]
        simp
  · rw [List.mem_singleton.mp last]
    simp

/-- A frame that leaves has the corrected bytes of what egress left, and the tags that it came with. -/
theorem emission_evaluated (installed : Installed p) {frame : Frame} {P : Packet} {b : Bytes}
    {metadata : List (String × Nat)} {copyPort : Nat} {e : Emission}
    (sent : p.evaluate frame P metadata copyPort = some e)
    (represents :
      Represents (p.controls.egress p.plane.tables (P.assign metadata)).1 b) :
    e.port = copyPort ∧ e.frame.toBytes = corrected b ∧ e.frame.packetTags = frame.packetTags ∧
      e.frame.byteTags.map (·.tag) = frame.byteTags.map (·.tag) := by
  obtain ⟨-, rfl⟩ := evaluate_eq_some.mp sent
  refine ⟨rfl, ?_, Boundary.tags_leave _ _ _⟩
  dsimp only
  rw [installed.boundary, Boundary.toBytes_leave, installed.program]
  exact represents.written_eq

end BasicSwitch

end Switchyard
