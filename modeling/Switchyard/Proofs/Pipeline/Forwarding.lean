import Switchyard.Proofs.Packet.Deparse
import Switchyard.Proofs.Packet.Extraction
import Switchyard.Proofs.Pipeline.Standard

/-!
# Forwarding as one specification

`Pipeline.forwarded` says which frames leave a pipeline, in terms of the packet `P` after ingress: one
for each copy of the multicast group that is set in `P`, in the order of the group, or else at most one
for the port in `egress_spec`. Each copy is evaluated by itself, from `P` with metadata of its own, and
goes missing exactly if its egress control leaves the drop port in `egress_spec`.

A pipeline whose controls work on fields and flags only does exactly that.
-/

namespace Switchyard

open Packet Sequencing

/-! ## Controls that work on fields and flags -/

/-- A control that changes a packet by storing values and setting flags only, and that decides by the
values and flags only. -/
structure Control.FieldsOnly (control : Control) : Prop where
  writes : ∀ tables pkt, Edits pkt (control tables pkt).1
  reads : ∀ tables pkt other, SameFields pkt other →
    SameFields (control tables pkt).1 (control tables other).1

namespace Control.FieldsOnly

variable {control : Control}

/-- The number of a copy is not seen. -/
theorem copy_alike (fieldsOnly : control.FieldsOnly) (tables : TableStore) (pkt : Packet)
    (copyId : Nat) : Alike (control tables (pkt.copy copyId)).1 (control tables pkt).1 := by
  have edits := fieldsOnly.writes tables pkt
  have copyEdits := fieldsOnly.writes tables (pkt.copy copyId)
  have same := fieldsOnly.reads tables (pkt.copy copyId) pkt ⟨rfl, rfl, rfl⟩
  exact ⟨same, copyEdits.payload_eq.trans edits.payload_eq.symm⟩

end Control.FieldsOnly

namespace Pipeline

/-! ## The specification -/

/-- The packet after the ingress control. -/
def afterIngress (p : Pipeline) (id : Nat) (frame : Frame) (port : Nat) (now : Time) : Packet :=
  (p.ingress port now (Packet.new id port frame.toBytes p.program.layout)).1

/-- The metadata that a copy gets on its way to the egress control; a copy for no group has no
replication number. -/
def egressMetadata (p : Pipeline) (length : Nat) (now : Time) (kind : InstanceType)
    (rid : Option Nat) (port : Nat) : List (String × Nat) :=
  [(StandardFields.packetLengthName, length),
    (StandardFields.egressSpecName, p.config.dropPort + 1),
    (StandardFields.egressPortName, port),
    ("intrinsic_metadata.egress_global_timestamp", now.toNat)] ++
  (rid.map fun rid => ("intrinsic_metadata.egress_rid", rid)).toList ++
  [(StandardFields.instanceTypeName, kind.code)]

/-- The metadata of a copy for a member of a group. -/
def replicaMetadata (p : Pipeline) (length : Nat) (now : Time) (r : Replica) : List (String × Nat) :=
  p.egressMetadata length now .replication (some r.rid) r.egressPort

/-- What leaves by a port when the packet `P` comes to the egress control with the given metadata. -/
def evaluate (p : Pipeline) (frame : Frame) (P : Packet) (metadata : List (String × Nat))
    (port : Nat) : Option Emission :=
  let out := (p.controls.egress p.plane.tables (P.assign metadata)).1
  if out.get p.fields.egressSpec = p.config.dropPort then none
  else some ⟨port, p.boundary.leave (out.setData (p.program.written out)) frame⟩

/-- The frames that leave when `P` is the packet after the ingress control. -/
def forwarded (p : Pipeline) (frame : Frame) (now : Time) (P : Packet) : List Emission :=
  let group := (P.field? "intrinsic_metadata.mcast_grp").getD 0
  let port := P.get p.fields.egressSpec
  if group ≠ 0 then
    (p.plane.multicast.replicate group).filterMap fun r =>
      p.evaluate frame P (p.replicaMetadata frame.length now r) r.egressPort
  else if port = p.config.dropPort then []
  else (p.evaluate frame P (p.egressMetadata frame.length now .normal none port) port).toList

/-- What is evaluated leaves exactly if egress does not mark it to be dropped. -/
theorem evaluate_eq_some {p : Pipeline} {frame : Frame} {P : Packet}
    {metadata : List (String × Nat)} {port : Nat} {e : Emission} :
    p.evaluate frame P metadata port = some e ↔
      (p.controls.egress p.plane.tables (P.assign metadata)).1.get p.fields.egressSpec ≠
        p.config.dropPort ∧
      e = ⟨port, p.boundary.leave ((p.controls.egress p.plane.tables (P.assign metadata)).1.setData
        (p.program.written (p.controls.egress p.plane.tables (P.assign metadata)).1)) frame⟩ := by
  unfold evaluate
  dsimp only
  split
  case isTrue dropped => simp [dropped]
  case isFalse kept => simp [kept, eq_comm]

theorem exists_emission {p : Pipeline} {P : Packet} {metadata : List (String × Nat)}
    (kept : (p.controls.egress p.plane.tables (P.assign metadata)).1.get p.fields.egressSpec ≠
      p.config.dropPort) (frame : Frame) (port : Nat) :
    ∃ g, p.evaluate frame P metadata port = some ⟨port, g⟩ :=
  ⟨_, evaluate_eq_some.mpr ⟨kept, rfl⟩⟩

theorem forwarded_unicast {p : Pipeline} {P : Packet}
    (noGroup : (P.field? "intrinsic_metadata.mcast_grp").getD 0 = 0)
    (kept : P.get p.fields.egressSpec ≠ p.config.dropPort) (frame : Frame) (now : Time) :
    p.forwarded frame now P = (p.evaluate frame P
      (p.egressMetadata frame.length now .normal none (P.get p.fields.egressSpec))
      (P.get p.fields.egressSpec)).toList := by
  unfold forwarded
  rw [noGroup]
  exact if_neg kept

/-- A frame leaves only if ingress set a group or a port, and after an evaluation of its own. -/
theorem mem_forwarded {p : Pipeline} {frame : Frame} {now : Time} {P : Packet} {e : Emission}
    (member : e ∈ p.forwarded frame now P) :
    ((P.field? "intrinsic_metadata.mcast_grp").getD 0 ≠ 0 ∨
      P.get p.fields.egressSpec ≠ p.config.dropPort) ∧
    ∃ kind rid port, p.evaluate frame P
      (p.egressMetadata frame.length now kind rid port) port = some e := by
  unfold forwarded at member
  dsimp only at member
  split at member
  case isTrue multicast =>
    obtain ⟨r, -, sent⟩ := List.mem_filterMap.mp member
    exact ⟨Or.inl multicast, _, _, _, sent⟩
  case isFalse =>
    split at member
    case isTrue => contradiction
    case isFalse kept => exact ⟨Or.inr kept, _, _, _, Option.mem_toList.mp member⟩

/-! ## Pipelines that are ready -/

/-- What making a pipeline establishes; commands keep it. -/
structure Ready (p : Pipeline) : Prop where
  layout : p.program.layout.WellFormed
  fields : StandardFields.Resolved p.program.layout p.fields
  boundary : p.boundary = Boundary.standard p.config.maxFrame

theorem new_eq_ok {program : Program} {controls : Controls} {config : PipelineConfig}
    {start after : Numbering} {p : Pipeline} (made : new program controls config start = .ok p after) :
    p.program = program ∧ p.controls = controls ∧ p.config = config ∧
      p.boundary = Boundary.standard config.maxFrame ∧
      StandardFields.ofLayout program.layout = .ok p.fields := by
  obtain ⟨fields, middle, resolved, made⟩ := state_bind_eq_ok.mp made
  obtain ⟨controlPort, last, -, made⟩ := state_bind_eq_ok.mp made
  obtain ⟨rfl, rfl⟩ := state_pure_eq_ok.mp made
  exact ⟨rfl, rfl, rfl, rfl, (ofExcept_eq_ok.mp resolved).1⟩

theorem exists_new {program : Program} {fields : StandardFields}
    (resolved : StandardFields.ofLayout program.layout = .ok fields) (controls : Controls)
    (config : PipelineConfig) (start : Numbering) :
    ∃ p after, new program controls config start = .ok p after :=
  ⟨_, _, state_bind_eq_ok.mpr ⟨fields, start, ofExcept_eq_ok.mpr ⟨resolved, rfl⟩, rfl⟩⟩

theorem ready_of_new {d : Description} {program : Program} {controls : Controls}
    {config : PipelineConfig} {start after : Numbering} {p : Pipeline}
    (loaded : Program.load d = .ok program) (made : new program controls config start = .ok p after)
    (plane : ControlPlane) : Ready { p with plane := plane } := by
  obtain ⟨rfl, -, rfl, boundary, resolved⟩ := new_eq_ok made
  exact ⟨Program.wellFormed_of_load loaded, StandardFields.resolved_of_ofLayout resolved, boundary⟩

/-! ## Ingress -/

theorem setOptional_edits (field : Option FieldId) (value : Nat) (pkt : Packet) :
    Edits pkt (setOptional field value pkt) := by
  cases field with
  | none => exact Edits.refl
  | some id => exact Edits.refl.set id value

theorem prepare_edits (p : Pipeline) (port : Nat) (now : Time) (pkt : Packet) :
    Edits pkt (p.prepare port now pkt) := by
  have edits := (pkt.resetMetadata_edits.set p.fields.packetLength pkt.data.length).set
    p.fields.instanceType InstanceType.normal.code
  exact (edits.trans (setOptional_edits _ _ _)).set _ _

theorem parse_descends (p : Pipeline) (pkt : Packet) : Descends pkt (p.parse pkt) :=
  ((p.program.parse_descends pkt).trans (setOptional_edits _ _ _).descends).trans
    (setOptional_edits _ _ _).descends

/-- Ingress ends with the packet that came in, parsed and edited. -/
theorem afterIngress_descends (p : Pipeline) (writes : p.controls.ingress.FieldsOnly) (id : Nat)
    (frame : Frame) (port : Nat) (now : Time) :
    Descends (Packet.new id port frame.toBytes p.program.layout)
      (p.afterIngress id frame port now) := by
  have prepared := (p.prepare_edits port now (Packet.new id port frame.toBytes p.program.layout)).descends
  have parsed := prepared.trans (p.parse_descends _)
  have controlled := parsed.trans (writes.writes p.plane.tables _).descends
  refine ⟨controlled.id, controlled.layout, controlled.data, ?_⟩
  intro wf
  have kept := controlled.wellFormed wf
  exact ⟨kept.values, kept.valid, kept.fits, kept.offset⟩

/-! ## Egress -/

variable {p : Pipeline} {P : Packet}

theorem isDropped_iff : p.isDropped P = true ↔ P.get p.fields.egressSpec = p.config.dropPort :=
  beq_iff_eq

/-- The metadata that egress stores comes in front of what the traffic manager has stored. -/
theorem egress_copy (ready : p.Ready) (layout : P.layout = p.program.layout) (length : Nat)
    (now : Time) (port copyId : Nat) (base : List (String × Nat)) :
    p.egress length now ⟨port, (P.assign base).copy copyId⟩ =
      p.controls.egress p.plane.tables ((P.assign
        ([(StandardFields.packetLengthName, length),
          (StandardFields.egressSpecName, p.config.dropPort + 1),
          (StandardFields.egressPortName, port),
          ("intrinsic_metadata.egress_global_timestamp", now.toNat)] ++ base)).copy copyId) := by
  have named : P.layout.WellFormed := layout ▸ ready.layout
  simp only [List.cons_append, List.nil_append, assign_cons named]
  rw [layout, ready.fields.packetLength, ready.fields.egressSpec, ready.fields.egressPort,
    ready.fields.egressTime]
  unfold egress
  cases p.fields.egressTime <;> rfl

theorem leave_congr (boundary : Boundary) {pkt other : Packet} (origin : Frame)
    (id : pkt.id = other.id) (data : pkt.data = other.data) :
    boundary.leave pkt origin = boundary.leave other origin := by
  unfold Boundary.leave
  rw [id, data]

/-- A copy goes through egress and out as its evaluation says. -/
theorem depart_copy (ready : p.Ready) (fieldsOnly : p.controls.egress.FieldsOnly)
    (layout : P.layout = p.program.layout) (wf : P.WellFormed) (frame : Frame) (now : Time)
    (metadata : List (String × Nat)) (copyId : Nat) (queued : Queued)
    (arrives : p.egress frame.length now queued =
      p.controls.egress p.plane.tables ((P.assign metadata).copy copyId)) :
    p.depart frame now queued = .ok
      ⟨p.evaluate frame P metadata queued.port, (p.egress frame.length now queued).2⟩ := by
  have named : P.layout.WellFormed := layout ▸ ready.layout
  have alike := fieldsOnly.copy_alike p.plane.tables (P.assign metadata) copyId
  have assigned := (assign_edits named metadata).trans (fieldsOnly.writes p.plane.tables _)
  have start := (assign_edits named metadata).descends.trans (descends_copy (P.assign metadata) copyId)
  have copied := start.trans (fieldsOnly.writes p.plane.tables _).descends
  unfold depart
  rw [arrives]
  unfold evaluate isDropped
  dsimp only
  rw [alike.get_eq]
  by_cases dropped : (p.controls.egress p.plane.tables (P.assign metadata)).1.get
      p.fields.egressSpec = p.config.dropPort
  · rw [if_pos (beq_iff_eq.mpr dropped), if_pos dropped]
    rfl
  · rw [if_neg (mt beq_iff_eq.mp dropped), if_neg dropped]
    obtain ⟨out, done, id, data⟩ := Program.deparse_ok (p := p.program) (copied.wellFormed wf).offset
    rw [done]
    have same : p.boundary.leave out frame = p.boundary.leave
        ((p.controls.egress p.plane.tables (P.assign metadata)).1.setData
          (p.program.written (p.controls.egress p.plane.tables (P.assign metadata)).1)) frame := by
      apply leave_congr
      · rw [id, copied.id]
        exact assigned.descends.id.symm
      · rw [data, p.program.written_alike alike]
        rfl
    rw [← same]
    rfl

/-! ## The traffic manager -/

/-- The number in a field of at most 32 bits is a port or group number as it stands. -/
theorem word_get (wf : P.WellFormed) {id : FieldId} (narrow : P.layout.width id ≤ 32) :
    word (P.get id) = P.get id := by
  have small : Nat.pow 2 (P.layout.width id) ≤ UInt32.size :=
    Nat.pow_le_pow_right (by decide) narrow
  exact Nat.mod_eq_of_lt (Nat.lt_of_lt_of_le (wf.fits id) small)

theorem groupOf_eq (ready : p.Ready) (layout : P.layout = p.program.layout) :
    p.groupOf P = (P.field? "intrinsic_metadata.mcast_grp").getD 0 := by
  unfold groupOf field?
  rw [layout, ready.fields.group]
  cases p.fields.group <;> rfl

/-- The copy that the traffic manager makes for a member of a group. -/
def queuedReplica (p : Pipeline) (P : Packet) (indexed : Replica × Nat) : Queued :=
  ⟨indexed.1.egressPort, setOptional p.fields.rid indexed.1.rid
    ((P.set p.fields.instanceType InstanceType.replication.code).copy (indexed.2 + 1))⟩

theorem depart_replica (ready : p.Ready) (fieldsOnly : p.controls.egress.FieldsOnly)
    (layout : P.layout = p.program.layout) (wf : P.WellFormed) (frame : Frame) (now : Time)
    (indexed : Replica × Nat) :
    p.depart frame now (p.queuedReplica P indexed) = .ok
      ⟨p.evaluate frame P (p.replicaMetadata frame.length now indexed.1) indexed.1.egressPort,
        (p.egress frame.length now (p.queuedReplica P indexed)).2⟩ := by
  have named : P.layout.WellFormed := layout ▸ ready.layout
  have stored : (p.queuedReplica P indexed).packet =
      (P.assign [("intrinsic_metadata.egress_rid", indexed.1.rid),
        (StandardFields.instanceTypeName, InstanceType.replication.code)]).copy
          (indexed.2 + 1) := by
    rw [assign_cons named, assign_cons named, assign_nil, layout, ready.fields.rid,
      ready.fields.instanceType]
    unfold queuedReplica
    cases p.fields.rid <;> rfl
  apply depart_copy ready fieldsOnly layout wf
  have arrives := egress_copy ready layout frame.length now indexed.1.egressPort (indexed.2 + 1)
    [("intrinsic_metadata.egress_rid", indexed.1.rid),
      (StandardFields.instanceTypeName, InstanceType.replication.code)]
  rw [← stored] at arrives
  exact arrives

/-- The copies of a group leave as the members of the group say, in their order. -/
theorem multicast_departures (ready : p.Ready) (fieldsOnly : p.controls.egress.FieldsOnly)
    (layout : P.layout = p.program.layout) (wf : P.WellFormed) (frame : Frame) (now : Time)
    (group : Nat) :
    ∃ departures,
      (p.multicastCopies (P.set p.fields.instanceType InstanceType.replication.code) group).mapM
        (p.depart frame now) = .ok departures ∧
      departures.filterMap (·.emission) = (p.plane.multicast.replicate group).filterMap fun r =>
        p.evaluate frame P (p.replicaMetadata frame.length now r) r.egressPort := by
  have copies : p.multicastCopies (P.set p.fields.instanceType InstanceType.replication.code) group =
      (p.plane.multicast.replicate group).zipIdx.map (p.queuedReplica P) := rfl
  rw [copies]
  refine ⟨_, mapM_map_eq_ok fun r _ => depart_replica ready fieldsOnly layout wf frame now r, ?_⟩
  rw [List.filterMap_map]
  conv => rhs; rw [← List.zipIdx_map_fst 0 (p.plane.multicast.replicate group), List.filterMap_map]
  rfl

/-- Without a group a packet leaves by one port, unless egress drops it. -/
theorem depart_unicast (ready : p.Ready) (fieldsOnly : p.controls.egress.FieldsOnly)
    (layout : P.layout = p.program.layout) (wf : P.WellFormed) (frame : Frame) (now : Time)
    (port : Nat) :
    p.depart frame now ⟨port, P.set p.fields.instanceType InstanceType.normal.code⟩ = .ok
      ⟨p.evaluate frame P (p.egressMetadata frame.length now .normal none port) port,
        (p.egress frame.length now
          ⟨port, P.set p.fields.instanceType InstanceType.normal.code⟩).2⟩ := by
  have named : P.layout.WellFormed := layout ▸ ready.layout
  have stored : P.set p.fields.instanceType InstanceType.normal.code =
      (P.assign [(StandardFields.instanceTypeName, InstanceType.normal.code)]).copy P.copyId := by
    rw [assign_cons named, assign_nil, layout, ready.fields.instanceType]
    rfl
  apply depart_copy ready fieldsOnly layout wf
  have arrives := egress_copy ready layout frame.length now port P.copyId
    [(StandardFields.instanceTypeName, InstanceType.normal.code)]
  rw [← stored] at arrives
  exact arrives

/-- The traffic manager and egress do what the specification says. -/
theorem queue_departures (ready : p.Ready) (fieldsOnly : p.controls.egress.FieldsOnly)
    (layout : P.layout = p.program.layout) (wf : P.WellFormed)
    (narrowGroup : ∀ id, p.fields.group = some id → p.program.layout.width id ≤ 32)
    (narrowSpec : p.program.layout.width p.fields.egressSpec ≤ 32) (frame : Frame) (now : Time) :
    ∃ departures, (p.queue P).mapM (p.depart frame now) = .ok departures ∧
      departures.filterMap (·.emission) = p.forwarded frame now P := by
  have group : word (p.groupOf P) = p.groupOf P := by
    unfold groupOf
    cases declared : p.fields.group with
    | none => rfl
    | some id => exact word_get wf (by rw [layout]; exact narrowGroup id declared)
  have spec : word (P.get p.fields.egressSpec) = P.get p.fields.egressSpec :=
    word_get wf (by rw [layout]; exact narrowSpec)
  unfold queue forwarded
  rw [← groupOf_eq ready layout]
  dsimp only
  by_cases multicast : p.groupOf P ≠ 0
  · rw [if_pos multicast, if_pos multicast, group]
    exact multicast_departures ready fieldsOnly layout wf frame now (p.groupOf P)
  · rw [if_neg multicast, if_neg multicast]
    by_cases dropped : P.get p.fields.egressSpec = p.config.dropPort
    · rw [if_pos (isDropped_iff.mpr dropped), if_pos dropped]
      exact ⟨[], rfl, rfl⟩
    · rw [if_neg (mt isDropped_iff.mp dropped), if_neg dropped, spec]
      have left := depart_unicast ready fieldsOnly layout wf frame now (P.get p.fields.egressSpec)
      refine ⟨_, mapM_singleton_eq_ok left, ?_⟩
      cases p.evaluate frame P (p.egressMetadata frame.length now .normal none
        (P.get p.fields.egressSpec)) (P.get p.fields.egressSpec) <;> rfl

theorem succ_mod_ne {n bound : Nat} (large : 2 ≤ bound) : (n + 1) % bound ≠ n := by
  intro same
  have small := Nat.mod_lt (n + 1) (Nat.lt_of_lt_of_le Nat.two_pos large)
  by_cases below : n + 1 < bound
  · rw [Nat.mod_eq_of_lt below] at same
    omega
  · -- the number has wrapped around, so it is zero
    have last : n + 1 = bound := by omega
    rw [last, Nat.mod_self] at same
    omega

/-- The number after the drop port, cut to the width of `egress_spec`, is not the drop port: no copy
comes to its egress control as dropped. -/
theorem egressSpec_assign (ready : p.Ready) (layout : P.layout = p.program.layout)
    (wf : P.WellFormed) (length : Nat) (now : Time) (kind : InstanceType) (rid : Option Nat)
    (port : Nat) :
    (P.assign (p.egressMetadata length now kind rid port)).get p.fields.egressSpec ≠
      p.config.dropPort := by
  have named : P.layout.WellFormed := layout ▸ ready.layout
  have spec := layout ▸ ready.fields.egressSpec
  have other : P.layout.fieldId? StandardFields.packetLengthName ≠ some p.fields.egressSpec := by
    intro shared
    exact Layout.fieldId?_ne shared spec (by decide) rfl
  have assigned : assigned? P.layout (p.egressMetadata length now kind rid port)
      p.fields.egressSpec = some (p.config.dropPort + 1) := by
    unfold egressMetadata
    rw [List.cons_append, List.cons_append, List.cons_append, List.cons_append,
      assigned?_cons named, if_neg other, assigned?_cons named, if_pos spec]
  have wide := named.width_pos (Layout.fieldId?_lt spec)
  have two : Nat.pow 2 1 ≤ Nat.pow 2 (P.layout.width p.fields.egressSpec) :=
    Nat.pow_le_pow_right (by decide) wide
  rw [get_assign wf assigned]
  exact succ_mod_ne two

/-- A frame that is not too long enters as its bytes. -/
theorem Ready.enter_of_le {frame : Frame} (ready : p.Ready) (short : frame.length ≤ p.config.maxFrame)
    (id port : Nat) (layout : Layout) :
    p.boundary.enter frame id port layout = .ok (Packet.new id port frame.toBytes layout) := by
  rw [ready.boundary]
  exact if_neg (Nat.not_lt.mpr short)

/-- What is sent for it are its departures. -/
theorem outcome_of_departures {frame : Frame} {now : Time} {id port : Nat} {departures : List Departure}
    (ready : p.Ready) (short : frame.length ≤ p.config.maxFrame)
    (departed : (p.queue (p.afterIngress id frame port now)).mapM (p.depart frame now) = .ok departures) :
    ∃ reports, p.outcome id frame port now = .ok ⟨departures.filterMap (·.emission), reports⟩ :=
  ⟨_, bind_eq_ok.mpr ⟨_, ready.enter_of_le short id port _, bind_eq_ok.mpr ⟨departures, departed, rfl⟩⟩⟩

/-- The outcome of a frame that is not too long is what the specification says. -/
theorem outcome_eq_forwarded (ready : p.Ready) (ingress : p.controls.ingress.FieldsOnly)
    (egress : p.controls.egress.FieldsOnly)
    (narrowGroup : ∀ id, p.fields.group = some id → p.program.layout.width id ≤ 32)
    (narrowSpec : p.program.layout.width p.fields.egressSpec ≤ 32) (id : Nat) (frame : Frame)
    (short : frame.length ≤ p.config.maxFrame) (port : Nat) (now : Time) :
    ∃ reports, p.outcome id frame port now =
      .ok ⟨p.forwarded frame now (p.afterIngress id frame port now), reports⟩ := by
  have descends := p.afterIngress_descends ingress id frame port now
  have wf := descends.wellFormed (wellFormed_new _ _ _ _)
  obtain ⟨departures, departed, emissions⟩ :=
    queue_departures ready egress descends.layout wf narrowGroup narrowSpec frame now
  rw [← emissions]
  exact outcome_of_departures ready short departed

/-- Processing takes a packet number, and the rest is the outcome. -/
theorem process_eq (p : Pipeline) (frame : Frame) (port : Nat) (now : Time) (s : Numbering) :
    p.process frame port now s = match p.outcome s.nextPacket frame port now with
      | .ok outcome => .ok outcome { s with nextPacket := s.nextPacket + 1 }
      | .error e => .error e { s with nextPacket := s.nextPacket + 1 } := by
  show (MonadExcept.ofExcept (p.outcome s.nextPacket frame port now) :
    EStateM PipelineError Numbering Outcome) { s with nextPacket := s.nextPacket + 1 } = _
  cases p.outcome s.nextPacket frame port now <;> rfl

theorem process_eq_ok {frame : Frame} {port : Nat} {now : Time} {s : Numbering}
    {outcome : Outcome} (done : p.outcome s.nextPacket frame port now = .ok outcome) :
    p.process frame port now s = .ok outcome { s with nextPacket := s.nextPacket + 1 } := by
  rw [process_eq, done]

/-- A frame that is not too long leaves a pipeline as the specification says, whatever the tables and
the multicast groups are; and no copy comes to its egress control as dropped. -/
theorem process_eq_forwarded {d : Description} {program : Program} {controls : Controls}
    {config : PipelineConfig} {start after : Numbering} {p : Pipeline}
    (loaded : Program.load d = .ok program) (made : new program controls config start = .ok p after)
    (narrowGroup : ∀ id, program.layout.fieldId? "intrinsic_metadata.mcast_grp" = some id →
      program.layout.width id ≤ 32)
    (narrowSpec : ∀ id, program.layout.fieldId? StandardFields.egressSpecName = some id →
      program.layout.width id ≤ 32)
    (ingress : controls.ingress.FieldsOnly) (egress : controls.egress.FieldsOnly)
    (plane : ControlPlane) (frame : Frame) (short : frame.length ≤ config.maxFrame)
    (port : Nat) (now : Time) (s : Numbering) :
    let running := { p with plane := plane }
    let P := running.afterIngress s.nextPacket frame port now
    (∃ reports, running.process frame port now s =
      .ok ⟨running.forwarded frame now P, reports⟩ { s with nextPacket := s.nextPacket + 1 }) ∧
    ∀ kind rid copyPort,
      (P.assign (running.egressMetadata frame.length now kind rid copyPort)).get
        running.fields.egressSpec ≠ config.dropPort := by
  intro running P
  obtain ⟨rfl, rfl, rfl, -, -⟩ := new_eq_ok made
  have ready : running.Ready := ready_of_new loaded made plane
  have descends := running.afterIngress_descends ingress s.nextPacket frame port now
  have wf := descends.wellFormed (wellFormed_new _ _ _ _)
  refine ⟨?_, ?_⟩
  · obtain ⟨reports, done⟩ := outcome_eq_forwarded ready ingress egress
      (fun id declared => narrowGroup id (ready.fields.group.trans declared))
      (narrowSpec _ ready.fields.egressSpec) s.nextPacket frame short port now
    exact ⟨reports, process_eq_ok done⟩
  · intro kind rid copyPort
    exact egressSpec_assign ready descends.layout wf frame.length now kind rid copyPort

/-- A program that parses nothing, with fields for groups. -/
def hub : Description :=
  { name := some "hub"
    headers :=
      [⟨"standard_metadata", true,
          [⟨"ingress_port", 9⟩, ⟨"egress_spec", 9⟩, ⟨"egress_port", 9⟩, ⟨"instance_type", 32⟩,
            ⟨"packet_length", 32⟩]⟩,
        ⟨"intrinsic_metadata", true, [⟨"mcast_grp", 16⟩, ⟨"egress_rid", 16⟩]⟩]
    parser := []
    deparser := []
    tables := []
    checksums := [] }

/-- Ingress sends every frame to group 1; egress drops the copies with replication number 7. -/
def hubControls : Controls :=
  ⟨Control.silent fun _ pkt => pkt.set 5 1,
    Control.silent fun _ pkt => if pkt.get 6 = 7 then pkt.set 1 511 else pkt⟩

/-- Group 1 has a node for two ports, and between them one with replication number 7. -/
def hubPlane : ControlPlane :=
  ⟨⟨[]⟩, ⟨[(1, [0, 1, 2])], [(0, ⟨3, [1]⟩), (1, ⟨7, [4]⟩), (2, ⟨3, [2]⟩)], 3⟩⟩

theorem hubControls_fieldsOnly :
    hubControls.ingress.FieldsOnly ∧ hubControls.egress.FieldsOnly := by
  refine ⟨⟨?_, ?_⟩, ⟨?_, ?_⟩⟩
  · intro tables pkt
    exact Edits.refl.set 5 1
  · intro tables pkt other same
    exact same.set 5 1
  · intro tables pkt
    simp only [hubControls, Control.silent]
    split
    · exact Edits.refl.set 1 511
    · exact Edits.refl
  · intro tables pkt other same
    simp only [hubControls, Control.silent, same.get_eq 6]
    split
    · exact same.set 1 511
    · exact same

theorem process_eq_forwarded_hub :
    ∃ program p after,
      Program.load hub = .ok program ∧ new program hubControls .default .initial = .ok p after ∧
      (∀ id, program.layout.fieldId? "intrinsic_metadata.mcast_grp" = some id →
        program.layout.width id ≤ 32) ∧
      (∀ id, program.layout.fieldId? StandardFields.egressSpecName = some id →
        program.layout.width id ≤ 32) ∧
      hubControls.ingress.FieldsOnly ∧ hubControls.egress.FieldsOnly ∧
      (Frame.ofBytes 0 [1, 2, 3]).length ≤ PipelineConfig.default.maxFrame ∧
      let running := { p with plane := hubPlane }
      let P := running.afterIngress 0 (Frame.ofBytes 0 [1, 2, 3]) 9 .zero
      ((∃ reports, running.process (Frame.ofBytes 0 [1, 2, 3]) 9 .zero .initial =
        .ok ⟨running.forwarded (Frame.ofBytes 0 [1, 2, 3]) .zero P, reports⟩
          { Numbering.initial with nextPacket := 1 }) ∧
      ∀ kind rid copyPort,
        (P.assign (running.egressMetadata 3 .zero kind rid copyPort)).get
          running.fields.egressSpec ≠ PipelineConfig.default.dropPort) ∧
      (running.forwarded (Frame.ofBytes 0 [1, 2, 3]) .zero P).map (·.port) = [1, 2] := by
  refine ⟨_, _, _, rfl, rfl, ?group, ?spec, hubControls_fieldsOnly.1, hubControls_fieldsOnly.2,
    by decide, process_eq_forwarded (d := hub) rfl rfl ?group ?spec hubControls_fieldsOnly.1
      hubControls_fieldsOnly.2 hubPlane (Frame.ofBytes 0 [1, 2, 3]) (by decide) 9 .zero .initial, ?_⟩
  case group =>
    intro id found
    obtain rfl : 5 = id := Option.some.inj found
    decide
  case spec =>
    intro id found
    obtain rfl : 1 = id := Option.some.inj found
    decide
  · rfl

end Pipeline

end Switchyard
