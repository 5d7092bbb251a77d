import Switchyard.Proofs.Checked.Frame
import Switchyard.Proofs.Checked.Headers
import Switchyard.Proofs.Control.Tables
import Switchyard.Proofs.Pipeline.DropPort

/-!
# Pipelines come through

A pipeline with every access checked, from the frame that enters to the frames that leave. It refuses a frame
for its size only. A frame that is not refused comes to an outcome, whatever its bytes are: no position,
slice, width or length on the way is out of range, and what the plain pipeline does is what the checked one
does. Controls are taken as they are. What they can ask of the packet that they are given, by declared
fields and headers and by the keys of tables, is there as well.
-/

namespace Switchyard

namespace Checked

open Packet Sequencing

/-! ## The pipeline -/

/-- Stores a value in an optional field. -/
def setOptional (field : Option FieldId) (value : Nat) (pkt : Packet) : Checked Packet :=
  field.elim (.ok pkt) fun field => set pkt field value

def prepare (p : Pipeline) (port : Nat) (now : Time) (pkt : Packet) : Checked Packet := do
  let length := pkt.data.length
  let pkt ← resetMetadata pkt
  let pkt ← set pkt p.fields.packetLength length
  let pkt ← set pkt p.fields.instanceType InstanceType.normal.code
  let pkt ← setOptional p.fields.ingressTime now.toNat pkt
  set pkt p.fields.ingressPort port

def ingress (p : Pipeline) (port : Nat) (now : Time) (pkt : Packet) : Checked (Packet × List Report) := do
  let pkt ← prepare p port now pkt
  let pkt ← parse p.program pkt
  let pkt ← setOptional p.fields.parserError pkt.parserError.code pkt
  let pkt ← setOptional p.fields.checksumError pkt.checksumError.toNat pkt
  let (pkt, reports) := p.controls.ingress p.plane.tables pkt
  return ({ pkt with exited := false }, reports)

/-- The copies of a packet for a multicast group, numbered from one. -/
def multicastCopies (p : Pipeline) (pkt : Packet) (group : Nat) : Checked (List Queued) :=
  (p.plane.multicast.replicate group).zipIdx.mapM fun (replica, index) => do
    let copy ← setOptional p.fields.rid replica.rid (pkt.copy (index + 1))
    return ⟨replica.egressPort, copy⟩

/-- The traffic manager. -/
def queue (p : Pipeline) (pkt : Packet) : Checked (List Queued) := do
  let group ← p.fields.group.elim (.ok 0) (get pkt)
  if group ≠ 0 then
    let pkt ← set pkt p.fields.instanceType InstanceType.replication.code
    multicastCopies p pkt (Pipeline.word group)
  else
    let port ← get pkt p.fields.egressSpec
    if port = p.config.dropPort then return []
    else
      let pkt ← set pkt p.fields.instanceType InstanceType.normal.code
      return [⟨Pipeline.word port, pkt⟩]

def egress (p : Pipeline) (length : Nat) (now : Time) (queued : Queued) :
    Checked (Packet × List Report) := do
  let pkt ← setOptional p.fields.egressTime now.toNat queued.packet
  let pkt ← set pkt p.fields.egressPort queued.port
  let pkt ← set pkt p.fields.egressSpec (p.config.dropPort + 1)
  let pkt ← set pkt p.fields.packetLength length
  return p.controls.egress p.plane.tables pkt

/-- Takes a copy through egress and out. -/
def depart (p : Pipeline) (origin : Frame) (now : Time) (queued : Queued) : Checked Departure := do
  let (pkt, reports) ← egress p origin.length now queued
  let port ← get pkt p.fields.egressSpec
  if port = p.config.dropPort then return ⟨none, reports⟩
  else
    let pkt ← deparse p.program pkt
    let frame ← leave Rule.standard pkt origin
    return ⟨some ⟨queued.port, frame⟩, reports⟩

/-- What becomes of a frame that is packet number `id`. -/
def outcome (p : Pipeline) (id : Nat) (frame : Frame) (port : Nat) (now : Time) :
    Checked (Except PipelineError Outcome) := do
  match ← enter p.boundary frame id port p.program.layout with
  | .error e => return .error e
  | .ok pkt =>
    let (pkt, reports) ← ingress p port now pkt
    let queued ← queue p pkt
    let departures ← queued.mapM (depart p frame now)
    return .ok ⟨departures.filterMap (·.emission), reports ++ departures.flatMap (·.reports)⟩

/-- Processes a frame, which takes a packet number. -/
def process (p : Pipeline) (frame : Frame) (port : Nat) (now : Time) (s : Numbering) :
    Checked (EStateM.Result PipelineError Numbering Outcome) := do
  let numbered := { s with nextPacket := s.nextPacket + 1 }
  match ← outcome p s.nextPacket frame port now with
  | .error e => return .error e numbered
  | .ok outcome => return .ok outcome numbered

/-! ## What controls can ask for -/

/-- The call that the named table answers with for a packet. -/
def lookupPacket (s : TableStore) (name : String) (pkt : Packet) : Checked (Option ActionCall) :=
  match s.table? name with
  | none => .ok none
  | some t => do
    let values ← t.keys.mapM fun key => get pkt key.field
    return t.lookup values

/-- What can be asked of a packet by declared fields and headers, and by the names of tables, is there. -/
structure Serves (L : Layout) (tables : TableStore) (pkt : Packet) : Prop where
  get : ∀ id : Nat, id < L.fields.length → Checked.get pkt id = .ok (pkt.get id)
  set : ∀ id : Nat, id < L.fields.length → ∀ value, Checked.set pkt id value = .ok (pkt.set id value)
  isValid : ∀ header : Nat, header < L.headers.length →
    Checked.isValid pkt header = .ok (pkt.isValid header)
  setValid : ∀ header : Nat, header < L.headers.length → ∀ flag,
    Checked.setValid pkt header flag = .ok (pkt.setValid header flag)
  lookup : ∀ name, lookupPacket tables name pkt = .ok (tables.lookupPacket name pkt)

theorem serves {L : Layout} {tables : TableStore} {pkt : Packet} (same : pkt.layout = L)
    (wf : pkt.WellFormed) (keys : tables.KeysDeclared L) : Serves L tables pkt := by
  subst same
  refine ⟨fun _ => get_ok wf, fun _ => set_ok wf, fun _ => isValid_ok wf, fun _ => setValid_ok wf, ?_⟩
  intro name
  unfold lookupPacket TableStore.lookupPacket
  cases found : tables.table? name with
  | none => rfl
  | some t =>
    have values : t.keys.mapM (fun key => get pkt key.field) = .ok (t.keyValues pkt) :=
      mapM_eq_ok_map fun key member => get_ok wf (keys t (List.mem_of_find?_eq_some found) key member)
    exact bind_eq_ok.mpr ⟨_, values, rfl⟩

/-! ## Coming through -/

/-- A packet of the pipeline's program. -/
structure Underway (p : Pipeline) (pkt : Packet) : Prop where
  layout : pkt.layout = p.program.layout
  wellFormed : pkt.WellFormed

/-- What a pipeline has that comes through. -/
structure Safe (p : Pipeline) : Prop extends p.Ready where
  declared : p.program.Declared
  narrow : ∀ rule ∈ p.program.checksums, ∀ field, rule.lengthWords = some field →
    p.program.layout.width field ≤ 62
  ingress : p.controls.ingress.FieldsOnly
  egress : p.controls.egress.FieldsOnly

variable {p : Pipeline} {pkt : Packet}

namespace Underway

theorem descends {later : Packet} (underway : Underway p pkt) (descends : Descends pkt later) :
    Underway p later :=
  ⟨descends.layout.trans underway.layout, descends.wellFormed underway.wellFormed⟩

theorem set (underway : Underway p pkt) (field : FieldId) (value : Nat) :
    Underway p (pkt.set field value) :=
  underway.descends (Edits.refl.set field value).descends

theorem get_ok {name : String} {field : FieldId} (underway : Underway p pkt)
    (named : p.program.layout.fieldId? name = some field) : get pkt field = .ok (pkt.get field) :=
  Checked.get_ok underway.wellFormed (underway.layout ▸ Layout.fieldId?_lt named)

theorem set_ok {name : String} {field : FieldId} (underway : Underway p pkt)
    (named : p.program.layout.fieldId? name = some field) (value : Nat) :
    Checked.set pkt field value = .ok (pkt.set field value) :=
  Checked.set_ok underway.wellFormed (underway.layout ▸ Layout.fieldId?_lt named) value

theorem setOptional_ok {name : String} {field : Option FieldId} (underway : Underway p pkt)
    (named : p.program.layout.fieldId? name = field) (value : Nat) :
    setOptional field value pkt = .ok (Pipeline.setOptional field value pkt) := by
  cases field with
  | none => rfl
  | some field => exact underway.set_ok named value

theorem setOptional (underway : Underway p pkt) (field : Option FieldId) (value : Nat) :
    Underway p (Pipeline.setOptional field value pkt) :=
  underway.descends (Pipeline.setOptional_edits field value pkt).descends

end Underway

section

variable (safe : Safe p)
include safe

theorem prepare_ok (id : Nat) (frame : Frame) (port : Nat) (now : Time) :
    prepare p port now (Packet.new id port frame.toBytes p.program.layout) =
      .ok (p.prepare port now (Packet.new id port frame.toBytes p.program.layout)) := by
  have fields := safe.fields
  have new : Underway p (Packet.new id port frame.toBytes p.program.layout) :=
    ⟨rfl, wellFormed_new _ _ _ _⟩
  have cleared := resetMetadata_ok safe.declared.spans new.wellFormed
  have sized := new.set p.fields.packetLength frame.toBytes.length
  have typed := sized.set p.fields.instanceType InstanceType.normal.code
  have timed := typed.setOptional p.fields.ingressTime now.toNat
  unfold prepare Pipeline.prepare
  rw [resetMetadata_new] at cleared ⊢
  refine bind_eq_ok.mpr ⟨_, cleared, ?_⟩
  refine bind_eq_ok.mpr ⟨_, new.set_ok fields.packetLength _, ?_⟩
  refine bind_eq_ok.mpr ⟨_, sized.set_ok fields.instanceType _, ?_⟩
  exact bind_eq_ok.mpr ⟨_, typed.setOptional_ok fields.ingressTime _, timed.set_ok fields.ingressPort _⟩

theorem ingress_ok (id : Nat) (frame : Frame) (port : Nat) (now : Time) :
    ingress p port now (Packet.new id port frame.toBytes p.program.layout) =
      .ok (p.ingress port now (Packet.new id port frame.toBytes p.program.layout)) := by
  have fields := safe.fields
  have new : Underway p (Packet.new id port frame.toBytes p.program.layout) :=
    ⟨rfl, wellFormed_new _ _ _ _⟩
  let prepared := p.prepare port now (Packet.new id port frame.toBytes p.program.layout)
  have ready : Underway p prepared :=
    new.descends (p.prepare_edits port now (Packet.new id port frame.toBytes p.program.layout)).descends
  have parsed := ready.descends (p.program.parse_descends prepared)
  have shown := parsed.setOptional p.fields.parserError (p.program.parse prepared).parserError.code
  refine bind_eq_ok.mpr ⟨_, prepare_ok safe id frame port now, ?_⟩
  refine bind_eq_ok.mpr ⟨_, parse_ok safe.declared safe.narrow ready.layout ready.wellFormed, ?_⟩
  refine bind_eq_ok.mpr ⟨_, parsed.setOptional_ok fields.parserError _, ?_⟩
  exact bind_eq_ok.mpr ⟨_, shown.setOptional_ok fields.checksumError _, rfl⟩

theorem queue_ok (underway : Underway p pkt) : queue p pkt = .ok (p.queue pkt) := by
  have fields := safe.fields
  have group : p.fields.group.elim (.ok 0) (get pkt) = .ok (p.groupOf pkt) := by
    unfold Pipeline.groupOf
    cases named : p.fields.group with
    | none => rfl
    | some field => exact underway.get_ok (fields.group.trans named)
  unfold queue Pipeline.queue
  refine bind_eq_ok.mpr ⟨_, group, ?_⟩
  dsimp only
  split
  case isTrue =>
    refine bind_eq_ok.mpr ⟨_, underway.set_ok fields.instanceType _, ?_⟩
    refine mapM_eq_ok_map fun indexed _ => ?_
    have copied := (underway.set p.fields.instanceType InstanceType.replication.code).descends
      (descends_copy _ (indexed.2 + 1))
    exact bind_eq_ok.mpr ⟨_, copied.setOptional_ok fields.rid _, rfl⟩
  case isFalse =>
    refine bind_eq_ok.mpr ⟨_, underway.get_ok fields.egressSpec, ?_⟩
    by_cases dropped : pkt.get p.fields.egressSpec = p.config.dropPort
    · rw [if_pos dropped, if_pos (Pipeline.isDropped_iff.mpr dropped)]
      rfl
    · rw [if_neg dropped, if_neg (mt Pipeline.isDropped_iff.mp dropped)]
      exact bind_eq_ok.mpr ⟨_, underway.set_ok fields.instanceType _, rfl⟩

theorem egress_ok {queued : Queued} (underway : Underway p queued.packet) (length : Nat) (now : Time) :
    egress p length now queued = .ok (p.egress length now queued) := by
  have fields := safe.fields
  have timed := underway.setOptional p.fields.egressTime now.toNat
  have sent := timed.set p.fields.egressPort queued.port
  have kept := sent.set p.fields.egressSpec (p.config.dropPort + 1)
  refine bind_eq_ok.mpr ⟨_, underway.setOptional_ok fields.egressTime _, ?_⟩
  refine bind_eq_ok.mpr ⟨_, timed.set_ok fields.egressPort _, ?_⟩
  refine bind_eq_ok.mpr ⟨_, sent.set_ok fields.egressSpec _, ?_⟩
  exact bind_eq_ok.mpr ⟨_, kept.set_ok fields.packetLength _, rfl⟩

/-- A copy comes through, and the plain pipeline does not refuse to write it. -/
theorem depart_ok {queued : Queued} (underway : Underway p queued.packet) (frame : Frame) (now : Time) :
    ∃ departure, depart p frame now queued = .ok departure ∧
      p.depart frame now queued = .ok departure := by
  have fields := safe.fields
  have edited := underway.descends (p.egress_descends safe.egress frame.length now queued)
  obtain ⟨out, written, plain⟩ :=
    deparse_ok safe.declared safe.narrow edited.layout edited.wellFormed
  have left := leave_ok p.config.maxFrame out frame
  rw [← safe.boundary] at left
  by_cases dropped : (p.egress frame.length now queued).1.get p.fields.egressSpec = p.config.dropPort
  · refine ⟨⟨none, (p.egress frame.length now queued).2⟩, ?_, ?_⟩
    · refine bind_eq_ok.mpr ⟨_, egress_ok safe underway _ _, ?_⟩
      refine bind_eq_ok.mpr ⟨_, edited.get_ok fields.egressSpec, ?_⟩
      rw [if_pos dropped]
      rfl
    · unfold Pipeline.depart
      dsimp only
      rw [if_pos (Pipeline.isDropped_iff.mpr dropped)]
      rfl
  · refine ⟨⟨some ⟨queued.port, p.boundary.leave out frame⟩, (p.egress frame.length now queued).2⟩,
      ?_, ?_⟩
    · refine bind_eq_ok.mpr ⟨_, egress_ok safe underway _ _, ?_⟩
      refine bind_eq_ok.mpr ⟨_, edited.get_ok fields.egressSpec, ?_⟩
      rw [if_neg dropped]
      exact bind_eq_ok.mpr ⟨_, written, bind_eq_ok.mpr ⟨_, left, rfl⟩⟩
    · unfold Pipeline.depart
      dsimp only
      rw [if_neg (mt Pipeline.isDropped_iff.mp dropped)]
      exact bind_eq_ok.mpr ⟨_, plain, rfl⟩

/-- A frame that is not too long comes to an outcome. -/
theorem outcome_ok {frame : Frame} (short : frame.length ≤ p.config.maxFrame) (id port : Nat)
    (now : Time) : ∃ outcome, Checked.outcome p id frame port now = .ok (.ok outcome) ∧
      p.outcome id frame port now = .ok outcome := by
  have descends := p.afterIngress_descends safe.ingress id frame port now
  have ingressed : Underway p (p.afterIngress id frame port now) :=
    ⟨descends.layout, descends.wellFormed (wellFormed_new _ _ _ _)⟩
  have enters := safe.enter_of_le short id port p.program.layout
  have entered := enter_ok p.boundary frame id port p.program.layout
  rw [enters] at entered
  have each : ∀ queued ∈ p.queue (p.afterIngress id frame port now), ∃ departure,
      depart p frame now queued = .ok departure ∧ p.depart frame now queued = .ok departure :=
    fun queued member =>
      depart_ok safe (ingressed.descends (Pipeline.descends_of_mem_queue member)) frame now
  obtain ⟨departures, departed, plain⟩ := exists_mapM_eq_ok_both each
  refine ⟨_, ?_, bind_eq_ok.mpr ⟨_, enters, bind_eq_ok.mpr ⟨departures, plain, rfl⟩⟩⟩
  refine bind_eq_ok.mpr ⟨_, entered, bind_eq_ok.mpr ⟨_, ingress_ok safe id frame port now, ?_⟩⟩
  exact bind_eq_ok.mpr ⟨_, queue_ok safe ingressed, bind_eq_ok.mpr ⟨_, departed, rfl⟩⟩

/-- A frame that is too long is refused before anything else is looked at. -/
theorem outcome_of_long {frame : Frame} (long : p.config.maxFrame < frame.length) (id port : Nat)
    (now : Time) :
    Checked.outcome p id frame port now = .ok (.error (.frameTooLarge frame.length p.config.maxFrame)) ∧
      p.outcome id frame port now = .error (.frameTooLarge frame.length p.config.maxFrame) := by
  have refused : p.boundary.enter frame id port p.program.layout =
      .error (.frameTooLarge frame.length p.config.maxFrame) := by
    rw [safe.boundary]
    exact if_pos long
  have entered := enter_ok p.boundary frame id port p.program.layout
  rw [refused] at entered
  refine ⟨bind_eq_ok.mpr ⟨_, entered, rfl⟩, ?_⟩
  rw [Pipeline.outcome, refused]
  rfl

/-- The checked process comes through and is the process. -/
theorem process_ok (frame : Frame) (port : Nat) (now : Time) (s : Numbering) :
    Checked.process p frame port now s = .ok (p.process frame port now s) := by
  rw [p.process_eq]
  by_cases short : frame.length ≤ p.config.maxFrame
  · obtain ⟨outcome, checked, plain⟩ := outcome_ok safe short s.nextPacket port now
    rw [plain]
    exact bind_eq_ok.mpr ⟨_, checked, rfl⟩
  · obtain ⟨checked, plain⟩ := outcome_of_long safe (Nat.lt_of_not_le short) s.nextPacket port now
    rw [plain]
    exact bind_eq_ok.mpr ⟨_, checked, rfl⟩

end

end Checked

namespace Pipeline

open Packet

/-- Every frame comes through. It is refused exactly if its bytes are more than the limit, with their number
and the limit, and comes to an outcome otherwise. Either way no access on the way is out of range, and what
controls can ask of the packet, as long as it is on its way, is there. -/
theorem process_comes_through {d : Description} {program : Program} {controls : Controls}
    {config : PipelineConfig} {start after : Numbering} {p : Pipeline} {plane : ControlPlane}
    (loaded : Program.load d = .ok program) (made : new program controls config start = .ok p after)
    (narrow : ∀ rule ∈ program.checksums, ∀ field, rule.lengthWords = some field →
      program.layout.width field ≤ 62)
    (ingress : controls.ingress.FieldsOnly) (egress : controls.egress.FieldsOnly)
    (reached : ControlPlane.Reachable program plane) (frame : Frame) (port : Nat) (now : Time)
    (s : Numbering) :
    let running := { p with plane := plane }
    let size := frame.toBytes.length
    let numbered := { s with nextPacket := s.nextPacket + 1 }
    (running.process frame port now s = .error (.frameTooLarge size config.maxFrame) numbered ↔
      config.maxFrame < size) ∧
    (size ≤ config.maxFrame → ∃ outcome, running.process frame port now s = .ok outcome numbered) ∧
    Checked.process running frame port now s = .ok (running.process frame port now s) ∧
    ∀ pkt, Descends (Packet.new s.nextPacket port frame.toBytes program.layout) pkt →
      Checked.Serves program.layout plane.tables pkt := by
  intro running size numbered
  have ready : running.Ready := ready_of_new loaded made plane
  obtain ⟨rfl, rfl, rfl, -, -⟩ := new_eq_ok made
  have safe : Checked.Safe running :=
    ⟨ready, Program.declared_of_load loaded, narrow, ingress, egress⟩
  have length : frame.length = size := frame.length_toBytes.symm
  have refused : p.config.maxFrame < size →
      running.process frame port now s = .error (.frameTooLarge size p.config.maxFrame) numbered := by
    intro long
    rw [running.process_eq, ← length,
      (Checked.outcome_of_long safe (length ▸ long) s.nextPacket port now).2]
  have processed : size ≤ p.config.maxFrame →
      ∃ outcome, running.process frame port now s = .ok outcome numbered := by
    intro short
    obtain ⟨outcome, -, done⟩ := Checked.outcome_ok safe (length ▸ short) s.nextPacket port now
    exact ⟨outcome, process_eq_ok done⟩
  refine ⟨⟨?_, refused⟩, processed, Checked.process_ok safe frame port now s, ?_⟩
  · intro error
    by_contra short
    obtain ⟨outcome, done⟩ := processed (Nat.le_of_not_lt short)
    rw [done] at error
    cases error
  · intro pkt descends
    exact Checked.serves descends.layout (descends.wellFormed (wellFormed_new _ _ _ _))
      (reached.keysDeclared loaded)

/-- A switch for chains of options, with a table for the number of words of the last one. -/
def optionSwitch : Description :=
  { Program.optionChain with
    headers := hub.headers ++ [⟨"option", false, [⟨"words", 4⟩, ⟨"sum", 16⟩]⟩]
    tables := [⟨"lengths", [⟨"option.words", .exact⟩], ["known"], none⟩] }

/-- Ingress sends a frame to port 4 if the table answers for it, and to port 3 otherwise. Egress makes an
option valid whether there was one or not. -/
def optionControls : Controls :=
  ⟨Control.silent fun tables pkt =>
      pkt.set 1 (if (tables.lookup "lengths" [pkt.get 7]).isSome then 4 else 3),
    Control.silent fun _ pkt => pkt.setValid 2 true⟩

theorem optionControls_fieldsOnly :
    optionControls.ingress.FieldsOnly ∧ optionControls.egress.FieldsOnly := by
  refine ⟨⟨fun _ _ => Edits.refl.set _ _, ?_⟩, ⟨fun _ _ => Edits.refl.setValid _ _, ?_⟩⟩
  · intro tables pkt other same
    simp only [optionControls, Control.silent, same.get_eq 7]
    exact same.set 1 _
  · intro tables pkt other same
    exact ⟨same.layout, same.values, by simp only [optionControls, Control.silent, setValid, same.valid]⟩

/-- A frame of three options and a part of a fourth is short enough and comes through, to the port for three
words. With one more byte it is refused. -/
theorem process_comes_through_chain : ∃ program p after plane outcome,
    Program.load optionSwitch = .ok program ∧
    new program optionControls { PipelineConfig.default with maxFrame := 9 } .initial = .ok p after ∧
    (∀ rule ∈ program.checksums, ∀ field, rule.lengthWords = some field →
      program.layout.width field ≤ 62) ∧
    optionControls.ingress.FieldsOnly ∧ optionControls.egress.FieldsOnly ∧
    ControlPlane.Reachable program plane ∧
    let running := { p with plane := plane }
    let numbered := { Numbering.initial with nextPacket := 1 }
    running.process (Frame.ofBytes 0 Program.optionPacket.data) 3 .zero .initial = .ok outcome numbered ∧
    Checked.process running (Frame.ofBytes 0 Program.optionPacket.data) 3 .zero .initial =
      .ok (.ok outcome numbered) ∧
    outcome.emissions.map (·.port) = [4] ∧
    running.process (Frame.ofBytes 0 (0 :: Program.optionPacket.data)) 3 .zero .initial =
      .error (.frameTooLarge 10 9) numbered := by
  obtain ⟨program, p, after, made, plane, loaded, ready, added, rules, width, ports⟩ :
      ∃ program p after made plane, Program.load optionSwitch = .ok program ∧
        new program optionControls { PipelineConfig.default with maxFrame := 9 } .initial = .ok p after ∧
        ControlPlane.run (.tableAdd "lengths" "known" [.exact 3] []) ⟨program.tables, Multicast.empty⟩ =
          .ok made plane ∧
        program.checksums = [⟨2, 8, some 7⟩] ∧ program.layout.width 7 = 4 ∧
        ∀ outcome numbered, { p with plane := plane }.process (Frame.ofBytes 0 Program.optionPacket.data) 3
          .zero .initial = .ok outcome numbered → outcome.emissions.map (·.port) = [4] := by
    refine ⟨_, _, _, _, _, rfl, rfl, rfl, rfl, rfl, ?_⟩
    intro outcome numbered done
    obtain ⟨rfl, -⟩ := EStateM.Result.ok.inj done
    rfl
  have narrow : ∀ rule ∈ program.checksums, ∀ field, rule.lengthWords = some field →
      program.layout.width field ≤ 62 := by
    intro rule member field counted
    rw [rules, List.mem_singleton] at member
    rw [member] at counted
    rw [← Option.some.inj counted, width]
    decide
  have reached : ControlPlane.Reachable program plane := .done .loaded _ added
  have fieldsOnly := optionControls_fieldsOnly
  have cut := process_comes_through loaded ready narrow fieldsOnly.1 fieldsOnly.2 reached
    (Frame.ofBytes 0 Program.optionPacket.data) 3 .zero .initial
  have long := process_comes_through loaded ready narrow fieldsOnly.1 fieldsOnly.2 reached
    (Frame.ofBytes 0 (0 :: Program.optionPacket.data)) 3 .zero .initial
  obtain ⟨outcome, done⟩ := cut.2.1 (by decide)
  have checked := cut.2.2.1
  rw [done] at checked
  exact ⟨program, p, after, plane, outcome, loaded, ready, narrow, fieldsOnly.1, fieldsOnly.2, reached,
    done, checked, ports outcome _ done, long.1.mpr (by decide)⟩

end Pipeline

end Switchyard
