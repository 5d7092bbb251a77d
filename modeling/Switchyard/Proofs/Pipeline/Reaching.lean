import Switchyard.Proofs.Packet.Filling
import Switchyard.Proofs.Pipeline.Script

/-!
# Packets that a program can come to

A packet under way is changed by operations, one after another. What the stages of a pipeline do to it comes
down to operations as well, as long as their controls work by operations, so all packets that a program can
come to are made from new ones by operations alone. Scripts work by operations, whatever their steps are and
also where an error ends them.
-/

namespace Switchyard

open Packet Sequencing

namespace Packet

/-- The second packet comes from the first by operations, one after another. -/
def Derives (p : Program) (pkt next : Packet) : Prop := ∃ ops, Operation.runAll p pkt ops = .ok next

namespace Derives

variable {p : Program} {pkt edited next last : Packet}

theorem refl (p : Program) (pkt : Packet) : Derives p pkt pkt := ⟨[], rfl⟩

/-- One more operation. -/
theorem step (derives : Derives p pkt next) (op : Operation) (ran : op.run p next = .ok last) :
    Derives p pkt last := by
  obtain ⟨ops, done⟩ := derives
  exact ⟨ops ++ [op], Operation.runAll_concat.mpr ⟨next, done, ran⟩⟩

theorem trans (first : Derives p pkt next) (further : Derives p next last) : Derives p pkt last := by
  obtain ⟨ops, done⟩ := further
  apply Operation.keeps_of_runAll (Derives p pkt) first _ done
  intro before op after earlier ran
  exact earlier.step op ran

/-- Storing values and setting flags are operations. -/
theorem edits (derives : Derives p pkt next) (edits : Edits next edited) : Derives p pkt edited := by
  induction edits with
  | refl => exact derives
  | set id value _ ih => exact ih.step (.set id value) rfl
  | setValid header flag _ ih => exact ih.step (.setValid header flag) rfl

end Derives

end Packet

/-- What the control does to a packet is done by operations. -/
def Control.Operates (p : Program) (control : Control) : Prop :=
  ∀ tables pkt, Derives p pkt (control tables pkt).1

namespace Pipeline

variable {p : Pipeline} {pkt : Packet} {queued : Queued}

/-! ## Stages -/

/-- Ingress clears metadata, stores what it knows, parses, shows how that ended and runs its control. -/
theorem ingress_derives (operates : p.controls.ingress.Operates p.program) (port : Nat) (now : Time)
    (pkt : Packet) : Derives p.program pkt (p.ingress port now pkt).1 := by
  have prepared := (Derives.refl p.program pkt).edits (p.prepare_edits port now pkt)
  have parsed := prepared.step .parse rfl
  have shown : Derives p.program pkt (p.parse (p.prepare port now pkt)) :=
    (parsed.edits (setOptional_edits _ _ _)).edits (setOptional_edits _ _ _)
  exact (shown.trans (operates p.plane.tables _)).step (.recordExit false) rfl

/-- The traffic manager copies packets and stores where they come from. -/
theorem queue_derives (member : queued ∈ p.queue pkt) : Derives p.program pkt queued.packet := by
  have start := Derives.refl p.program pkt
  unfold queue at member
  dsimp only at member
  split at member
  case isTrue =>
    obtain ⟨⟨replica, index⟩, -, rfl⟩ := List.mem_map.mp member
    have marked := start.edits (Edits.refl.set p.fields.instanceType InstanceType.replication.code)
    exact (marked.step (.copy (index + 1)) rfl).edits (setOptional_edits p.fields.rid replica.rid _)
  case isFalse =>
    split at member
    case isTrue => contradiction
    case isFalse =>
      rw [List.mem_singleton] at member
      subst member
      exact start.edits (Edits.refl.set p.fields.instanceType _)

/-- Egress stores where a copy goes to and runs its control. -/
theorem egress_derives (operates : p.controls.egress.Operates p.program) (length : Nat) (now : Time)
    (queued : Queued) : Derives p.program queued.packet (p.egress length now queued).1 := by
  have edits := (((setOptional_edits p.fields.egressTime now.toNat queued.packet).set
    p.fields.egressPort queued.port).set p.fields.egressSpec (p.config.dropPort + 1)).set
    p.fields.packetLength length
  exact ((Derives.refl p.program _).edits edits).trans (operates p.plane.tables _)

end Pipeline

/-! ## Reachable packets -/

namespace Packet

/-- The packets that a program can come to: new ones, and what operations and the stages of its pipelines
make of others. Every stage may run a control of its own. -/
inductive Reachable (program : Program) : Packet → Prop where
  | new (id port : Nat) (data : Bytes) : Reachable program (.new id port data program.layout)
  | operation {pkt next : Packet} (before : Reachable program pkt) (op : Operation)
      (ran : op.run program pkt = .ok next) : Reachable program next
  | ingress {pkt : Packet} (before : Reachable program pkt) (p : Pipeline) (runs : p.program = program)
      (operates : p.controls.ingress.Operates program) (port : Nat) (now : Time) :
      Reachable program (p.ingress port now pkt).1
  | queue {pkt : Packet} (before : Reachable program pkt) (p : Pipeline) (runs : p.program = program)
      {queued : Queued} (member : queued ∈ p.queue pkt) : Reachable program queued.packet
  | egress {queued : Queued} (before : Reachable program queued.packet) (p : Pipeline)
      (runs : p.program = program) (operates : p.controls.egress.Operates program) (length : Nat)
      (now : Time) : Reachable program (p.egress length now queued).1

variable {program : Program} {pkt next : Packet}

theorem Reachable.derives (reached : Reachable program pkt) (derives : Derives program pkt next) :
    Reachable program next := by
  obtain ⟨ops, done⟩ := derives
  apply Operation.keeps_of_runAll (Reachable program) reached _ done
  intro before op after earlier ran
  exact earlier.operation op ran

/-- The stages lead to no packets that operations alone do not lead to. -/
theorem reachable_iff_derives : Reachable program pkt ↔
    ∃ id port data, Derives program (.new id port data program.layout) pkt := by
  constructor
  · intro reached
    induction reached with
    | new id port data => exact ⟨id, port, data, Derives.refl _ _⟩
    | operation _ op ran ih =>
      obtain ⟨id, port, data, derives⟩ := ih
      exact ⟨id, port, data, derives.step op ran⟩
    | ingress _ p runs operates port now ih =>
      obtain ⟨id, arrival, data, derives⟩ := ih
      subst runs
      exact ⟨id, arrival, data, derives.trans (p.ingress_derives operates port now _)⟩
    | queue _ p runs member ih =>
      obtain ⟨id, port, data, derives⟩ := ih
      subst runs
      exact ⟨id, port, data, derives.trans (p.queue_derives member)⟩
    | egress _ p runs operates length now ih =>
      obtain ⟨id, port, data, derives⟩ := ih
      subst runs
      exact ⟨id, port, data, derives.trans (p.egress_derives operates length now _)⟩
  · rintro ⟨id, port, data, derives⟩
    exact (Reachable.new id port data).derives derives

/-- Every packet that a program can come to fills the layout of the program. -/
theorem Reachable.fills (reached : Reachable program pkt) : pkt.Fills program.layout := by
  obtain ⟨id, port, data, ops, ran⟩ := reachable_iff_derives.mp reached
  exact fills_of_runAll ran

end Packet

/-! ## Scripts -/

namespace Script

variable {α β : Type} {p : Program} {x : ScriptM α} {f : α → ScriptM β} {stage : Stage} {tables : TableStore}

/-- The packet that the steps leave, at their end or at an error, comes from theirs by operations. -/
def Operates (p : Program) (x : ScriptM α) : Prop :=
  ∀ s, (∀ a t, x s = .ok a t → Derives p s.packet t.packet) ∧
    ∀ e t, x s = .error e t → Derives p s.packet t.packet

theorem operates_of_looksOnly (looks : LooksOnly x) : Operates p x := by
  intro s
  obtain ⟨done, failed⟩ := looks s
  constructor
  · intro a t ran
    rw [done a t ran]
    exact Derives.refl _ _
  · intro e t ran
    rw [failed e t ran]
    exact Derives.refl _ _

theorem Operates.bind (first : Operates p x) (second : ∀ a, Operates p (f a)) : Operates p (x >>= f) := by
  intro s
  constructor
  · intro b t ran
    obtain ⟨a, m, mid, last⟩ := state_bind_eq_ok.mp ran
    exact ((first s).1 a m mid).trans ((second a m).1 b t last)
  · intro e t ran
    rcases state_bind_eq_error.mp ran with early | ⟨a, m, mid, last⟩
    · exact (first s).2 e t early
    · exact ((first s).1 a m mid).trans ((second a m).2 e t last)

theorem operates_change {g : Packet → Packet} (op : Operation) (does : ∀ pkt, op.run p pkt = .ok (g pkt)) :
    Operates p (change g) := by
  intro s
  constructor
  · intro a t ran
    obtain rfl := modify_eq_ok.mp ran
    exact (Derives.refl p s.packet).step op (does s.packet)
  · intro e t ran
    cases ran

theorem operates_tryChange {g : Packet → Except Error Packet}
    (does : ∀ pkt next, g pkt = .ok next → Derives p pkt next) : Operates p (tryChange g) := by
  intro s
  cases result : g s.packet with
  | ok changed =>
    rw [tryChange_ok result]
    constructor
    · intro a t ran
      cases ran
      exact does _ _ result
    · intro e t ran
      cases ran
  | error e =>
    rw [tryChange_error result]
    constructor
    · intro a t ran
      cases ran
    · intro e t ran
      cases ran
      exact Derives.refl _ _

theorem operates_setField (field : String) (value : Nat) : Operates p (setField field value) := by
  apply operates_tryChange
  intro pkt next stored
  obtain ⟨id, -, same⟩ := bind_eq_ok.mp stored
  cases same
  exact (Derives.refl p pkt).step (.set id value) rfl

theorem operates_setHeaderValid (header : String) (flag : Bool) :
    Operates p (tryChange (·.setHeaderValid header flag)) := by
  apply operates_tryChange
  intro pkt next stored
  obtain ⟨id, -, same⟩ := bind_eq_ok.mp stored
  cases same
  exact (Derives.refl p pkt).step (.setValid id flag) rfl

theorem operates_valueOf (field : String) : Operates p (valueOf field) :=
  operates_of_looksOnly (looksOnly_get.bind fun _ => looksOnly_pure _)

/-- What is told is no matter to the packet. -/
theorem operates_tell (report : Report) : Operates p (tell report) := by
  intro s
  constructor
  · intro a t ran
    obtain rfl := modify_eq_ok.mp ran
    exact Derives.refl _ _
  · intro e t ran
    cases ran

theorem operates_lookupInto (table target : String) : Operates p (lookupInto tables table target) := by
  apply (operates_of_looksOnly looksOnly_get).bind
  intro s
  apply (operates_tell _).bind
  intro _
  split
  · exact operates_setField _ _
  · exact operates_of_looksOnly (looksOnly_pure _)

theorem operates_logFields (fields : List String) : Operates p (logFields stage fields) :=
  (operates_of_looksOnly looksOnly_get).bind fun _ => operates_tell _

mutual

theorem operates_runStep (step : ScriptStep) : Operates p (runStep stage tables step) := by
  cases step with
  | set field value => exact operates_setField field value
  | copy target source => exact (operates_valueOf source).bind fun _ => operates_setField _ _
  | add field value => exact (operates_valueOf field).bind fun _ => operates_setField _ _
  | setValid header flag => exact operates_setHeaderValid header flag
  | exit => exact operates_change (.recordExit true) fun _ => rfl
  | setData data => exact operates_change (.setData data) fun _ => rfl
  | setPayloadOffset offset => exact operates_change (.setPayloadOffset offset) fun _ => rfl
  | lookup table target => exact operates_lookupInto table target
  | ifField field value body =>
    rw [runStep]
    apply (operates_of_looksOnly looksOnly_get).bind
    intro s
    split
    · exact operates_runSteps body
    · exact operates_of_looksOnly (looksOnly_pure _)
  | ifValid header body =>
    rw [runStep]
    apply (operates_of_looksOnly looksOnly_get).bind
    intro s
    split
    · exact operates_runSteps body
    · exact operates_of_looksOnly (looksOnly_pure _)
  | log fields => exact operates_logFields fields

theorem operates_runSteps (steps : List ScriptStep) : Operates p (runSteps stage tables steps) := by
  cases steps with
  | nil =>
    rw [runSteps]
    exact operates_of_looksOnly (looksOnly_pure _)
  | cons step steps =>
    rw [runSteps]
    exact (operates_runStep step).bind fun _ => operates_runSteps steps

end

/-- A script works by operations, also where an error ends it. -/
theorem control_operates (p : Program) (stage : Stage) (script : Script) :
    (Script.control stage script).Operates p := by
  intro tables pkt
  have steps : Operates p (runSteps stage tables script) := operates_runSteps script
  unfold Script.control
  split
  case h_1 s ran => exact (steps ⟨pkt, []⟩).1 _ s ran
  case h_2 e s ran => exact (steps ⟨pkt, []⟩).2 e s ran

end Script

end Switchyard
