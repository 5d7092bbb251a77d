import Mathlib.Data.List.Forall2
import Mathlib.Data.List.GetD
import Switchyard.Proofs.Pipeline.Reaching

/-!
# Values that fit their fields

Every value that comes to a field is cut to the width of the field, whether a control, a stage, the parser
or a checksum stores it. So the values of all packets that a program can come to fit their fields, and they
are all that fit. Nothing is lost then where a header is emitted: extracting it from the emitted bits, at
whatever position they stand, gives every field its value back.
-/

namespace Switchyard

/-- There is one value for each field, and it can be written in the width of the field. -/
def Layout.Fits (L : Layout) (values : List Nat) : Prop :=
  List.Forall₂ (fun value field => value < Nat.pow 2 field.bits) values L.fields

theorem Layout.fits_iff {L : Layout} {values : List Nat} : L.Fits values ↔
    values.length = L.fields.length ∧ ∀ id, values.getD id 0 < Nat.pow 2 (L.width id) := by
  rw [Fits, List.forall₂_iff_get]
  constructor
  · rintro ⟨length, each⟩
    refine ⟨length, ?_⟩
    intro id
    by_cases declared : id < L.fields.length
    · have stored : id < values.length := length ▸ declared
      rw [List.getD_eq_getElem _ _ stored, width_of_get (List.getElem?_eq_getElem declared)]
      exact each id stored declared
    · rw [List.getD_eq_default _ _ (by omega)]
      exact Nat.pow_pos (by decide)
  · rintro ⟨length, each⟩
    refine ⟨length, ?_⟩
    intro id stored declared
    have fits := each id
    rw [List.getD_eq_getElem _ _ stored, width_of_get (List.getElem?_eq_getElem declared)] at fits
    exact fits

/-- The bits stand in the bytes, from a position on. -/
def Bits.StandAt (bits : Bits) (data : Bytes) (position : Nat) : Prop :=
  ∃ front back, Bits.ofBytes data = front ++ bits ++ back ∧ front.length = position

/-- Bits that are closed into bytes, among others, stand behind those in front of them. -/
theorem Bits.standAt_toBytes (front bits back : Bits) :
    bits.StandAt (Bits.toBytes (front ++ bits ++ back)) front.length := by
  refine ⟨front, back ++ List.replicate ((8 - (front ++ bits ++ back).length % 8) % 8) false, ?_, rfl⟩
  rw [ofBytes_toBytes, List.append_assoc]

namespace Packet

variable {p : Program} {pkt : Packet} {L : Layout} {header : HeaderId} {values : List Nat}

/-! ## Values that fit -/

theorem Fills.fits (fills : pkt.Fills L) : L.Fits pkt.values := by
  have wf := fills.wellFormed
  refine Layout.fits_iff.mpr ⟨?_, fills.get_lt⟩
  rw [← fills.layout]
  exact wf.values

/-- Values that fit can be stored, one after another. -/
theorem edits_values (fills : pkt.Fills L) (fits : L.Fits values) :
    Edits pkt { pkt with values := values } := by
  obtain ⟨length, bounds⟩ := Layout.fits_iff.mp fits
  have same : pkt.values.length = values.length := by
    rw [length, (Layout.fits_iff.mp fills.fits).1]
  -- the first values are new and the others are as before
  have stored : ∀ n, n ≤ values.length →
      Edits pkt { pkt with values := values.take n ++ pkt.values.drop n } := by
    intro n
    induction n with
    | zero =>
      intro _
      exact Edits.refl
    | succ n ih =>
      intro inside
      have front : (values.take n).length = n := List.length_take_of_le (Nat.le_of_succ_le inside)
      have small : values[n] % Nat.pow 2 (pkt.layout.width n) = values[n] := by
        have bound := bounds n
        rw [List.getD_eq_getElem _ _ inside, ← fills.layout] at bound
        exact Nat.mod_eq_of_lt bound
      have next : (values.take n ++ pkt.values.drop n).set n values[n] =
          values.take (n + 1) ++ pkt.values.drop (n + 1) := by
        rw [List.set_append_right _ _ (Nat.le_of_eq front), front, Nat.sub_self,
          List.drop_eq_getElem_cons (by omega), List.set_cons_zero, List.take_succ_eq_append_getElem inside,
          List.append_assoc, List.singleton_append]
      have edits := (ih (Nat.le_of_succ_le inside)).set n values[n]
      simp only [Packet.set, small, next] at edits
      exact edits
  have all := stored values.length (Nat.le_refl _)
  rwa [List.take_length, ← same, List.drop_length, List.append_nil] at all

/-- The values of reachable packets are those that fit. -/
theorem exists_reachable_iff :
    (∃ pkt, Reachable p pkt ∧ pkt.values = values) ↔ p.layout.Fits values := by
  constructor
  · rintro ⟨pkt, reached, rfl⟩
    exact reached.fills.fits
  · intro fits
    have edits := edits_values (fills_new 0 0 [] p.layout) fits
    exact ⟨_, (Reachable.new 0 0 []).derives ((Derives.refl _ _).edits edits), rfl⟩

/-! ## Emitting and extracting -/

/-- Where fields have been emitted, reading gives the value of each. -/
theorem read_emitted {ids front back : List FieldId} {id : FieldId} {data : Bytes} {position : Nat}
    (there : Bits.StandAt (ids.flatMap pkt.fieldBits) data position) (split : ids = front ++ id :: back)
    (fits : pkt.get id < Nat.pow 2 (pkt.layout.width id)) :
    Bits.read data (position + pkt.layout.totalBits front) (pkt.layout.width id) = pkt.get id := by
  obtain ⟨before, behind, bits, rfl⟩ := there
  rw [Bits.read_eq, bits, split, List.flatMap_append, List.flatMap_cons, ← List.drop_drop]
  simp only [List.append_assoc]
  rw [List.drop_left, List.drop_left' (length_flatMap_fieldBits pkt front),
    List.take_left' (length_fieldBits pkt id), fieldBits, Bits.toNat_ofNat_of_lt fits]

theorem length_emit (layout : pkt.layout.WellFormed) (header : HeaderId) :
    (pkt.emit header).length = pkt.layout.headerBits header := by
  rw [emit, length_flatMap_fieldBits, layout.headerBits_eq]

/-- An emitted header fits where it stands, and extracting it gives its fields their values back. -/
theorem extract_emitted {c : ParseCursor} (layout : L.WellFormed) (fills : pkt.Fills L)
    (receives : c.packet.Fills L) (there : (pkt.emit header).StandAt c.packet.data c.position) :
    c.fits header = true ∧ (c.extract header).position = c.position + (pkt.emit header).length ∧
      ∀ id ∈ L.fieldIds header, (c.extract header).packet.get id = pkt.get id := by
  have own := fills.layout
  have same := receives.layout
  have length := length_emit (own ▸ layout) header
  refine ⟨?_, ?_, ?_⟩
  · obtain ⟨front, back, bits, position⟩ := there
    have whole := congrArg List.length bits
    simp only [Bits.length_ofBytes, List.length_append] at whole
    rw [ParseCursor.fits_iff, same, ← own, ← length]
    omega
  · rw [ParseCursor.extract_position, length, same, own]
  · intro id member
    obtain ⟨front, back, split⟩ := List.append_of_mem member
    have apart : id ∉ back := by
      have distinct := L.fieldIds_nodup header
      rw [split] at distinct
      exact (List.nodup_cons.mp (List.nodup_append.mp distinct).2.1).1
    have declared := receives.lt_values (layout.fieldIds_lt id member)
    have width : pkt.get id < Nat.pow 2 (pkt.layout.width id) := by
      rw [own]
      exact fills.get_lt id
    have value := read_emitted there (own ▸ split) width
    rw [ParseCursor.extract, setValid_get, same,
      ParseCursor.fillFields_get_of_split split apart declared, same, ← value, own]

/-- The values of the packets that an accepted program can come to, by operations and by stages, are
exactly those that fit their fields. So a header that was emitted from any of them, and stands at any
position of another, fits there, and extracting it gives every one of its fields the value that was
emitted. -/
theorem field_values_fit {d : Description} (loaded : Program.load d = .ok p) :
    (∀ values, (∃ pkt, Reachable p pkt ∧ pkt.values = values) ↔ p.layout.Fits values) ∧
    ∀ (pkt : Packet) (header : HeaderId) (c : ParseCursor), Reachable p pkt → Reachable p c.packet →
      (pkt.emit header).StandAt c.packet.data c.position →
        c.fits header = true ∧ (c.extract header).position = c.position + (pkt.emit header).length ∧
          ∀ id ∈ p.layout.fieldIds header, (c.extract header).packet.get id = pkt.get id := by
  constructor
  · intro values
    exact exists_reachable_iff
  · intro pkt header c reached receives there
    exact extract_emitted (Program.wellFormed_of_load loaded) reached.fills receives.fills there

/-- A header of 135 bits with a wide field, and a checksum that is narrower than checksums are. -/
def straddling : Description where
  name := some "straddling"
  headers :=
    [⟨"standard_metadata", true,
        [⟨"ingress_port", 9⟩, ⟨"packet_length", 32⟩, ⟨"instance_type", 32⟩, ⟨"egress_spec", 9⟩,
          ⟨"egress_port", 9⟩]⟩,
      ⟨"odd", false, [⟨"kind", 3⟩, ⟨"wide", 127⟩, ⟨"sum", 5⟩]⟩]
  parser := [⟨"start", ["odd"], none, [], none⟩]
  deparser := ["odd"]
  tables := []
  checksums := [⟨"odd", "sum", none⟩]

/-- The program of the straddling header. -/
def straddlingProgram : Program where
  description := straddling
  layout :=
    ⟨[⟨"standard_metadata", true, 0, 5, 91⟩, ⟨"odd", false, 5, 3, 135⟩],
      [⟨"standard_metadata.ingress_port", 0, 9⟩, ⟨"standard_metadata.packet_length", 0, 32⟩,
        ⟨"standard_metadata.instance_type", 0, 32⟩, ⟨"standard_metadata.egress_spec", 0, 9⟩,
        ⟨"standard_metadata.egress_port", 0, 9⟩, ⟨"odd.kind", 1, 3⟩, ⟨"odd.wide", 1, 127⟩,
        ⟨"odd.sum", 1, 5⟩]⟩
  states := [⟨[1], none, [], none⟩]
  deparseOrder := [1]
  checksums := [⟨1, 7, none⟩]
  tables := ⟨[]⟩

/-- Both controls store values that are too large for their fields, and egress ends with an error. -/
def straddlingControls : Controls :=
  .ofScripts [.set "odd.wide" (Nat.pow 2 128 - 2), .set "standard_metadata.egress_spec" 600]
    [.add "odd.kind" 7, .ifValid "odd" [.set "odd.nothing" 1]]

/-- The pipeline of the program with these controls. -/
def straddlingPipeline : Pipeline where
  config := .default
  boundary := .standard Boundary.defaultMaxFrame
  program := straddlingProgram
  controls := straddlingControls
  fields := ⟨0, 1, 2, 3, 4, none, none, none, none, none, none⟩
  controlPort := 9090
  plane := ⟨⟨[]⟩, Multicast.empty⟩

/-- The packet that comes in. -/
def straddlingStart : Packet := .new 0 3 (List.replicate 17 0xa5) straddlingProgram.layout

/-- The packet on its way to port 88, which is what nine bits keep of 600. -/
def straddlingQueued : Queued :=
  ⟨88, { straddlingStart with
    values := [3, 17, 0, 88, 0, 5, Nat.pow 2 127 - 2, 18], valid := [true, true], payloadOffset := 17,
    checksumError := true }⟩

/-- The packet goes through all stages and is deparsed with a checksum that is cut to five bits. Its header
is emitted behind five other bits, and extracted there. -/
theorem field_values_fit_straddling :
    Program.load straddling = .ok straddlingProgram ∧
      (∃ after, Pipeline.new straddlingProgram straddlingControls .default .initial =
        .ok straddlingPipeline after) ∧
      straddlingQueued ∈ straddlingPipeline.queue (straddlingPipeline.ingress 3 .zero straddlingStart).1 ∧
      ∃ out, straddlingProgram.deparse (straddlingPipeline.egress 17 .zero straddlingQueued).1 = .ok out ∧
        Reachable straddlingProgram out ∧
        out.values = [3, 17, 0, 0, 88, 4, Nat.pow 2 127 - 2, 31] ∧
        straddlingProgram.layout.Fits out.values ∧
        ∃ c : ParseCursor, c.position = 5 ∧ Reachable straddlingProgram c.packet ∧
          (out.emit 1).StandAt c.packet.data c.position ∧ c.fits 1 = true ∧
          (c.extract 1).position = 5 + (out.emit 1).length ∧
          ∀ id ∈ straddlingProgram.layout.fieldIds 1, (c.extract 1).packet.get id = out.get id := by
  have loaded : Program.load straddling = .ok straddlingProgram := rfl
  have queued : straddlingQueued ∈
      straddlingPipeline.queue (straddlingPipeline.ingress 3 .zero straddlingStart).1 := by decide +kernel
  have start : Reachable straddlingProgram straddlingStart := .new 0 3 _
  have parsed := start.ingress straddlingPipeline rfl (Script.control_operates _ _ _) 3 .zero
  have copied := parsed.queue straddlingPipeline rfl queued
  have edited := copied.egress straddlingPipeline rfl (Script.control_operates _ _ _) 17 .zero
  have inside : (straddlingPipeline.egress 17 .zero straddlingQueued).1.payloadOffset ≤
      (straddlingPipeline.egress 17 .zero straddlingQueued).1.data.length := by decide +kernel
  obtain ⟨out, deparsed, stored⟩ :
      ∃ out, straddlingProgram.deparse (straddlingPipeline.egress 17 .zero straddlingQueued).1 = .ok out ∧
        out.values = [3, 17, 0, 0, 88, 4, Nat.pow 2 127 - 2, 31] :=
    ⟨_, if_neg (Nat.not_lt.mpr inside), by decide +kernel⟩
  have reached := edited.operation .deparse deparsed
  have receives : Reachable straddlingProgram (.new 7 0
      (Bits.toBytes ([true, false, true, true, false] ++ out.emit 1 ++ [true])) straddlingProgram.layout) :=
    .new 7 0 _
  have there := Bits.standAt_toBytes [true, false, true, true, false] (out.emit 1) [true]
  obtain ⟨values, headers⟩ := field_values_fit loaded
  exact ⟨loaded, ⟨_, rfl⟩, queued, out, deparsed, reached, stored, (values _).mp ⟨out, reached, rfl⟩,
    ⟨_, 5⟩, rfl, receives, there, headers out 1 ⟨_, 5⟩ reached receives there⟩

end Packet

end Switchyard
