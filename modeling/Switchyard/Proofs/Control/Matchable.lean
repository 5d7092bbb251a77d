import Mathlib.Data.Nat.Init
import Switchyard.Pipeline.Control
import Switchyard.Proofs.Control.Entries
import Switchyard.Proofs.Packet

/-!
# Entries that a packet can match

An entry is accepted if its keys are of the declared kinds and its prefixes are no longer than their
fields. That does not yet mean that a packet can match it. Values of packets are cut to the widths of
their fields, but an exact key keeps all bits of its value, so one that does not fit its field admits
nothing. And a table may read one field for several keys, which can ask for different bits in the same
place. `Coherent` excludes both, and nothing else stands in the way: `sampleValue` puts together the bits
that coherent keys ask of a field.
-/

namespace Switchyard

open Sequencing

namespace KeyMatch

variable {width value : Nat} {key : KeyMatch}

/-- The value that a key is written with. -/
def pattern : KeyMatch → Nat
  | exact value => value
  | lpm value _ => value

/-- Does the key ask for a certain bit in place `i` of its field? A prefix leaves the low bits open. -/
def asks (width : Nat) (key : KeyMatch) (i : Nat) : Bool :=
  match key with
  | exact _ => decide (i < width)
  | lpm _ prefixLen => decide (width - prefixLen ≤ i ∧ i < width)

theorem lt_of_asks {i : Nat} (asks : key.asks width i) : i < width := by
  cases key with
  | exact => exact of_decide_eq_true asks
  | lpm => exact (of_decide_eq_true asks).2

/-- The key asks for nothing that its field has no room for. -/
def FitsField (width : Nat) : KeyMatch → Prop
  | exact value => value < Nat.pow 2 width
  | lpm _ _ => True

instance decidableFitsField (width : Nat) : (key : KeyMatch) → Decidable (key.FitsField width)
  | exact value => inferInstanceAs (Decidable (value < Nat.pow 2 width))
  | lpm _ _ => inferInstanceAs (Decidable True)

/-- A number has no bits from its bound on. -/
theorem testBit_of_le {i : Nat} (cut : value < Nat.pow 2 width) (beyond : width ≤ i) :
    value.testBit i = false :=
  Nat.testBit_lt_two_pow (Nat.lt_of_lt_of_le cut (Nat.pow_le_pow_right (by decide) beyond))

/-- A key admits a value that is cut to the field if it fits the field itself and the value has all bits
that it asks for. -/
theorem admits_iff (cut : value < Nat.pow 2 width) :
    key.Admits width value ↔
      key.FitsField width ∧ ∀ i, key.asks width i → value.testBit i = key.pattern.testBit i := by
  cases key with
  | exact wanted =>
    simp only [Admits, FitsField, asks, pattern, decide_eq_true_eq]
    constructor
    · rintro rfl
      exact ⟨cut, fun _ _ => rfl⟩
    · rintro ⟨fits, bits⟩
      apply Nat.eq_of_testBit_eq
      intro i
      by_cases inside : i < width
      · exact bits i inside
      · rw [testBit_of_le cut (Nat.le_of_not_lt inside), testBit_of_le fits (Nat.le_of_not_lt inside)]
  | lpm wanted prefixLen =>
    simp only [Admits, FitsField, asks, pattern, decide_eq_true_eq, true_and, and_imp]

end KeyMatch

namespace Table

variable {L : Layout} {t : Table} {e : TableEntry} {pkt : Packet} {id : FieldId}

/-- Some packet of the layout has values that the entry matches. -/
def CanMatch (t : Table) (L : Layout) (e : TableEntry) : Prop :=
  ∃ pkt : Packet, pkt.layout = L ∧ pkt.WellFormed ∧ (t.scoreOf? (t.keyValues pkt) e).isSome

/-- The keys of an entry fit the fields that they are compared with, and no two that are compared with
one field ask for different bits in the same place. -/
structure Coherent (t : Table) (L : Layout) (e : TableEntry) : Prop where
  fits : ∀ asked ∈ e.keys.zip t.keys, asked.1.FitsField (L.width asked.2.field)
  agree : ∀ asked ∈ e.keys.zip t.keys, ∀ other ∈ e.keys.zip t.keys,
    asked.2.field = other.2.field → ∀ i < L.width asked.2.field,
      asked.1.asks (L.width asked.2.field) i → other.1.asks (L.width asked.2.field) i →
        asked.1.pattern.testBit i = other.1.pattern.testBit i

instance decidableCoherent (t : Table) (L : Layout) (e : TableEntry) : Decidable (t.Coherent L e) :=
  decidable_of_iff (_ ∧ _) ⟨fun both => ⟨both.1, both.2⟩, fun coherent => ⟨coherent.fits, coherent.agree⟩⟩

/-- The entry matches a packet if each of its keys admits what the packet has in its field. -/
theorem matches_keyValues_iff (arity : e.keys.length = t.keys.length) :
    t.Matches L (t.keyValues pkt) e ↔ ∀ asked ∈ e.keys.zip t.keys,
      asked.1.Admits (L.width asked.2.field) (pkt.get asked.2.field) := by
  have paired : t.keys.zip (t.keyValues pkt) = t.keys.map fun spec => (spec, pkt.get spec.field) := by
    have both : (t.keys.map id).zip (t.keyValues pkt) = _ := List.zip_map'
    rwa [List.map_id] at both
  rw [Matches, Agree, paired, List.forall₂_map_right_iff, List.forall₂_iff_zip, Prod.forall]
  exact and_iff_right arity

/-- The bits that the keys of the entry ask of a field, in one number. -/
def sampleValue (t : Table) (L : Layout) (e : TableEntry) (id : FieldId) : Nat :=
  Nat.ofBits fun i : Fin (L.width id) => (e.keys.zip t.keys).any fun asked =>
    asked.2.field == id && asked.1.asks (L.width id) i && asked.1.pattern.testBit i

/-- A packet with these bits in all its fields. -/
def sample (t : Table) (L : Layout) (e : TableEntry) : Packet :=
  { Packet.new 0 0 [] L with values := (List.range L.fields.length).map (t.sampleValue L e) }

theorem get_sample (declared : id < L.fields.length) :
    (t.sample L e).get id = t.sampleValue L e id := by
  simp only [Packet.get, sample, List.getD_eq_getElem?_getD, List.getElem?_map,
    List.getElem?_range declared, Option.map_some, Option.getD_some]

theorem wellFormed_sample (t : Table) (L : Layout) (e : TableEntry) : (t.sample L e).WellFormed := by
  have length : (t.sample L e).values.length = L.fields.length := by
    rw [sample, List.length_map, List.length_range]
  refine ⟨length, List.length_map _, fun id => ?_, Nat.zero_le _⟩
  by_cases declared : id < L.fields.length
  · rw [get_sample declared]
    exact Nat.ofBits_lt_two_pow _
  · have none : (t.sample L e).values[id]? = none :=
      List.getElem?_eq_none (by rw [length]; exact Nat.le_of_not_lt declared)
    rw [Packet.get, List.getD_eq_getElem?_getD, none]
    exact Nat.pow_pos (by decide)

/-- Where keys agree, the number has the bits that each of them asks for. -/
theorem testBit_sampleValue (coherent : t.Coherent L e) {asked : KeyMatch × TableKey}
    (mem : asked ∈ e.keys.zip t.keys) {i : Nat} (asks : asked.1.asks (L.width asked.2.field) i) :
    (t.sampleValue L e asked.2.field).testBit i = asked.1.pattern.testBit i := by
  have inside := KeyMatch.lt_of_asks asks
  rw [sampleValue, Nat.testBit_ofBits_lt _ _ inside]
  cases wanted : asked.1.pattern.testBit i with
  | true =>
    refine List.any_eq_true.mpr ⟨asked, mem, ?_⟩
    rw [asks, wanted, beq_self_eq_true]
    rfl
  | false =>
    -- another key on the field that asked for a one would contradict this one
    refine List.any_eq_false.mpr fun other otherMem set => ?_
    simp only [Bool.and_eq_true, beq_iff_eq] at set
    obtain ⟨⟨same, otherAsks⟩, one⟩ := set
    rw [coherent.agree asked mem other otherMem same.symm i inside asks otherAsks, one] at wanted
    cases wanted

/-- An accepted entry can be matched exactly if its keys are coherent. -/
theorem canMatch_iff (sound : t.Sound L) (mem : e ∈ t.entries)
    (declared : ∀ spec ∈ t.keys, spec.field < L.fields.length) :
    t.CanMatch L e ↔ t.Coherent L e := by
  have arity := length_of_requireKeys (sound.accepted e mem)
  have scored (pkt : Packet) : (t.scoreOf? (t.keyValues pkt) e).isSome ↔
      ∀ asked ∈ e.keys.zip t.keys, asked.1.Admits (L.width asked.2.field) (pkt.get asked.2.field) := by
    have valueCount : (t.keyValues pkt).length = t.keys.length := List.length_map _
    rw [Option.isSome_iff_exists, ← matches_keyValues_iff arity]
    simp only [sound.scoreOf?_eq_some valueCount mem, exists_and_left, exists_eq, and_true]
  constructor
  · rintro ⟨pkt, rfl, wf, matched⟩
    have admitted := fun asked mem =>
      (KeyMatch.admits_iff (wf.fits _)).mp ((scored pkt).mp matched asked mem)
    refine ⟨fun asked mem => (admitted asked mem).1, ?_⟩
    intro asked mem other otherMem same i _ asks otherAsks
    rw [← (admitted asked mem).2 i asks, same]
    rw [same] at otherAsks
    exact (admitted other otherMem).2 i otherAsks
  · intro coherent
    have wf := wellFormed_sample t L e
    refine ⟨t.sample L e, rfl, wf, (scored _).mpr fun asked mem => ?_⟩
    refine (KeyMatch.admits_iff (wf.fits _)).mpr ⟨coherent.fits asked mem, fun i asks => ?_⟩
    rw [get_sample (declared _ (List.of_mem_zip mem).2)]
    exact testBit_sampleValue coherent mem asks

/-- Where a table reads no field twice, it is enough that exact values fit their fields. -/
theorem coherent_iff_fits (arity : e.keys.length = t.keys.length)
    (apart : (t.keys.map (·.field)).Nodup) :
    t.Coherent L e ↔
      ∀ asked ∈ e.keys.zip t.keys, asked.1.FitsField (L.width asked.2.field) := by
  refine ⟨Coherent.fits, fun fits => ⟨fits, ?_⟩⟩
  intro asked mem other otherMem same i _ _ _
  have distinct : ((e.keys.zip t.keys).map fun asked => asked.2.field).Nodup := by
    have fields := congrArg (List.map (·.field)) (List.map_snd_zip (Nat.le_of_eq arity.symm))
    rw [List.map_map] at fields
    exact fields ▸ apart
  rw [List.inj_on_of_nodup_map distinct mem otherMem same]

end Table

namespace TableStore

variable {s s₀ : TableStore} {t : Table} {L : Layout} {decls : List TableDecl} {log : Log}
  {name : String} {e : TableEntry}

/-- Whatever is done to the tables of a program, their keys read declared fields. -/
theorem keysDeclared_of_history (made : ofDecls L decls = .ok s₀)
    (history : History Operation.run s₀ log s) : s.KeysDeclared L :=
  (keysDeclared_ofDecls made).of_schemas (schemas_of_history made history)

/-- Whatever is done to the tables of a program, an entry of a table can be matched exactly if its exact
keys fit their fields and no two keys on one field ask for different bits in the same place. An addition
looks at neither, so it can accept an entry that no packet will ever match. -/
theorem canMatch_iff_coherent {d : Description} {program : Program}
    (loaded : Program.load d = .ok program) (history : History Operation.run program.tables log s)
    (found : s.table? name = some t) (mem : e ∈ t.entries) :
    t.CanMatch program.layout e ↔ t.Coherent program.layout e := by
  have made := (Program.load_eq_ok_iff.mp loaded).tables
  have sound := (sound_of_history made history).2.of_found found
  have there : t ∈ s.tables := List.mem_of_find?_eq_some found
  exact Table.canMatch_iff sound mem (keysDeclared_of_history made history t there)

/-- Two tables on a field of one bit, of which the second reads it twice. -/
def flags : Description :=
  { name := some "flags"
    headers := [⟨"h", false, [⟨"flag", 1⟩]⟩]
    parser := []
    deparser := []
    tables := [⟨"once", [⟨"h.flag", .exact⟩], ["act"], none⟩,
      ⟨"twice", [⟨"h.flag", .exact⟩, ⟨"h.flag", .lpm⟩], ["act"], none⟩]
    checksums := [] }

/-- The field. -/
def flagLayout : Layout := ⟨[⟨"h", false, 0, 1, 1⟩], [⟨"h.flag", 0, 1⟩]⟩

/-- The tables with given entries, as many as were ever added. -/
def flagStore (once twice : List TableEntry) : TableStore :=
  ⟨[⟨"once", [⟨0, 1, .exact⟩], ["act"], once, once.length, none⟩,
    ⟨"twice", [⟨0, 1, .exact⟩, ⟨0, 1, .lpm⟩], ["act"], twice, twice.length, none⟩]⟩

/-- An exact key beyond the field is accepted, and so are two keys that want the bit to be different.
Neither entry can be matched, unlike the entry in between. -/
theorem canMatch_iff_coherent_flags :
    ∃ program log s once twice, Program.load flags = .ok program ∧
      History Operation.run program.tables log s ∧
      s.table? "once" = some once ∧ s.table? "twice" = some twice ∧
      once.entries = [⟨1, [.exact 1], ⟨"act", []⟩⟩, ⟨0, [.exact 2], ⟨"act", []⟩⟩] ∧
      twice.entries = [⟨0, [.exact 1, .lpm 0 1], ⟨"act", []⟩⟩] ∧
      ¬once.CanMatch program.layout ⟨0, [.exact 2], ⟨"act", []⟩⟩ ∧
      once.CanMatch program.layout ⟨1, [.exact 1], ⟨"act", []⟩⟩ ∧
      ¬twice.CanMatch program.layout ⟨0, [.exact 1, .lpm 0 1], ⟨"act", []⟩⟩ := by
  obtain ⟨program, loaded, tables, layout⟩ : ∃ program, Program.load flags = .ok program ∧
      program.tables = flagStore [] [] ∧ program.layout = flagLayout := ⟨_, rfl, rfl, rfl⟩
  have begun : History Operation.run program.tables [] (flagStore [] []) := by
    rw [← tables]
    exact .start
  have beyond := begun.done (.add "once" "act" [.exact 2] []) rfl
  have inside := beyond.done (.add "once" "act" [.exact 1] []) rfl
  have last : History Operation.run program.tables _ (flagStore _ _) :=
    inside.done (.add "twice" "act" [.exact 1, .lpm 0 1] []) rfl
  have iff (name : String) {t : Table} (found : TableStore.table? _ name = some t) {e : TableEntry}
      (mem : e ∈ t.entries) := canMatch_iff_coherent loaded last found mem
  rw [layout] at iff
  refine ⟨program, _, _, _, _, loaded, last, rfl, rfl, rfl, rfl, ?_, ?_, ?_⟩
  · rw [layout, iff "once" rfl (by simp)]
    decide
  · rw [layout, iff "once" rfl (by simp)]
    decide
  · rw [layout, iff "twice" rfl (by simp)]
    decide

end TableStore

end Switchyard
