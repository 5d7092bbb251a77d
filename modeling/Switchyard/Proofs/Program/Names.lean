import Switchyard.Proofs.Control.Entries
import Switchyard.Proofs.Packet.StepLimit
import Switchyard.Proofs.Program.Loading

/-!
# What the names of a program stand for

In a program that has loaded, no two headers, no two fields and no two tables share a name, so each of these
names stands for one declaration. Parser states are another matter: loading does not compare their names. A
name stands for the last state that has it, and the two names of the ends of a parse stand for no state. A
state that its own name does not stand for is never come to, unless a parse starts there.
-/

namespace Switchyard

open Sequencing

/-- No name is given twice, and each name stands for the position at which it is given. -/
structure Named (names : List String) (find : String → Option Nat) : Prop where
  distinct : names.Nodup
  found : ∀ name i, find name = some i ↔ names[i]? = some name

theorem named_of_map {α : Type} {key : α → String} {xs : List α} {names : List String}
    (same : xs.map key = names) (distinct : names.Nodup) :
    Named names fun name => xs.findIdx? fun x => key x == name := by
  subst same
  exact ⟨distinct, fun _ _ => findIdx?_key_eq_some distinct⟩

/-- The state is the last one with the name, which is no name of an end. -/
def Description.StandsFor (d : Description) (name : String) (i : Nat) : Prop :=
  name ≠ "accept" ∧ name ≠ "reject" ∧ d.stateNames[i]? = some name ∧
    ∀ j, i < j → d.stateNames[j]? ≠ some name

/-- Every parser state is what its name stands for. -/
def Description.StatesNamed (d : Description) : Prop :=
  ∀ name i, d.stateNames[i]? = some name → d.StandsFor name i

namespace Program

variable {d : Description} {p : Program} {name : String} {i : Nat}

theorem headers_named (loaded : load d = .ok p) : Named d.headerNames p.layout.headerId? := by
  rw [layout_eq_of_load loaded]
  exact named_of_map (Layout.headerNames_declared d.headers) (succeeds_load_iff.mp ⟨p, loaded⟩).headers

theorem fields_named (loaded : load d = .ok p) : Named d.fieldNames p.layout.fieldId? := by
  rw [layout_eq_of_load loaded]
  exact named_of_map (Layout.fieldNames_declared d.headers) (succeeds_load_iff.mp ⟨p, loaded⟩).fields

/-- The tables stand in the order of their declarations. -/
theorem tableNames_of_load (loaded : load d = .ok p) : p.tables.tables.map (·.name) = d.tableNames := by
  have each : List.Forall₂ Eq (d.tables.map (·.name)) (p.tables.tables.map (·.name)) := by
    rw [List.forall₂_map_left_iff, List.forall₂_map_right_iff]
    refine (TableStore.tables_ofDecls (load_eq_ok_iff.mp loaded).tables).imp fun decl t made => ?_
    exact (TableStore.declares_of_tableOf made).name.symm
  rw [List.forall₂_eq_eq_eq] at each
  exact each.symm

theorem table?_eq_some_iff (loaded : load d = .ok p) {t : Table} :
    p.tables.table? name = some t ↔
      ∃ i : Nat, d.tableNames[i]? = some name ∧ p.tables.tables[i]? = some t := by
  rw [← tableNames_of_load loaded]
  constructor
  · intro found
    obtain ⟨i, there⟩ := List.mem_iff_getElem?.mp (List.mem_of_find?_eq_some found)
    refine ⟨i, ?_, there⟩
    rw [List.getElem?_map, there, Option.map_some, TableStore.name_of_found found]
  · rintro ⟨i, named, there⟩
    rw [List.getElem?_map, there, Option.map_some] at named
    obtain rfl := Option.some.inj named
    exact TableStore.table?_of_mem (namesDistinct_of_load loaded) (List.mem_of_getElem? there)

/-- What a name stands for is the target that it means. -/
theorem target_eq_state_iff : target d.parser name = .ok (.state i) ↔ d.StandsFor name i := by
  rw [target_eq_state, stateIndex?_eq_some]
  rfl

/-- All states are what their names stand for exactly if their names are distinct and no name of an end. -/
theorem statesNamed_iff :
    d.StatesNamed ↔ d.stateNames.Nodup ∧ "accept" ∉ d.stateNames ∧ "reject" ∉ d.stateNames := by
  rw [List.nodup_iff_getElem?_ne_getElem?]
  constructor
  · intro named
    refine ⟨?_, ?_, ?_⟩
    · intro i j later inside same
      have there := List.getElem?_eq_getElem inside
      exact (named _ i (same.trans there)).2.2.2 j later there
    · intro member
      obtain ⟨i, there⟩ := List.mem_iff_getElem?.mp member
      exact (named _ i there).1 rfl
    · intro member
      obtain ⟨i, there⟩ := List.mem_iff_getElem?.mp member
      exact (named _ i there).2.1 rfl
  · rintro ⟨distinct, accept, reject⟩ name i there
    have member : name ∈ d.stateNames := List.mem_of_getElem? there
    refine ⟨?_, ?_, there, ?_⟩
    · rintro rfl
      exact accept member
    · rintro rfl
      exact reject member
    · intro j later again
      obtain ⟨inside, -⟩ := List.getElem?_eq_some_iff.mp again
      exact distinct i j later inside (there.trans again.symm)

/-- A parse comes to a state by a name that stands for it, unless it starts there. -/
theorem Enters.named {pkt : Packet} {entered : List Nat} {c : ParseCursor} (loaded : load d = .ok p)
    (enters : p.Enters pkt entered (.state i) c) :
    i = 0 ∨ ∃ name, d.StandsFor name i := by
  generalize next : Target.state i = goal at enters
  cases enters with
  | start =>
    unfold Program.start at next
    split at next
    case isTrue => cases next
    case isFalse =>
      cases next
      exact .inl rfl
  | @enter _ _ state _ _ _ _ known _ goes =>
    subst next
    have member := List.mem_of_getElem? known
    obtain ⟨decl, -, made⟩ := mem_of_mapM_eq_ok (load_eq_ok_iff.mp loaded).states state member
    have leads := (ParseState.next?_eq_some_iff.mp goes).mem_targets
    obtain ⟨name, meant⟩ := exists_name_of_mem_targets made leads
    exact .inr ⟨name, target_eq_state_iff.mp meant⟩

/-- What the names in a loaded program stand for. Header names, field names and table names are distinct, and
each stands for the one declaration that has it. A state name stands for the last state that has it, unless it
names an end of the parse; so every state is what its name stands for exactly if the state names are distinct
and no names of ends, which loading does not ask for. No parse comes to another state, but it may start at one. -/
theorem names_of_load (loaded : load d = .ok p) :
    Named d.headerNames p.layout.headerId? ∧ Named d.fieldNames p.layout.fieldId? ∧
      (d.tableNames.Nodup ∧ ∀ name t, p.tables.table? name = some t ↔
        ∃ i : Nat, d.tableNames[i]? = some name ∧ p.tables.tables[i]? = some t) ∧
      (∀ name i, target d.parser name = .ok (.state i) ↔ d.StandsFor name i) ∧
      (d.StatesNamed ↔ d.stateNames.Nodup ∧ "accept" ∉ d.stateNames ∧ "reject" ∉ d.stateNames) ∧
      ∀ pkt entered i c, p.Enters pkt entered (.state i) c → i = 0 ∨ ∃ name, d.StandsFor name i := by
  have tables := (succeeds_load_iff.mp ⟨p, loaded⟩).tableNames
  exact ⟨headers_named loaded, fields_named loaded, ⟨tables, fun _ _ => table?_eq_some_iff loaded⟩,
    fun _ _ => target_eq_state_iff, statesNamed_iff, fun _ _ _ _ enters => enters.named loaded⟩

/-- A description with two states of one name, each for a header of its own, and a state with the name of an end
of the parse. -/
def shadowing : Description where
  name := none
  headers := [⟨"a", false, [⟨"kind", 8⟩]⟩, ⟨"b", false, [⟨"kind", 8⟩]⟩]
  parser := [⟨"start", [], none, [], some "header"⟩, ⟨"header", ["a"], none, [], none⟩,
    ⟨"header", ["b"], none, [], none⟩, ⟨"accept", ["a", "b"], none, [], none⟩]
  deparser := ["a", "b"]
  tables := []
  checksums := []

/-- Such a description loads, but no packet comes to the first of the states that share a name, nor to the one
that has the name of an end. -/
theorem names_of_load_shadowing :
    ∃ p, load shadowing = .ok p ∧ ¬shadowing.StatesNamed ∧
      ∀ pkt entered i c, p.Enters pkt entered (.state i) c → i ≠ 1 ∧ i ≠ 3 := by
  obtain ⟨p, loaded⟩ : Succeeds (load shadowing) := by decide +kernel
  obtain ⟨-, -, -, -, named, entered⟩ := names_of_load loaded
  refine ⟨p, loaded, fun all => absurd (named.mp all).1 (by decide), ?_⟩
  intro pkt states i c enters
  rcases entered pkt states i c enters with rfl | ⟨name, accept, -, there, last⟩
  · decide
  constructor
  · rintro rfl
    obtain rfl := Option.some.inj there
    exact last 2 (by decide) rfl
  · rintro rfl
    obtain rfl := Option.some.inj there
    exact accept rfl

end Program

end Switchyard
