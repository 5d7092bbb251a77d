import Mathlib.Tactic.MkIffOfInductiveProp
import Switchyard.Proofs.BasicSwitch.Program
import Switchyard.Proofs.Control.Distinct
import Switchyard.Proofs.Pipeline.Standard
import Switchyard.Proofs.Program.Declaring
import Switchyard.Proofs.Program.Resolution

/-!
# Which descriptions load

A description is well-formed if its headers make a layout, no two tables share a name, and every name that
its parser, its deparser, its checksums and its tables use is declared. `Program.load` accepts exactly the
well-formed descriptions: each of its steps succeeds exactly where its part of the description resolves, and
what a step answers is no matter to the others, apart from the layout. A pipeline for a program that has
loaded needs only the five standard fields.
-/

namespace Switchyard

open Sequencing

namespace Description

def headerNames (d : Description) : List String := d.headers.map (·.name)

/-- The qualified names of all fields. -/
def fieldNames (d : Description) : List String := d.headers.flatMap HeaderDecl.fieldNames

def stateNames (d : Description) : List String := d.parser.map (·.name)

def tableNames (d : Description) : List String := d.tables.map (·.name)

/-- The layout that the headers make, if they make one. -/
def layout (d : Description) : Layout := Layout.declared d.headers

/-- The name can stand for the next state of a parse. -/
def Leads (d : Description) (name : String) : Prop :=
  name = "accept" ∨ name = "reject" ∨ name ∈ d.stateNames

end Description

/-- All names that a parser state uses are declared. -/
@[mk_iff]
structure StateDecl.Resolves (d : Description) (decl : StateDecl) : Prop where
  extract : ∀ header ∈ decl.extract, header ∈ d.headerNames
  select : ∀ field ∈ decl.select, field ∈ d.fieldNames
  transitions : ∀ t ∈ decl.transitions, d.Leads t.next
  fallback : ∀ name ∈ decl.fallback, d.Leads name

/-- The header of a checksum is declared, and so are its fields. -/
@[mk_iff]
structure ChecksumDecl.Resolves (d : Description) (decl : ChecksumDecl) : Prop where
  header : decl.header ∈ d.headerNames
  field : Layout.qualified decl.header decl.field ∈ d.fieldNames
  lengthWords : ∀ field ∈ decl.lengthWords, Layout.qualified decl.header field ∈ d.fieldNames

/-- The keys of a table are declared fields, and its default action is one of its actions. -/
@[mk_iff]
structure TableDecl.Resolves (d : Description) (decl : TableDecl) : Prop where
  keys : ∀ key ∈ decl.keys, key.field ∈ d.fieldNames
  defaultAction : ∀ action ∈ decl.defaultAction, action ∈ decl.actions

/-- Widths are right, names are distinct where they have to be, and all names that are used are declared. -/
structure Description.WellFormed (d : Description) : Prop where
  widths : ∀ decl ∈ d.headers, decl.Wide
  headers : d.headerNames.Nodup
  fields : d.fieldNames.Nodup
  parser : ∀ decl ∈ d.parser, decl.Resolves d
  deparser : ∀ header ∈ d.deparser, header ∈ d.headerNames
  checksums : ∀ decl ∈ d.checksums, decl.Resolves d
  tables : ∀ decl ∈ d.tables, decl.Resolves d
  tableNames : d.tableNames.Nodup

namespace Layout

variable {L : Layout} {name : String}

theorem isSome_fieldId?_iff : (L.fieldId? name).isSome ↔ name ∈ L.fields.map (·.name) := by
  rw [← Decidable.not_iff_not, ← fieldId?_eq_none, Bool.not_eq_true, Option.isSome_eq_false_iff,
    Option.isNone_iff_eq_none]

theorem isSome_headerId?_iff : (L.headerId? name).isSome ↔ name ∈ L.headers.map (·.name) := by
  rw [← Decidable.not_iff_not, ← headerId?_eq_none, Bool.not_eq_true, Option.isSome_eq_false_iff,
    Option.isNone_iff_eq_none]

theorem succeeds_requireField_iff : Succeeds (L.requireField name) ↔ name ∈ L.fields.map (·.name) :=
  succeeds_elim_iff.trans isSome_fieldId?_iff

theorem succeeds_requireHeader_iff : Succeeds (L.requireHeader name) ↔ name ∈ L.headers.map (·.name) :=
  succeeds_elim_iff.trans isSome_headerId?_iff

end Layout

namespace Program

variable {d : Description} {name : String}

theorem succeeds_field_iff : Succeeds (d.layout.requireField name) ↔ name ∈ d.fieldNames := by
  rw [Layout.succeeds_requireField_iff, Description.layout, Layout.fieldNames_declared]
  rfl

theorem succeeds_header_iff : Succeeds (d.layout.requireHeader name) ↔ name ∈ d.headerNames := by
  rw [Layout.succeeds_requireHeader_iff, Description.layout, Layout.headerNames_declared]
  rfl

/-- A name means a target exactly if it is an end of the parse or the name of a state. -/
theorem succeeds_target_iff : Succeeds (target d.parser name) ↔ d.Leads name := by
  unfold target Description.Leads
  by_cases accept : name = "accept"
  · rw [if_pos accept]
    exact iff_of_true (succeeds_ok _) (.inl accept)
  by_cases reject : name = "reject"
  · rw [if_neg accept, if_pos reject]
    exact iff_of_true (succeeds_ok _) (.inr (.inl reject))
  rw [if_neg accept, if_neg reject]
  simp only [accept, reject, false_or]
  cases found : stateIndex? d.parser name with
  | none => exact iff_of_false (not_succeeds_error _) (stateIndex?_eq_none.mp found)
  | some i =>
    refine iff_of_true (succeeds_ok _) (Decidable.byContradiction fun missing => ?_)
    rw [stateIndex?_eq_none.mpr missing] at found
    cases found

theorem succeeds_parseState_iff {decl : StateDecl} :
    Succeeds (parseState d.layout d.parser decl) ↔ decl.Resolves d := by
  have extract : Succeeds (decl.extract.mapM d.layout.requireHeader) ↔
      ∀ header ∈ decl.extract, header ∈ d.headerNames := by
    simp only [succeeds_mapM_iff, succeeds_header_iff]
  have select : Succeeds (decl.select.mapM d.layout.requireField) ↔
      ∀ field ∈ decl.select, field ∈ d.fieldNames := by
    simp only [succeeds_option_mapM_iff, succeeds_field_iff]
  have transitions : Succeeds (decl.transitions.mapM fun t : TransitionDecl => do
      return (t.value, ← target d.parser t.next)) ↔ ∀ t ∈ decl.transitions, d.Leads t.next := by
    simp only [succeeds_mapM_iff]
    refine forall₂_congr fun t _ => ?_
    rw [succeeds_bind_pure_iff, succeeds_target_iff]
  have fallback : Succeeds (decl.fallback.mapM (target d.parser)) ↔
      ∀ name ∈ decl.fallback, d.Leads name := by
    simp only [succeeds_option_mapM_iff, succeeds_target_iff]
  unfold parseState
  refine (succeeds_bind_iff_and fun _ _ => succeeds_bind_iff_and fun _ _ =>
    succeeds_bind_iff_and fun _ _ => succeeds_bind_pure_iff).trans ?_
  rw [extract, select, transitions, fallback, StateDecl.resolves_iff]

theorem succeeds_checksumRule_iff {decl : ChecksumDecl} :
    Succeeds (checksumRule d.layout decl) ↔ decl.Resolves d := by
  have lengthWords : Succeeds (decl.lengthWords.mapM fun f =>
      d.layout.requireField (Layout.qualified decl.header f)) ↔
      ∀ field ∈ decl.lengthWords, Layout.qualified decl.header field ∈ d.fieldNames := by
    simp only [succeeds_option_mapM_iff, succeeds_field_iff]
  unfold checksumRule
  refine (succeeds_bind_iff_and fun _ _ => succeeds_bind_iff_and fun _ _ =>
    succeeds_bind_pure_iff).trans ?_
  rw [succeeds_header_iff, succeeds_field_iff, lengthWords, ChecksumDecl.resolves_iff]

end Program

/-! ## Tables -/

namespace TableStore

variable {d : Description} {L : Layout} {s : TableStore} {decl : TableDecl} {decls : List TableDecl}

theorem succeeds_tableOf_iff : Succeeds (tableOf d.layout decl) ↔ decl.Resolves d := by
  have keys : Succeeds (decl.keys.mapM (keyOf d.layout)) ↔
      ∀ key ∈ decl.keys, key.field ∈ d.fieldNames := by
    rw [succeeds_mapM_iff]
    refine forall₂_congr fun key _ => ?_
    unfold keyOf
    rw [succeeds_bind_pure_iff, Program.succeeds_field_iff]
  unfold tableOf
  refine (succeeds_bind_iff_and (P := ∀ action ∈ decl.defaultAction, action ∈ decl.actions)
    fun _ _ => ?_).trans ?_
  · dsimp only
    cases decl.defaultAction with
    | none => exact iff_of_true (succeeds_ok _) fun action absurd => by cases absurd
    | some action =>
      by_cases declared : action ∈ decl.actions
      · simp only [if_pos declared]
        refine iff_of_true (succeeds_ok _) fun other same => ?_
        obtain rfl := Option.mem_some.mp same
        exact declared
      · simp only [if_neg declared]
        exact iff_of_false (not_succeeds_error _) fun all => declared (all action rfl)
  · rw [TableDecl.resolves_iff]
    exact and_congr_left fun _ => keys

/-- Tables are declared one after another exactly where all names, those from before too, are distinct. -/
theorem succeeds_declareAll_iff (distinct : s.NamesDistinct) :
    Succeeds (decls.foldlM (declare L) s) ↔
      (∀ decl ∈ decls, Succeeds (tableOf L decl)) ∧
        (s.tables.map (·.name) ++ decls.map (·.name)).Nodup := by
  induction decls generalizing s with
  | nil =>
    rw [List.foldlM_nil, List.map_nil, List.append_nil]
    exact iff_of_true (succeeds_pure s) ⟨List.forall_mem_nil _, distinct⟩
  | cons decl decls ih =>
    rw [List.foldlM_cons, succeeds_bind_iff, List.forall_mem_cons, List.map_cons]
    constructor
    · rintro ⟨mid, first, rest⟩
      obtain ⟨others, names⟩ := (ih (distinct.declare first)).mp rest
      obtain ⟨t, made, fresh, rfl⟩ := declare_eq_ok_iff.mp first
      refine ⟨⟨⟨t, made⟩, others⟩, ?_⟩
      rw [List.map_append, List.map_singleton, (declares_of_tableOf made).name, List.append_assoc] at names
      exact names
    · rintro ⟨⟨⟨t, made⟩, others⟩, names⟩
      have fresh : decl.name ∉ s.tables.map (·.name) := by
        intro taken
        exact (List.nodup_append.mp names).2.2 _ taken _ List.mem_cons_self rfl
      have first : declare L s decl = .ok ⟨s.tables ++ [t]⟩ :=
        declare_eq_ok_iff.mpr ⟨t, made, fresh, rfl⟩
      refine ⟨_, first, (ih (distinct.declare first)).mpr ⟨others, ?_⟩⟩
      rw [List.map_append, List.map_singleton, (declares_of_tableOf made).name, List.append_assoc]
      exact names

theorem succeeds_ofDecls_iff :
    Succeeds (ofDecls d.layout d.tables) ↔ (∀ decl ∈ d.tables, decl.Resolves d) ∧ d.tableNames.Nodup := by
  have start : NamesDistinct ⟨[]⟩ := List.nodup_nil
  refine (succeeds_declareAll_iff start).trans ?_
  simp only [succeeds_tableOf_iff]
  rfl

end TableStore

namespace Program

variable {d : Description} {p : Program}

/-- The layout of a program is made of its headers. -/
theorem layout_eq_of_load (loaded : load d = .ok p) : p.layout = d.layout :=
  (Layout.ofHeaders_eq_ok_iff.mp (load_eq_ok_iff.mp loaded).layout).2

theorem succeeds_load_iff : Succeeds (load d) ↔ d.WellFormed := by
  have parser : Succeeds (d.parser.mapM (parseState d.layout d.parser)) ↔
      ∀ decl ∈ d.parser, decl.Resolves d := by
    simp only [succeeds_mapM_iff, succeeds_parseState_iff]
  have deparser : Succeeds (d.deparser.mapM d.layout.requireHeader) ↔
      ∀ header ∈ d.deparser, header ∈ d.headerNames := by
    simp only [succeeds_mapM_iff, succeeds_header_iff]
  have checksums : Succeeds (d.checksums.mapM (checksumRule d.layout)) ↔
      ∀ decl ∈ d.checksums, decl.Resolves d := by
    simp only [succeeds_mapM_iff, succeeds_checksumRule_iff]
  unfold load
  rw [succeeds_bind_iff_of_result fun L => Layout.ofHeaders_eq_ok_iff (L := L)]
  refine (and_congr_right fun _ => succeeds_bind_iff_and fun _ _ => succeeds_bind_iff_and fun _ _ =>
    succeeds_bind_iff_and fun _ _ => succeeds_bind_pure_iff).trans ?_
  rw [← Description.layout, parser, deparser, checksums, TableStore.succeeds_ofDecls_iff]
  constructor
  · rintro ⟨⟨widths, headers, fields⟩, parser, deparser, checksums, tables, tableNames⟩
    exact ⟨widths, headers, fields, parser, deparser, checksums, tables, tableNames⟩
  · rintro ⟨widths, headers, fields, parser, deparser, checksums, tables, tableNames⟩
    exact ⟨⟨widths, headers, fields⟩, parser, deparser, checksums, tables, tableNames⟩

end Program

/-! ## Pipelines -/

theorem StandardFields.succeeds_ofLayout_iff {L : Layout} :
    Succeeds (ofLayout L) ↔ ∀ name ∈ requiredNames, name ∈ L.fields.map (·.name) := by
  have required : ∀ name, Succeeds (require L name) ↔ name ∈ L.fields.map (·.name) :=
    fun name => succeeds_elim_iff.trans Layout.isSome_fieldId?_iff
  unfold ofLayout
  refine (succeeds_bind_iff_and fun _ _ => succeeds_bind_iff_and fun _ _ =>
    succeeds_bind_iff_and fun _ _ => succeeds_bind_iff_and fun _ _ => succeeds_bind_pure_iff).trans ?_
  simp only [required, requiredNames, List.forall_mem_cons, List.not_mem_nil, false_imp_iff, forall_const,
    and_true]

variable {d : Description} {p : Program} {controls : Controls} {config : PipelineConfig}
  {start : Numbering}

/-- A pipeline is made wherever its standard fields are found. -/
theorem Pipeline.new_succeeds_iff :
    (∃ pipeline after, Pipeline.new p controls config start = .ok pipeline after) ↔
      Succeeds (StandardFields.ofLayout p.layout) := by
  unfold Pipeline.new
  simp only [ofExcept_bind_eq_ok]
  constructor
  · rintro ⟨pipeline, after, fields, found, -⟩
    exact ⟨fields, found⟩
  · rintro ⟨fields, found⟩
    exact ⟨_, _, fields, found, rfl⟩

namespace Program

/-- A description loads exactly if it is well-formed, and a pipeline is made for what was loaded exactly if
the description declares the fields that every program must declare. -/
theorem load_iff_wellFormed (d : Description) :
    ((∃ p, load d = .ok p) ↔ d.WellFormed) ∧
      ∀ p, load d = .ok p → ∀ (controls : Controls) (config : PipelineConfig) (start : Numbering),
        (∃ pipeline after, Pipeline.new p controls config start = .ok pipeline after) ↔
          ∀ name ∈ StandardFields.requiredNames, name ∈ d.fieldNames := by
  refine ⟨succeeds_load_iff, fun p loaded controls config start => ?_⟩
  rw [Pipeline.new_succeeds_iff, StandardFields.succeeds_ofLayout_iff, layout_eq_of_load loaded,
    Description.layout, Layout.fieldNames_declared]
  rfl

/-- The description of the basic switch is well-formed, and a pipeline is made for its program. -/
theorem load_iff_wellFormed_basicSwitch :
    ∃ p, load BasicSwitch.description = .ok p ∧ BasicSwitch.description.WellFormed ∧
      ∃ pipeline after, Pipeline.new p Pipeline.hubControls .default .initial = .ok pipeline after := by
  have loaded := BasicSwitch.load_description
  obtain ⟨accepted, made⟩ := load_iff_wellFormed BasicSwitch.description
  have required : ∀ name ∈ StandardFields.requiredNames, name ∈ BasicSwitch.description.fieldNames := by
    decide +kernel
  exact ⟨_, loaded, accepted.mp ⟨_, loaded⟩, (made _ loaded _ _ _).mpr required⟩

end Program

end Switchyard
