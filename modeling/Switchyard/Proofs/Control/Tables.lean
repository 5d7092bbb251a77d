import Switchyard.Proofs.Control.Lookup
import Switchyard.Proofs.Program.Resolution

/-!
# The tables of a running program

Commands change the entries and the default calls of tables, and nothing else. So after any commands the
tables are still sound, and still have the names, the keys and the actions that the program declares. In
such tables every lookup has exactly one answer, which `Decides` says without a scan.
-/

namespace Switchyard

open Sequencing

namespace Table

/-- What a program declares of a table. -/
def schema (t : Table) : String × List TableKey × List String := (t.name, t.keys, t.actions)

/-- The call that is the answer for the values: that of the entry that is to answer, or else the default
call. -/
def Decides (t : Table) (L : Layout) (values : List Nat) (call : Option ActionCall) : Prop :=
  (∃ e, t.Answers L values e ∧ call = some e.call) ∨
    (∀ e ∈ t.entries, ¬t.Matches L values e) ∧ call = t.defaultCall

variable {L : Layout} {t : Table} {values : List Nat} {call : Option ActionCall}

theorem lookup_decides (sound : t.Sound L) (arity : values.length = t.keys.length) :
    t.Decides L values (t.lookup values) := by
  unfold lookup
  rcases sound.bestEntry?_answers arity with ⟨e, best, answers⟩ | ⟨none, missed⟩
  · rw [best]
    exact Or.inl ⟨e, answers, rfl⟩
  · rw [none]
    exact Or.inr ⟨missed, rfl⟩

/-- There is one answer only, and a lookup finds it. -/
theorem decides_iff (sound : t.Sound L) (arity : values.length = t.keys.length) :
    t.Decides L values call ↔ call = t.lookup values := by
  constructor
  · intro decides
    rcases decides, t.lookup_decides sound arity with
      ⟨⟨e, answers, rfl⟩ | ⟨missed, rfl⟩, ⟨other, found, same⟩ | ⟨none, same⟩⟩
    · rw [same, found.unique sound.descending answers]
    · exact absurd answers.matching (none e answers.mem)
    · exact absurd found.matching (missed other found.mem)
    · exact same.symm
  · rintro rfl
    exact t.lookup_decides sound arity

end Table

namespace TableStore

/-- What the program declares of its tables. -/
def schemas (s : TableStore) : List (String × List TableKey × List String) :=
  s.tables.map Table.schema

/-- The call that the named table has as the answer for the values. -/
def Decides (s : TableStore) (L : Layout) (name : String) (values : List Nat)
    (call : Option ActionCall) : Prop :=
  ∃ t, s.table? name = some t ∧ t.Decides L values call

variable {s : TableStore} {t : Table} {L : Layout} {name : String} {values : List Nat}
  {call : Option ActionCall} {declared : List (String × List TableKey × List String)}

/-- A declared table is there. -/
theorem table?_of_schemas {keys : List TableKey} {actions : List String}
    (schemas : s.schemas = declared)
    (found : declared.find? (·.1 == name) = some (name, keys, actions)) :
    ∃ t, s.table? name = some t ∧ t.keys = keys ∧ t.actions = actions := by
  rw [← schemas, TableStore.schemas, List.find?_map] at found
  obtain ⟨t, there, same⟩ := Option.map_eq_some_iff.mp found
  obtain ⟨-, rest⟩ := Prod.mk.inj same
  exact ⟨t, there, Prod.mk.inj rest⟩

theorem decides_iff (sound : s.AllSound L) (found : s.table? name = some t)
    (arity : values.length = t.keys.length) :
    s.Decides L name values call ↔ call = s.lookup name values := by
  rw [lookup, found, Option.bind_some, ← Table.decides_iff (sound.of_found found) arity]
  constructor
  · rintro ⟨other, there, decides⟩
    obtain rfl := Option.some.inj (found.symm.trans there)
    exact decides
  · intro decides
    exact ⟨t, found, decides⟩

/-! ## What operations keep -/

section Keeping

variable {action : String} {keys : List KeyMatch} {args : List Nat} {handle : Nat}

/-- Any table with that schema can be put in the place of the one that was declared. -/
theorem keeps_schemas_putTable (distinct : (declared.map (·.1)).Nodup) (member : t.schema ∈ declared) :
    Keeps (·.schemas = declared) (putTable t) := by
  refine keeps_modify fun s same => ?_
  subst same
  refine Eq.trans (List.map_map ..) (List.map_congr_left fun old present => ?_)
  by_cases named : old.name = t.name
  · have oldMember : old.schema ∈ s.schemas := List.mem_map_of_mem present
    simp only [Function.comp_apply, named, if_true]
    exact List.inj_on_of_nodup_map distinct member oldMember named.symm
  · simp only [Function.comp_apply, named, if_false]

theorem schema_mem (same : s.schemas = declared) (found : s.table? name = some t) :
    t.schema ∈ declared := by
  rw [← same]
  exact List.mem_map_of_mem (List.mem_of_find?_eq_some found)

theorem keeps_schemas (distinct : (declared.map (·.1)).Nodup) (op : Operation) :
    Keeps (·.schemas = declared) op.run := by
  have put {t t' : Table} {s : TableStore} {name : String} (same : s.schemas = declared)
      (found : s.table? name = some t) (schema : t'.schema = t.schema) :
      Keeps (·.schemas = declared) (putTable t') :=
    keeps_schemas_putTable distinct (schema ▸ schema_mem same found)
  cases op with
  | add name action keys args =>
    refine Keeps.map ((looksUp_requireTable name).keeps_bind fun t s same found => ?_) _
    refine keeps_ofExcept_bind fun _ _ => keeps_ofExcept_bind fun _ _ => ?_
    exact Keeps.bind (put same found rfl) fun _ => (looksOnly_pure _).keeps _
  | delete name handle =>
    refine Keeps.map ((looksUp_requireTable name).keeps_bind fun t s same found => ?_) _
    exact Keeps.bind (put same found rfl) fun _ => (looksOnly_ofExcept _).keeps _
  | modify name action handle args =>
    refine Keeps.map ((looksUp_requireTable name).keeps_bind fun t s same found => ?_) _
    exact keeps_ofExcept_bind fun _ _ => keeps_ofExcept_bind fun _ _ => put same found rfl
  | setDefault name action args =>
    refine Keeps.map ((looksUp_requireTable name).keeps_bind fun t s same found => ?_) _
    exact keeps_ofExcept_bind fun _ _ => put same found rfl
  | clear name =>
    refine Keeps.map ((looksUp_requireTable name).keeps_bind fun t s same found => ?_) _
    exact put same found rfl

end Keeping

end TableStore

namespace TableStore

variable {s : TableStore} {L : Layout}

/-- The keys of all tables read declared fields. -/
def KeysDeclared (L : Layout) (s : TableStore) : Prop :=
  ∀ t ∈ s.tables, ∀ key ∈ t.keys, key.field < L.fields.length

theorem keysDeclared_ofDecls {decls : List TableDecl} (made : ofDecls L decls = .ok s) :
    s.KeysDeclared L := by
  refine forall_of_ofDecls (fun decl t made => ?_) made
  intro key member
  obtain ⟨-, name, found⟩ := (declares_of_tableOf made).resolved key member
  exact Layout.requireField_lt found

/-- Which fields the keys read is part of what is declared. -/
theorem KeysDeclared.of_schemas {s' : TableStore} (keys : s.KeysDeclared L)
    (same : s'.schemas = s.schemas) : s'.KeysDeclared L := by
  intro t member
  have schema : t.schema ∈ s.schemas := same ▸ List.mem_map_of_mem member
  obtain ⟨old, oldMember, equal⟩ := List.mem_map.mp schema
  obtain ⟨-, rest⟩ := Prod.mk.inj equal
  obtain ⟨sameKeys, -⟩ := Prod.mk.inj rest
  exact sameKeys ▸ keys old oldMember

end TableStore

theorem Program.allSound_of_load {d : Description} {program : Program}
    (loaded : Program.load d = .ok program) : program.tables.AllSound program.layout :=
  TableStore.allSound_ofDecls (load_eq_ok_iff.mp loaded).tables

namespace ControlPlane

variable {P : TableStore → Prop} {program : Program} {plane : ControlPlane}

theorem keeps_onTables_of {α : Type} {op : TableM α} (kept : Keeps P op) :
    Keeps (fun plane => P plane.tables) (onTables op) :=
  (lifts_onTables op).keeps id (fun _ holds => holds) kept

/-- The multicast engine is no part of the tables. -/
theorem keeps_onMulticast_tables {α : Type} (op : MulticastM α) :
    Keeps (fun plane => P plane.tables) (onMulticast op) := by
  intro plane a after holds done
  obtain ⟨multicast, -, rfl⟩ := (lifts_onMulticast op).eq_ok.mp done
  exact holds

/-- What the operations on tables keep is kept by every command. -/
theorem keeps_run_tables (kept : ∀ op : TableStore.Operation, Keeps P op.run) (command : Command) :
    Keeps (fun plane => P plane.tables) (run command) := by
  have tables {op : TableM Unit} (kept : Keeps P ((fun _ => none) <$> op : TableM (Option Nat))) :
      Keeps (fun plane => P plane.tables) (run.silently (onTables op)) := by
    refine (keeps_onTables_of fun s a t holds done => ?_).bind fun _ => (looksOnly_pure _).keeps _
    exact kept holds (state_map_eq_ok.mpr ⟨a, done, rfl⟩)
  have multicast {op : MulticastM Unit} :
      Keeps (fun plane => P plane.tables) (run.silently (onMulticast op)) :=
    (keeps_onMulticast_tables op).bind fun _ => (looksOnly_pure _).keeps _
  cases command with
  | tableAdd table action keys args =>
    refine (keeps_onTables_of fun s a t holds done => ?_).map _
    exact kept (.add table action keys args) holds (state_map_eq_ok.mpr ⟨a, done, rfl⟩)
  | tableDelete table handle => exact tables (kept (.delete table handle))
  | tableModify table action handle args => exact tables (kept (.modify table action handle args))
  | tableSetDefault table action args => exact tables (kept (.setDefault table action args))
  | tableClear table => exact tables (kept (.clear table))
  | nodeCreate => exact (keeps_onMulticast_tables _).map _
  | groupCreate | groupDestroy | nodeUpdate | nodeDestroy | nodeAssociate | nodeDissociate =>
    exact multicast

/-- What holds of the tables that a program declares, and what operations keep, holds of the tables of
every plane that the program can come to. -/
theorem Reachable.tables {d : Description} (loaded : Program.load d = .ok program)
    (reached : Reachable program plane) (start : P program.tables)
    (kept : ∀ op : TableStore.Operation, Keeps P op.run) : P plane.tables := by
  induction reached with
  | loaded => exact start
  | done _ command done ih => exact keeps_run_tables kept command ih done
  | failed before command failed ih =>
    rw [run_atomic (before.distinct loaded) command failed]
    exact ih

theorem Reachable.allSound {d : Description} (loaded : Program.load d = .ok program)
    (reached : Reachable program plane) : plane.tables.AllSound program.layout :=
  reached.tables loaded (Program.allSound_of_load loaded) TableStore.allSound_run

/-- The tables are as the program declares them. -/
theorem Reachable.schemas {d : Description} (loaded : Program.load d = .ok program)
    (reached : Reachable program plane) : plane.tables.schemas = program.tables.schemas := by
  have distinct : (program.tables.schemas.map (·.1)).Nodup := by
    rw [TableStore.schemas, List.map_map]
    exact Program.namesDistinct_of_load loaded
  exact reached.tables (P := (·.schemas = program.tables.schemas)) loaded rfl
    (TableStore.keeps_schemas distinct)

/-- Whatever the commands, the keys of the tables read declared fields. -/
theorem Reachable.keysDeclared {d : Description} (loaded : Program.load d = .ok program)
    (reached : Reachable program plane) : plane.tables.KeysDeclared program.layout :=
  (TableStore.keysDeclared_ofDecls (Program.load_eq_ok_iff.mp loaded).tables).of_schemas (reached.schemas loaded)

end ControlPlane

end Switchyard
