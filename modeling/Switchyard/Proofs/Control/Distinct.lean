import Mathlib.Data.List.Nodup
import Switchyard.Control.Plane
import Switchyard.Proofs.Program.Layout

/-!
# Tables by name, groups by number

Tables are found by their names and multicast groups by their numbers. No command gives a name or a
number twice, so what was found and is put back unchanged changes nothing.
-/

namespace Switchyard

open Sequencing

section Keyed

variable {α κ : Type} [DecidableEq κ] {key : α → κ} {x : α} {xs : List α}

/-- Putting an element in the place of the one with its key leaves all keys. -/
theorem map_key_put (key : α → κ) (x : α) (xs : List α) :
    (xs.map fun y => if key y = key x then x else y).map key = xs.map key := by
  rw [List.map_map]
  refine List.map_congr_left fun y _ => ?_
  by_cases same : key y = key x <;> simp [same]

/-- Putting back an element that is there. -/
theorem map_putBack (distinct : (xs.map key).Nodup) (mem : x ∈ xs) :
    (xs.map fun y => if key y = key x then x else y) = xs := by
  rw [List.map_congr_left (g := id), List.map_id]
  intro y yMem
  by_cases same : key y = key x
  · rw [if_pos same, id]
    exact (List.inj_on_of_nodup_map distinct yMem mem same).symm
  · rw [if_neg same, id]

end Keyed

namespace TableStore

/-- No two tables share a name. -/
def NamesDistinct (s : TableStore) : Prop := (s.tables.map (·.name)).Nodup

variable {s : TableStore} {t : Table} {name : String}

/-- Putting back the table that was found. -/
theorem putTable_found (distinct : s.NamesDistinct) (found : s.table? name = some t) :
    putTable t s = .ok () s := by
  have same := map_putBack distinct (List.mem_of_find?_eq_some found)
  show EStateM.Result.ok () { s with tables := s.tables.map _ } = _
  rw [same]

theorem looksUp_requireTable (name : String) :
    LooksUp (·.table? name) (.unknownTable name) (requireTable name) :=
  .of_get (fun _ _ there => by simp only [there]) fun _ there => by simp only [there]

theorem keeps_putTable (t : Table) : Keeps NamesDistinct (putTable t) := by
  refine keeps_modify fun s distinct => ?_
  show (List.map Table.name (s.tables.map fun old => if old.name = t.name then t else old)).Nodup
  rw [map_key_put]
  exact distinct

variable {action : String} {keys : List KeyMatch} {args : List Nat} {handle : Nat}

theorem keeps_add : Keeps NamesDistinct (add name action keys args) := by
  refine ((looksUp_requireTable name).keeps _).bind fun t => ?_
  refine ((looksOnly_ofExcept _).keeps _).bind fun _ => ?_
  refine ((looksOnly_ofExcept _).keeps _).bind fun _ => ?_
  exact (keeps_putTable _).bind fun _ => (looksOnly_pure _).keeps _

theorem keeps_delete : Keeps NamesDistinct (delete name handle) := by
  refine ((looksUp_requireTable name).keeps _).bind fun t => ?_
  exact (keeps_putTable _).bind fun _ => (looksOnly_ofExcept _).keeps _

theorem keeps_modifyEntry : Keeps NamesDistinct (modifyEntry name handle action args) := by
  refine ((looksUp_requireTable name).keeps _).bind fun t => ?_
  refine ((looksOnly_ofExcept _).keeps _).bind fun _ => ?_
  exact ((looksOnly_ofExcept _).keeps _).bind fun _ => keeps_putTable _

theorem keeps_setDefault : Keeps NamesDistinct (setDefault name action args) := by
  refine ((looksUp_requireTable name).keeps _).bind fun t => ?_
  exact ((looksOnly_ofExcept _).keeps _).bind fun _ => keeps_putTable _

theorem keeps_clear : Keeps NamesDistinct (clear name) :=
  ((looksUp_requireTable name).keeps _).bind fun _ => keeps_putTable _

/-! ### The tables of a program -/

variable {L : Layout} {decl : TableDecl} {decls : List TableDecl} {s' : TableStore}

/-- A key as it is resolved. -/
def keyOf (L : Layout) (key : KeyDecl) : Except Error TableKey := do
  let id ← L.requireField key.field
  return { field := id, width := L.width id, kind := key.kind }

/-- The table is the one that is declared, as it is at first. -/
structure Declares (L : Layout) (decl : TableDecl) (t : Table) : Prop where
  name : t.name = decl.name
  keys : decl.keys.mapM (keyOf L) = .ok t.keys
  actions : t.actions = decl.actions
  entries : t.entries = []
  nextHandle : t.nextHandle = 0
  defaultCall : ∀ call ∈ t.defaultCall, call.action ∈ decl.actions

theorem declares_of_tableOf (made : tableOf L decl = .ok t) : Declares L decl t := by
  obtain ⟨keys, resolved, made⟩ := bind_eq_ok.mp made
  dsimp only at made
  split at made
  case h_1 =>
    cases made
    exact ⟨rfl, resolved, rfl, rfl, rfl, fun call absurd => by cases absurd⟩
  case h_2 action _ =>
    split at made
    case isTrue declared =>
      cases made
      refine ⟨rfl, resolved, rfl, rfl, rfl, fun call called => ?_⟩
      rw [← Option.some.inj called]
      exact declared
    case isFalse => cases made

/-- What declaring one more table does. -/
theorem declare_eq_ok_iff :
    declare L s decl = .ok s' ↔
      ∃ t, tableOf L decl = .ok t ∧ decl.name ∉ s.tables.map (·.name) ∧ s' = ⟨s.tables ++ [t]⟩ := by
  unfold declare
  rw [bind_eq_ok]
  refine exists_congr fun t => and_congr_right fun _ => ?_
  have known : (s.table? decl.name).isSome ↔ decl.name ∈ s.tables.map (·.name) := by
    simp [table?]
  by_cases taken : (s.table? decl.name).isSome
  · rw [if_pos taken]
    refine iff_of_false (fun absurd => by cases absurd) ?_
    rintro ⟨fresh, -⟩
    exact fresh (known.mp taken)
  · rw [if_neg taken]
    constructor
    · intro done
      exact ⟨fun there => taken (known.mpr there), (Except.ok.inj done).symm⟩
    · rintro ⟨-, rfl⟩
      rfl

theorem NamesDistinct.declare (distinct : s.NamesDistinct) (declared : declare L s decl = .ok s') :
    s'.NamesDistinct := by
  obtain ⟨t, made, fresh, rfl⟩ := declare_eq_ok_iff.mp declared
  show (List.map _ (s.tables ++ [t])).Nodup
  rw [List.map_append, List.map_singleton, (declares_of_tableOf made).name,
    List.nodup_append]
  refine ⟨distinct, List.nodup_singleton _, fun n mem m single => ?_⟩
  rw [List.mem_singleton.mp single]
  exact fun same => fresh (same ▸ mem)

theorem NamesDistinct.declareAll (distinct : s.NamesDistinct)
    (declared : decls.foldlM (TableStore.declare L) s = .ok s') : s'.NamesDistinct := by
  induction decls generalizing s with
  | nil =>
    cases declared
    exact distinct
  | cons decl decls ih =>
    rw [List.foldlM_cons] at declared
    obtain ⟨mid, first, rest⟩ := bind_eq_ok.mp declared
    exact ih (distinct.declare first) rest

theorem namesDistinct_ofDecls (made : ofDecls L decls = .ok s) : s.NamesDistinct := by
  have none : NamesDistinct ⟨[]⟩ := List.nodup_nil
  exact none.declareAll made

end TableStore

theorem Program.namesDistinct_of_load {d : Description} {program : Program}
    (loaded : load d = .ok program) : program.tables.NamesDistinct :=
  TableStore.namesDistinct_ofDecls (load_eq_ok_iff.mp loaded).tables

namespace Multicast

/-- No two groups share a number. -/
def GroupsDistinct (m : Multicast) : Prop := (m.groups.map (·.1)).Nodup

variable {m : Multicast} {group handle : Nat} {members : List Nat}

theorem members?_eq_none : m.members? group = none ↔ group ∉ m.groups.map (·.1) := by
  rw [members?, List.lookup_eq_none_iff, List.mem_map]
  constructor
  · rintro missing ⟨g, mem, same⟩
    exact bne_iff_ne.mp (missing g mem) same.symm
  · intro missing g mem
    exact bne_iff_ne.mpr fun same => missing ⟨g, mem, same.symm⟩

theorem mem_of_members? (found : m.members? group = some members) :
    (group, members) ∈ m.groups := by
  obtain ⟨before, after, split, -⟩ := List.lookup_eq_some_iff.mp found
  rw [split]
  exact List.mem_append_right _ List.mem_cons_self

/-- Putting back the members that were found. -/
theorem putMembers_found (distinct : m.GroupsDistinct) (found : m.members? group = some members) :
    putMembers group members m = .ok () m := by
  have same := map_putBack distinct (mem_of_members? found)
  show EStateM.Result.ok () { m with groups := m.groups.map _ } = _
  rw [same]

theorem looksUp_requireGroup (group : Nat) :
    LooksUp (·.members? group) (.unknownGroup group) (requireGroup group) :=
  .of_get (fun _ _ there => by simp only [there]) fun _ there => by simp only [there]

theorem looksUp_requireNode (handle : Nat) :
    LooksUp (·.node? handle) (.unknownNode handle) (requireNode handle) :=
  .of_get (fun _ _ there => by simp only [there]) fun _ there => by simp only [there]

theorem keeps_putMembers (group : Nat) (members : List Nat) :
    Keeps GroupsDistinct (putMembers group members) := by
  refine keeps_modify fun m distinct => ?_
  show (List.map Prod.fst (m.groups.map fun g => if g.1 = group then (group, members) else g)).Nodup
  rw [map_key_put Prod.fst (group, members)]
  exact distinct

variable {rid : Nat} {ports : List Nat}

theorem keeps_createGroup : Keeps GroupsDistinct (createGroup group) := by
  intro m a m' distinct done
  have rest := get_bind_eq_ok.mp done
  by_cases taken : (m.members? group).isSome
  · rw [if_pos taken] at rest
    cases rest
  · rw [if_neg taken] at rest
    obtain rfl := modify_eq_ok.mp rest
    have fresh : m.members? group = none := by simpa using taken
    exact List.nodup_cons.mpr ⟨members?_eq_none.mp fresh, distinct⟩

theorem keeps_destroyGroup : Keeps GroupsDistinct (destroyGroup group) := by
  refine (looksOnly_get.keeps _).bind fun seen => ?_
  refine (keeps_modify fun m distinct => ?_).bind fun _ => ?_
  · exact distinct.sublist (List.filter_sublist.map _)
  · split
    · exact (looksOnly_throw _).keeps _
    · exact (looksOnly_pure _).keeps _

theorem keeps_createNode : Keeps GroupsDistinct (createNode rid ports) := by
  refine (looksOnly_get.keeps _).bind fun seen => ?_
  refine (keeps_modify ?_).bind fun _ => (looksOnly_pure _).keeps _
  exact fun _ distinct => distinct

theorem keeps_updateNode : Keeps GroupsDistinct (updateNode handle ports) :=
  ((looksUp_requireNode handle).keeps _).bind fun _ => keeps_modify fun _ distinct => distinct

theorem keeps_destroyNode : Keeps GroupsDistinct (destroyNode handle) := by
  refine (looksOnly_get.keeps _).bind fun seen => ?_
  refine (keeps_modify ?_).bind fun _ => ?_
  · exact fun _ distinct => distinct
  have leave : Keeps GroupsDistinct (modify fun m : Multicast =>
      { m with groups := m.groups.map fun g => (g.1, g.2.filter (· != handle)) } : MulticastM Unit) :=
    keeps_modify fun m distinct => by
      show (List.map Prod.fst (m.groups.map _)).Nodup
      rw [List.map_map]
      exact distinct
  split
  · exact ((looksOnly_throw _).keeps _).bind fun _ => leave
  · exact leave

theorem keeps_associate : Keeps GroupsDistinct (associate group handle) := by
  refine ((looksUp_requireNode handle).keeps _).bind fun _ => ?_
  refine ((looksUp_requireGroup group).keeps _).bind fun members => ?_
  split
  · exact (looksOnly_throw _).keeps _
  · exact keeps_putMembers group _

theorem keeps_dissociate : Keeps GroupsDistinct (dissociate group handle) := by
  refine ((looksUp_requireGroup group).keeps _).bind fun members => ?_
  refine (keeps_putMembers group _).bind fun _ => ?_
  split
  · exact (looksOnly_throw _).keeps _
  · exact (looksOnly_pure _).keeps _

end Multicast

end Switchyard
