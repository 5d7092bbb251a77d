import Mathlib.Logic.Relation
import Switchyard.Proofs.Control.Entries
import Switchyard.Proofs.Control.Readback
import Switchyard.Proofs.Control.Replication

/-!
# What commands make, other commands unmake

An entry that is added and deleted again, a group or a node that is created and destroyed again, a node that
joins a group and leaves it again: all tables and all groups answer then as they did before. The planes need not
be the same, because handles are not given back.
-/

namespace Switchyard

open Sequencing Text

/-- What a command does, to the tables or to the multicast engine. -/
def Command.operation : Command → TableStore.Operation ⊕ Multicast.Operation
  | .tableAdd table action keys args => .inl (.add table action keys args)
  | .tableDelete table handle => .inl (.delete table handle)
  | .tableModify table action handle args => .inl (.modify table action handle args)
  | .tableSetDefault table action args => .inl (.setDefault table action args)
  | .tableClear table => .inl (.clear table)
  | .groupCreate group => .inr (.createGroup group)
  | .groupDestroy group => .inr (.destroyGroup group)
  | .nodeCreate rid ports => .inr (.createNode rid ports)
  | .nodeUpdate handle ports => .inr (.updateNode handle ports)
  | .nodeDestroy handle => .inr (.destroyNode handle)
  | .nodeAssociate group handle => .inr (.associate group handle)
  | .nodeDissociate group handle => .inr (.dissociate group handle)

/-! ## Tables -/

namespace TableStore

variable {s s' : TableStore} {t t' : Table} {name action : String} {keys : List KeyMatch} {args : List Nat}
  {made : Option Nat} {L : Layout} {handle : Nat}

/-- The table that was put back is found. -/
theorem table?_withTable_self (found : s.table? name = some t) (named : t'.name = name) :
    (s.withTable t').table? name = some t' := by
  rw [table?_withTable, found, Option.map_some, if_pos ((name_of_found found).trans named.symm)]

/-- Other tables in the place of one, until one that answers like it. -/
theorem lookup_withTable_withTable {t'' : Table} (found : s.table? name = some t) (named : t'.name = name)
    (namedAgain : t''.name = name) (alike : ∀ values, t''.lookup values = t.lookup values) (other : String)
    (values : List Nat) : ((s.withTable t').withTable t'').lookup other values = s.lookup other values := by
  unfold lookup
  by_cases same : other = name
  · rw [same, table?_withTable_self (table?_withTable_self found named) namedAgain, found]
    exact alike values
  · rw [table?_withTable_of_ne (by rwa [namedAgain]), table?_withTable_of_ne (by rwa [named])]

/-- An entry that is there can be deleted. -/
theorem run_delete_of_entry (found : s.table? name = some t) (there : t.requireEntry handle = .ok ()) :
    (Operation.delete name handle).run s =
      .ok none (s.withTable { t with entries := t.entries.filter (·.handle != handle) }) := by
  refine state_map_eq_ok.mpr ⟨(), (looksUp_requireTable name).bind_eq_ok.mpr ⟨t, found, ?_⟩, rfl⟩
  exact state_bind_eq_ok.mpr ⟨(), _, modify_eq_ok.mpr rfl, ofExcept_eq_ok.mpr ⟨there, rfl⟩⟩

/-- A new entry can be deleted, and without it all tables answer as before. Its handle is not given back. -/
theorem delete_added (sound : s.AllSound L) (added : (Operation.add name action keys args).run s = .ok made s') :
    ∃ t back, s.table? name = some t ∧ made = some t.nextHandle ∧
      (Operation.delete name t.nextHandle).run s' = .ok none back ∧
      ∀ other values, back.lookup other values = s.lookup other values := by
  obtain ⟨t, t', found, changes, rfl⟩ := changes_of_run added
  have named : t'.name = name := changes.name.trans (name_of_found found)
  have there := table?_withTable_self found named
  cases changes with
  | add declared accepted =>
    -- older entries have other handles
    have older : t.entries.filter (·.handle != t.nextHandle) = t.entries := by
      refine List.filter_eq_self.mpr fun e member => ?_
      have below := (sound.of_found found).fresh e member
      simpa using Nat.ne_of_lt below
    refine ⟨t, _, found, rfl, run_delete_of_entry there (if_pos (by simp)), ?_⟩
    refine lookup_withTable_withTable found rfl rfl fun values => ?_
    unfold Table.lookup Table.bestEntry?
    rw [List.filter_cons_of_neg (by simp), older]
    rfl

end TableStore

/-! ## Groups and nodes -/

namespace Multicast

variable {m after joined : Multicast} {group handle rid : Nat} {ports members : List Nat} {made : Option Nat}
  {log : List (Operation × Option Nat)} {node : MulticastNode}

/-- Engines with the same members and the same nodes make the same copies. -/
theorem replicate_congr (members : ∀ group, after.membersOf group = m.membersOf group)
    (nodes : ∀ handle, after.node? handle = m.node? handle) (group : Nat) :
    after.replicate group = m.replicate group := by
  show (after.membersOf group).flatMap _ = (m.membersOf group).flatMap _
  rw [members]
  simp only [nodes]

/-- A group that is there can be destroyed. -/
theorem run_destroyGroup_of_members (known : m.members? group = some members) :
    (Operation.destroyGroup group).run m = .ok none { m with groups := m.groups.filter (·.1 != group) } := by
  refine state_map_eq_ok.mpr ⟨(), state_bind_eq_ok.mpr ⟨m, m, rfl, ?_⟩, rfl⟩
  refine state_bind_eq_ok.mpr ⟨(), _, modify_eq_ok.mpr rfl, ?_⟩
  rw [known]
  rfl

/-- A node that is there can be destroyed. -/
theorem run_destroyNode_of_node (there : m.node? handle = some node) :
    (Operation.destroyNode handle).run m = .ok none { m with
      groups := m.groups.map fun g => (g.1, g.2.filter (· != handle))
      nodes := m.nodes.filter (·.1 != handle) } := by
  refine state_map_eq_ok.mpr ⟨(), state_bind_eq_ok.mpr ⟨m, m, rfl, ?_⟩, rfl⟩
  refine state_bind_eq_ok.mpr ⟨(), _, modify_eq_ok.mpr rfl, ?_⟩
  rw [there]
  rfl

/-- A member can leave its group. -/
theorem run_dissociate_of_member (known : m.members? group = some members) (member : handle ∈ members) :
    (Operation.dissociate group handle).run m =
      .ok none (m.withMembers group (members.filter (· != handle))) := by
  refine state_map_eq_ok.mpr ⟨(), (looksUp_requireGroup group).bind_eq_ok.mpr ⟨members, known, ?_⟩, rfl⟩
  refine state_bind_eq_ok.mpr ⟨(), _, modify_eq_ok.mpr rfl, ?_⟩
  have fewer : (members.filter (· != handle)).length < members.length :=
    List.length_filter_lt_length_iff_exists.mpr ⟨handle, member, by simp⟩
  rw [if_neg (Nat.ne_of_lt fewer)]
  rfl

/-- A group that is created and destroyed again. -/
theorem destroy_created_group (created : (Operation.createGroup group).run m = .ok made after) :
    ∃ back, (Operation.destroyGroup group).run after = .ok none back ∧
      ∀ other, back.replicate other = m.replicate other := by
  have does := does_of_run created
  have known : after.members? group = some [] ∧ m.membersOf group = [] := by
    cases does with
    | createGroup fresh =>
      exact ⟨List.lookup_cons_self, by rw [membersOf, fresh, Option.getD_none]⟩
  have destroyed := run_destroyGroup_of_members known.1
  have undoes := does_of_run destroyed
  refine ⟨_, destroyed, replicate_congr (fun other => ?_) fun handle => ?_⟩
  · rw [membersOf_does undoes, membersOf_does does]
    by_cases same : group = other
    · simp [← same, known.2, Operation.ends, Operation.joins?]
    · simp [same, Operation.ends, Operation.joins?]
  · rw [node?_does undoes, node?_does does]

/-- A node that joins a group and leaves it again. -/
theorem dissociate_associated (associated : (Operation.associate group handle).run m = .ok made after) :
    ∃ back, (Operation.dissociate group handle).run after = .ok none back ∧
      ∀ other, back.replicate other = m.replicate other := by
  have does := does_of_run associated
  have known : ∃ members, after.members? group = some (members ++ [handle]) ∧ m.membersOf group = members ∧
      handle ∉ members := by
    cases does with
    | @associate _ _ members there known new =>
      refine ⟨members, ?_, by rw [membersOf, known, Option.getD_some], new⟩
      rw [members?_withMembers, if_pos rfl, known, Option.map_some]
  obtain ⟨members, known, before, new⟩ := known
  have left := run_dissociate_of_member known (List.mem_append_right _ List.mem_cons_self)
  have undoes := does_of_run left
  refine ⟨_, left, replicate_congr (fun other => ?_) fun handle => ?_⟩
  · rw [membersOf_does undoes, membersOf_does does]
    by_cases same : group = other
    · have stay : members.filter (fun member => !decide (handle = member)) = members := by
        refine List.filter_eq_self.mpr fun member inside => ?_
        have apart : handle ≠ member := fun same => new (same ▸ inside)
        simpa using apart
      simp [← same, before, stay, Operation.ends, Operation.joins?]
    · simp [same, Operation.ends, Operation.joins?]
  · rw [node?_does undoes, node?_does does]

/-- A node that is there has a handle that was given out. -/
theorem Recorded.lt_nextNode (recorded : Recorded log m) (there : (m.node? handle).isSome = true) :
    handle < m.nextNode := by
  obtain ⟨node, found⟩ := Option.isSome_iff_exists.mp there
  obtain ⟨ports, created⟩ := (recorded.nodes handle node found).created
  have given : handle ∈ log.filterMap (·.2) := List.mem_filterMap.mpr ⟨_, created, rfl⟩
  rwa [recorded.handles, List.mem_range] at given

/-- The engine has one more node, which may be a member of groups; all else is as before. -/
structure Gained (m : Multicast) (handle : Nat) (joined : Multicast) : Prop where
  members : ∀ group, (joined.membersOf group).filter (· != handle) = m.membersOf group
  others : ∀ other, other ≠ handle → joined.node? other = m.node? other
  there : (joined.node? handle).isSome = true
  absent : m.node? handle = none

theorem Recorded.gained (recorded : Recorded log m)
    (created : (Operation.createNode rid ports).run m = .ok made after) :
    made = some m.nextNode ∧ Gained m m.nextNode after := by
  have does := does_of_run created
  have answers : made = some m.nextNode := by
    cases does with
    | createNode => rfl
  refine ⟨answers, fun group => ?_, fun other apart => ?_, ?_, ?_⟩
  · rw [membersOf_does does]
    -- members are older nodes
    have older : (m.membersOf group).filter (· != m.nextNode) = m.membersOf group := by
      refine List.filter_eq_self.mpr fun member inside => ?_
      simpa using Nat.ne_of_lt (recorded.lt_nextNode (recorded.present group member inside))
    simpa [Operation.ends, Operation.joins?] using older
  · rw [node?_does does]
    exact if_neg apart
  · rw [node?_does does]
    exact congrArg Option.isSome (if_pos rfl)
  · rw [← Option.not_isSome_iff_eq_none]
    exact fun taken => Nat.lt_irrefl _ (recorded.lt_nextNode taken)

/-- The new node joins a group. -/
theorem Gained.associate (gained : Gained m handle joined)
    (associated : (Operation.associate group handle).run joined = .ok made after) : Gained m handle after := by
  have does := does_of_run associated
  refine ⟨fun other => ?_, fun other apart => ?_, ?_, gained.absent⟩
  · rw [membersOf_does does, ← gained.members other]
    by_cases same : group = other
    · simp [same, Operation.ends, Operation.joins?]
    · simp [same, Operation.ends, Operation.joins?]
  · rw [node?_does does]
    exact gained.others other apart
  · rw [node?_does does]
    exact gained.there

/-- Without the new node all groups make the same copies as before. -/
theorem Gained.destroy (gained : Gained m handle joined) :
    ∃ back, (Operation.destroyNode handle).run joined = .ok none back ∧
      ∀ group, back.replicate group = m.replicate group := by
  obtain ⟨node, there⟩ := Option.isSome_iff_exists.mp gained.there
  have destroyed := run_destroyNode_of_node there
  have does := does_of_run destroyed
  refine ⟨_, destroyed, replicate_congr (fun group => ?_) fun other => ?_⟩
  · rw [membersOf_does does, ← gained.members group]
    simp [Operation.ends, Operation.joins?, bne, beq_eq_decide, eq_comm]
  · rw [node?_does does]
    by_cases same : other = handle
    · rw [same, gained.absent]
      exact if_pos rfl
    · rw [← gained.others other same]
      exact if_neg same

end Multicast

namespace ControlPlane

variable {plane after : ControlPlane} {command : Command} {made : Option Nat}

theorem run_eq (command : Command) : run command = match command.operation with
    | .inl op => onTables op.run
    | .inr op => onMulticast op.run := by
  have tables {α : Type} (g : α → Option Nat) (op : TableM α) : g <$> onTables op = onTables (g <$> op) :=
    ((lifts_onTables op).map g).unique (lifts_onTables _)
  have multicast {α : Type} (g : α → Option Nat) (op : MulticastM α) :
      g <$> onMulticast op = onMulticast (g <$> op) :=
    ((lifts_onMulticast op).map g).unique (lifts_onMulticast _)
  cases command with
  | tableAdd => exact tables _ _
  | tableDelete | tableModify | tableSetDefault | tableClear => exact tables (fun _ => none) _
  | nodeCreate => exact multicast _ _
  | groupCreate | groupDestroy | nodeUpdate | nodeDestroy | nodeAssociate | nodeDissociate =>
    exact multicast (fun _ => none) _

theorem run_of_tables {op : TableStore.Operation} (acts : command.operation = .inl op) :
    run command plane = .ok made after ↔
      ∃ tables, op.run plane.tables = .ok made tables ∧ after = { plane with tables := tables } := by
  rw [run_eq, acts]
  exact (lifts_onTables op.run).eq_ok

theorem run_of_multicast {op : Multicast.Operation} (acts : command.operation = .inr op) :
    run command plane = .ok made after ↔
      ∃ multicast, op.run plane.multicast = .ok made multicast ∧
        after = { plane with multicast := multicast } := by
  rw [run_eq, acts]
  exact (lifts_onMulticast op.run).eq_ok

/-- The multicast engine of a plane has a log. -/
theorem Reachable.recorded {d : Description} {program : Program} (loaded : Program.load d = .ok program)
    (reached : Reachable program plane) : ∃ log, Multicast.Recorded log plane.multicast := by
  induction reached with
  | loaded => exact ⟨[], .empty⟩
  | @done plane after made _ command done ih =>
    obtain ⟨log, recorded⟩ := ih
    cases acts : command.operation with
    | inl op =>
      obtain ⟨tables, -, rfl⟩ := (run_of_tables acts).mp done
      exact ⟨log, recorded⟩
    | inr op =>
      obtain ⟨multicast, ran, rfl⟩ := (run_of_multicast acts).mp done
      exact ⟨_, recorded.does (Multicast.does_of_run ran)⟩
  | failed before command failed ih =>
    rw [run_atomic (before.distinct loaded) command failed]
    exact ih

/-- The handles that are given out next, and those after them, are numbers of 32 bits. -/
structure Narrow (plane : ControlPlane) : Prop where
  entries : ∀ t ∈ plane.tables.tables, t.nextHandle < UInt32.size - 1
  nodes : plane.multicast.nextNode < UInt32.size - 1

/-- All tables and all groups answer alike. -/
structure AnswersLike (plane other : ControlPlane) : Prop where
  lookup : ∀ name values, plane.tables.lookup name values = other.tables.lookup name values
  replicate : ∀ group, plane.multicast.replicate group = other.multicast.replicate group

/-- The line of these words succeeds, and what it leaves answers like the plane. -/
def Restores (words : List String) (after plane : ControlPlane) : Prop :=
  ∃ back, runLine (commandRow words) after = .ok none back ∧ back.AnswersLike plane

/-- On some line the node is associated with some group, and that succeeds. -/
def Joins (handle : Nat) (plane after : ControlPlane) : Prop :=
  ∃ line group made, Command.ofLine line = .ok (.nodeAssociate group handle) ∧
    runLine line plane = .ok made after

/-- A line of words that changes only the tables. -/
theorem restores_of_tables {words : List String} {op : TableStore.Operation} {tables : TableStore}
    (written : Command.Written (Numeral.Spells 10) words command) (acts : command.operation = .inl op)
    (done : op.run after.tables = .ok none tables) (same : after.multicast = plane.multicast)
    (alike : ∀ name values, tables.lookup name values = plane.tables.lookup name values) :
    Restores words after plane := by
  refine ⟨_, runLine_of_written written ((run_of_tables acts).mpr ⟨tables, done, rfl⟩), alike, fun group => ?_⟩
  rw [← same]

/-- A line of words that changes only groups and nodes. -/
theorem restores_of_multicast {words : List String} {op : Multicast.Operation} {multicast : Multicast}
    (written : Command.Written (Numeral.Spells 10) words command) (acts : command.operation = .inr op)
    (done : op.run after.multicast = .ok none multicast) (same : after.tables = plane.tables)
    (alike : ∀ group, multicast.replicate group = plane.multicast.replicate group) :
    Restores words after plane := by
  refine ⟨_, runLine_of_written written ((run_of_multicast acts).mpr ⟨multicast, done, rfl⟩), fun name values => ?_,
    alike⟩
  rw [← same]

/-- A new node has joined groups, and nothing else has changed. -/
theorem gained_of_joins {handle : Nat} {start joined : ControlPlane}
    (joins : Relation.ReflTransGen (Joins handle) start joined)
    (gained : plane.multicast.Gained handle start.multicast) (same : start.tables = plane.tables) :
    plane.multicast.Gained handle joined.multicast ∧ joined.tables = plane.tables := by
  induction joins with
  | refl => exact ⟨gained, same⟩
  | tail _ last ih =>
    obtain ⟨line, group, made, read, done⟩ := last
    rw [runLine_of_read read] at done
    obtain ⟨multicast, associated, rfl⟩ := (run_of_multicast rfl).mp done
    exact ⟨ih.1.associate associated, ih.2⟩

/-- What was made is unmade by the line that says so. In a plane that a program can come to, whose handles are not
used up: an entry that was added has a handle, under which it is deleted again; a node that was created has a
handle, under which it is destroyed again after it has joined whatever groups; a group that was created is
destroyed again; and a node that was associated with a group is dissociated from it again. Each time that
succeeds, and then all tables and all groups answer as before. -/
theorem creations_are_undone {d : Description} {program : Program} (loaded : Program.load d = .ok program)
    (reached : Reachable program plane) (narrow : plane.Narrow) :
    (∀ line table action keys args made after,
      Command.ofLine line = .ok (.tableAdd table action keys args) → runLine line plane = .ok made after →
      ∃ handle, made = some handle ∧ Restores ["table_delete", table, toString handle] after plane) ∧
    (∀ line rid ports made after,
      Command.ofLine line = .ok (.nodeCreate rid ports) → runLine line plane = .ok made after →
      ∃ handle, made = some handle ∧ ∀ joined, Relation.ReflTransGen (Joins handle) after joined →
        Restores ["mc_node_destroy", toString handle] joined plane) ∧
    (∀ line group made after,
      Command.ofLine line = .ok (.groupCreate group) → runLine line plane = .ok made after →
      Restores ["mc_mgrp_destroy", toString group] after plane) ∧
    ∀ line group handle made after,
      Command.ofLine line = .ok (.nodeAssociate group handle) → runLine line plane = .ok made after →
      Restores ["mc_node_dissociate", toString group, toString handle] after plane := by
  have number {n : Nat} (below : n < UInt32.size) : Operand UInt32.size (toString n) n :=
    operand_toString below (by decide)
  refine ⟨fun line table action keys args made after read done => ?entry,
    fun line rid ports made after read done => ?node, fun line group made after read done => ?group,
    fun line group handle made after read done => ?member⟩ <;> rw [runLine_of_read read] at done
  case entry =>
    obtain ⟨tables, added, rfl⟩ := (run_of_tables rfl).mp done
    obtain ⟨t, back, found, rfl, deleted, alike⟩ := TableStore.delete_added (reached.allSound loaded) added
    have below := narrow.entries t (List.mem_of_find?_eq_some found)
    obtain ⟨⟨tableName, -⟩, -⟩ := Command.writable_of_ofLine read
    exact ⟨t.nextHandle, rfl, restores_of_tables (.tableDelete tableName (number (by omega))) rfl deleted rfl alike⟩
  case node =>
    obtain ⟨log, recorded⟩ := reached.recorded loaded
    obtain ⟨multicast, created, rfl⟩ := (run_of_multicast rfl).mp done
    obtain ⟨rfl, gained⟩ := recorded.gained created
    have below := narrow.nodes
    refine ⟨plane.multicast.nextNode, rfl, fun joined joins => ?_⟩
    obtain ⟨gained, same⟩ := gained_of_joins joins gained rfl
    obtain ⟨back, destroyed, alike⟩ := gained.destroy
    exact restores_of_multicast (.nodeDestroy (number (by omega))) rfl destroyed same alike
  case group =>
    obtain ⟨multicast, created, rfl⟩ := (run_of_multicast rfl).mp done
    obtain ⟨back, destroyed, alike⟩ := Multicast.destroy_created_group created
    have below : group < UInt32.size := Command.writable_of_ofLine read
    exact restores_of_multicast (.groupDestroy (number below)) rfl destroyed rfl alike
  case member =>
    obtain ⟨multicast, associated, rfl⟩ := (run_of_multicast rfl).mp done
    obtain ⟨back, left, alike⟩ := Multicast.dissociate_associated associated
    obtain ⟨groupBelow, handleBelow⟩ := Command.writable_of_ofLine read
    exact restores_of_multicast (.nodeDissociate (number groupBelow) (number handleBelow)) rfl left rfl alike

/-- A program with one table of prefixes. -/
def uplinks : Description where
  name := some "uplinks"
  headers := [⟨"ipv4", false, [⟨"dst", 32⟩]⟩]
  parser := []
  deparser := []
  tables := [⟨"routes", [⟨"ipv4.dst", .lpm⟩], ["forward"], none⟩]
  checksums := []

/-- The table has a prefix, and a node is in one of two groups. -/
def uplinksPlane : ControlPlane where
  tables := ⟨[⟨"routes", [⟨0, 32, .lpm⟩], ["forward"], [⟨0, [.lpm 0x0a000000 8], ⟨"forward", [1]⟩⟩], 1, none⟩]⟩
  multicast := ⟨[(4, []), (3, [0])], [(0, ⟨5, [1]⟩)], 1⟩

/-- A longer prefix answers in the meantime, and a new node sends copies for two groups. -/
theorem creations_are_undone_uplinks :
    ∃ program, Program.load uplinks = .ok program ∧ Reachable program uplinksPlane ∧ uplinksPlane.Narrow ∧
      (∃ after, runLine "table_add routes forward 10.1.0.0/16 => 2" uplinksPlane = .ok (some 1) after ∧
        after.tables.lookup "routes" [0x0a010203] = some ⟨"forward", [2]⟩ ∧
        Restores ["table_delete", "routes", "1"] after uplinksPlane) ∧
      (∃ after first second, runLine "mc_node_create 9 4 2" uplinksPlane = .ok (some 1) after ∧
        runLine "mc_node_associate 3 1" after = .ok none first ∧
        runLine "mc_node_associate 4 0x1" first = .ok none second ∧
        second.multicast.replicate 3 = [⟨1, 5⟩, ⟨2, 9⟩, ⟨4, 9⟩] ∧
        Restores ["mc_node_destroy", "1"] second uplinksPlane) ∧
      (∃ after, runLine "mc_mgrp_create 7" uplinksPlane = .ok none after ∧
        Restores ["mc_mgrp_destroy", "7"] after uplinksPlane) ∧
      ∃ after, runLine "mc_node_associate 4 0" uplinksPlane = .ok none after ∧
        after.multicast.replicate 4 = [⟨1, 5⟩] ∧
        Restores ["mc_node_dissociate", "4", "0"] after uplinksPlane := by
  have reached : ∀ program, Program.load uplinks = .ok program → Reachable program uplinksPlane := by
    intro program loaded
    have start : Reachable program _ := .loaded
    cases loaded
    have filled := start.done (.tableAdd "routes" "forward" [.lpm 0x0a000000 8] [1]) rfl
    have grouped := (filled.done (.groupCreate 3) rfl).done (.nodeCreate 5 [1]) rfl
    exact (grouped.done (.nodeAssociate 3 0) rfl).done (.groupCreate 4) rfl
  have narrow : uplinksPlane.Narrow := ⟨by decide, by decide⟩
  have zero : toString 0 = "0" := rfl
  have one : toString 1 = "1" := rfl
  have four : toString 4 = "4" := rfl
  have seven : toString 7 = "7" := rfl
  have addRead : Command.ofLine "table_add routes forward 10.1.0.0/16 => 2" =
      .ok (.tableAdd "routes" "forward" [.lpm 0x0a010000 16] [2]) := rfl
  have createRead : Command.ofLine "mc_node_create 9 4 2" = .ok (.nodeCreate 9 [4, 2]) := rfl
  have firstRead : Command.ofLine "mc_node_associate 3 1" = .ok (.nodeAssociate 3 1) := rfl
  have secondRead : Command.ofLine "mc_node_associate 4 0x1" = .ok (.nodeAssociate 4 1) := rfl
  have groupRead : Command.ofLine "mc_mgrp_create 7" = .ok (.groupCreate 7) := rfl
  have memberRead : Command.ofLine "mc_node_associate 4 0" = .ok (.nodeAssociate 4 0) := rfl
  obtain ⟨filled, added, answers⟩ : ∃ after,
      run (.tableAdd "routes" "forward" [.lpm 0x0a010000 16] [2]) uplinksPlane = .ok (some 1) after ∧
        after.tables.lookup "routes" [0x0a010203] = some ⟨"forward", [2]⟩ :=
    ⟨_, rfl, by decide⟩
  obtain ⟨noded, first, second, created, joined, joinedAgain, copies⟩ : ∃ after first second,
      run (.nodeCreate 9 [4, 2]) uplinksPlane = .ok (some 1) after ∧
        run (.nodeAssociate 3 1) after = .ok none first ∧ run (.nodeAssociate 4 1) first = .ok none second ∧
        second.multicast.replicate 3 = [⟨1, 5⟩, ⟨2, 9⟩, ⟨4, 9⟩] :=
    ⟨_, _, _, rfl, rfl, rfl, by decide⟩
  obtain ⟨grouped, groupCreated⟩ : ∃ after, run (.groupCreate 7) uplinksPlane = .ok none after := ⟨_, rfl⟩
  obtain ⟨member, associated, copy⟩ : ∃ after, run (.nodeAssociate 4 0) uplinksPlane = .ok none after ∧
      after.multicast.replicate 4 = [⟨1, 5⟩] :=
    ⟨_, rfl, by decide⟩
  rw [← runLine_of_read addRead] at added
  rw [← runLine_of_read createRead] at created
  rw [← runLine_of_read firstRead] at joined
  rw [← runLine_of_read secondRead] at joinedAgain
  rw [← runLine_of_read groupRead] at groupCreated
  rw [← runLine_of_read memberRead] at associated
  obtain ⟨entries, nodes, groups, members⟩ := creations_are_undone (d := uplinks) rfl (reached _ rfl) narrow
  refine ⟨_, rfl, reached _ rfl, narrow, ⟨filled, added, answers, ?entry⟩,
    ⟨noded, first, second, created, joined, joinedAgain, copies, ?node⟩,
    ⟨grouped, groupCreated, ?group⟩, ⟨member, associated, copy, ?member⟩⟩
  case entry =>
    obtain ⟨handle, same, restores⟩ := entries _ _ _ _ _ _ _ addRead added
    cases same
    rwa [one] at restores
  case node =>
    obtain ⟨handle, same, restores⟩ := nodes _ _ _ _ _ createRead created
    cases same
    rw [one] at restores
    have joins : Relation.ReflTransGen (Joins 1) noded first := .single ⟨_, _, _, firstRead, joined⟩
    exact restores second (joins.tail ⟨_, _, _, secondRead, joinedAgain⟩)
  case group =>
    have restores := groups _ _ _ _ groupRead groupCreated
    rwa [seven] at restores
  case member =>
    have restores := members _ _ _ _ _ memberRead associated
    rwa [zero, four] at restores

end ControlPlane

end Switchyard
