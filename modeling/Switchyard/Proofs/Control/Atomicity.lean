import Switchyard.Proofs.Control.Distinct
import Switchyard.Proofs.Keyed

/-!
# Commands that fail change nothing

Some operations change the state first and find out afterwards that there was nothing to change: a
table without the entry, a group without the member. In the planes that commands lead to, names and
numbers are distinct, so what they put back is what was there.
-/

namespace Switchyard

open Sequencing

namespace TableStore

variable {s : TableStore} {name action : String} {keys : List KeyMatch} {args : List Nat}
  {handle : Nat}

theorem add_atomic (s : TableStore) : AtomicAt (add name action keys args) s := by
  refine (looksUp_requireTable name).atomicAt_bind fun t _ => ?_
  refine (looksOnly_ofExcept _).atomicAt_bind fun _ _ => ?_
  refine (looksOnly_ofExcept _).atomicAt_bind fun _ _ => ?_
  exact (atomicAt_modify _ s).bind_pure _

/-- A table without the entry keeps all its entries. -/
theorem filter_of_requireEntry_error {t : Table} {e : Error}
    (missing : t.requireEntry handle = .error e) :
    t.entries.filter (·.handle != handle) = t.entries := by
  rw [List.filter_eq_self]
  intro entry mem
  by_contra same
  have present : t.entries.any (·.handle == handle) = true :=
    List.any_eq_true.mpr ⟨entry, mem, by simpa using same⟩
  rw [Table.requireEntry, if_pos present] at missing
  cases missing

theorem delete_atomic (distinct : s.NamesDistinct) : AtomicAt (delete name handle) s := by
  refine (looksUp_requireTable name).atomicAt_bind fun t found => ?_
  refine (atomicAt_modify _ s).bind fun _ m e s' put failed => ?_
  obtain ⟨missing, rfl⟩ := ofExcept_eq_error.mp failed
  have back := putTable_found distinct found
  rw [filter_of_requireEntry_error missing] at put
  exact (modify_eq_ok.mp put).symm.trans (modify_eq_ok.mp back)

theorem modifyEntry_atomic (s : TableStore) : AtomicAt (modifyEntry name handle action args) s := by
  refine (looksUp_requireTable name).atomicAt_bind fun t _ => ?_
  refine (looksOnly_ofExcept _).atomicAt_bind fun _ _ => ?_
  exact (looksOnly_ofExcept _).atomicAt_bind fun _ _ => atomicAt_modify _ s

theorem setDefault_atomic (s : TableStore) : AtomicAt (setDefault name action args) s := by
  refine (looksUp_requireTable name).atomicAt_bind fun t _ => ?_
  exact (looksOnly_ofExcept _).atomicAt_bind fun _ _ => atomicAt_modify _ s

theorem clear_atomic (s : TableStore) : AtomicAt (clear name) s :=
  (looksUp_requireTable name).atomicAt_bind fun _ _ => atomicAt_modify _ s

end TableStore

namespace Multicast

variable {m : Multicast} {group handle rid : Nat} {ports : List Nat}

theorem createGroup_atomic (m : Multicast) : AtomicAt (createGroup group) m := by
  refine looksOnly_get.atomicAt_bind fun seen _ => ?_
  split
  · exact (looksOnly_throw _).atomicAt m
  · exact atomicAt_modify _ m

theorem destroyGroup_atomic (m : Multicast) : AtomicAt (destroyGroup group) m := by
  refine looksOnly_get.atomicAt_bind fun seen looked => ?_
  obtain ⟨rfl, -⟩ := get_eq_ok.mp looked
  refine atomicAt_modify_check (looksOnly_throw _) (fun _ _ absurd => by cases absurd) fun missing => ?_
  rw [filter_of_lookup_none (Option.isNone_iff_eq_none.mp missing)]

theorem createNode_atomic (m : Multicast) : AtomicAt (createNode rid ports) m :=
  looksOnly_get.atomicAt_bind fun _ _ => (atomicAt_modify _ m).bind_pure _

theorem updateNode_atomic (m : Multicast) : AtomicAt (updateNode handle ports) m :=
  (looksUp_requireNode handle).atomicAt_bind fun _ _ => atomicAt_modify _ m

theorem destroyNode_atomic (m : Multicast) : AtomicAt (destroyNode handle) m := by
  refine looksOnly_get.atomicAt_bind fun seen looked => ?_
  obtain ⟨rfl, -⟩ := get_eq_ok.mp looked
  refine atomicAt_modify_check (looksOnly_throw _) (fun _ _ absurd => by cases absurd) fun missing => ?_
  rw [filter_of_lookup_none (Option.isNone_iff_eq_none.mp missing)]

theorem associate_atomic (m : Multicast) : AtomicAt (associate group handle) m := by
  refine (looksUp_requireNode handle).atomicAt_bind fun _ _ => ?_
  refine (looksUp_requireGroup group).atomicAt_bind fun members _ => ?_
  split
  · exact (looksOnly_throw _).atomicAt m
  · exact atomicAt_modify _ m

theorem dissociate_atomic (distinct : m.GroupsDistinct) : AtomicAt (dissociate group handle) m := by
  refine (looksUp_requireGroup group).atomicAt_bind fun members found => ?_
  refine atomicAt_modify_check (looksOnly_throw _) (fun _ _ absurd => by cases absurd) fun asMany => ?_
  -- a filter that leaves as many members leaves all of them
  have all : members.filter (· != handle) = members :=
    List.filter_sublist.eq_of_length asMany
  rw [all]
  exact modify_eq_ok.mp (putMembers_found distinct found)

end Multicast

namespace ControlPlane

/-- Tables are found by distinct names, and groups by distinct numbers. -/
structure Distinct (plane : ControlPlane) : Prop where
  tables : plane.tables.NamesDistinct
  groups : plane.multicast.GroupsDistinct

variable {α : Type} {plane after : ControlPlane}

theorem lifts_onTables (op : TableM α) :
    Lifts (·.tables) (fun plane tables => { plane with tables := tables }) op (onTables op) where
  ok done := by rw [onTables, done]
  error failed := by rw [onTables, failed]

theorem lifts_onMulticast (op : MulticastM α) :
    Lifts (·.multicast) (fun plane multicast => { plane with multicast := multicast }) op
      (onMulticast op) where
  ok done := by rw [onMulticast, done]
  error failed := by rw [onMulticast, failed]

theorem keeps_onTables {op : TableM α} (kept : Keeps TableStore.NamesDistinct op) :
    Keeps Distinct (onTables op) :=
  (lifts_onTables op).keeps (·.tables) (fun distinct names => ⟨names, distinct.groups⟩) kept

theorem keeps_onMulticast {op : MulticastM α} (kept : Keeps Multicast.GroupsDistinct op) :
    Keeps Distinct (onMulticast op) :=
  (lifts_onMulticast op).keeps (·.groups) (fun distinct groups => ⟨distinct.tables, groups⟩) kept

theorem onTables_atomic {op : TableM α} (atomic : AtomicAt op plane.tables) :
    AtomicAt (onTables op) plane :=
  (lifts_onTables op).atomicAt rfl atomic

theorem onMulticast_atomic {op : MulticastM α} (atomic : AtomicAt op plane.multicast) :
    AtomicAt (onMulticast op) plane :=
  (lifts_onMulticast op).atomicAt rfl atomic

theorem keeps_silently {op : ControlM Unit} (kept : Keeps Distinct op) :
    Keeps Distinct (run.silently op) :=
  kept.bind fun _ => (looksOnly_pure _).keeps _

theorem keeps_run (command : Command) : Keeps Distinct (run command) := by
  cases command with
  | tableAdd => exact (keeps_onTables TableStore.keeps_add).map _
  | tableDelete => exact keeps_silently (keeps_onTables TableStore.keeps_delete)
  | tableModify => exact keeps_silently (keeps_onTables TableStore.keeps_modifyEntry)
  | tableSetDefault => exact keeps_silently (keeps_onTables TableStore.keeps_setDefault)
  | tableClear => exact keeps_silently (keeps_onTables TableStore.keeps_clear)
  | groupCreate => exact keeps_silently (keeps_onMulticast Multicast.keeps_createGroup)
  | groupDestroy => exact keeps_silently (keeps_onMulticast Multicast.keeps_destroyGroup)
  | nodeCreate => exact (keeps_onMulticast Multicast.keeps_createNode).map _
  | nodeUpdate => exact keeps_silently (keeps_onMulticast Multicast.keeps_updateNode)
  | nodeDestroy => exact keeps_silently (keeps_onMulticast Multicast.keeps_destroyNode)
  | nodeAssociate => exact keeps_silently (keeps_onMulticast Multicast.keeps_associate)
  | nodeDissociate => exact keeps_silently (keeps_onMulticast Multicast.keeps_dissociate)

/-- A command that fails in a plane with distinct names and numbers leaves it as it is. -/
theorem run_atomic (distinct : plane.Distinct) (command : Command) :
    AtomicAt (run command) plane := by
  cases command with
  | tableAdd => exact (onTables_atomic (TableStore.add_atomic _)).map _
  | tableDelete => exact (onTables_atomic (TableStore.delete_atomic distinct.tables)).bind_pure _
  | tableModify => exact (onTables_atomic (TableStore.modifyEntry_atomic _)).bind_pure _
  | tableSetDefault => exact (onTables_atomic (TableStore.setDefault_atomic _)).bind_pure _
  | tableClear => exact (onTables_atomic (TableStore.clear_atomic _)).bind_pure _
  | groupCreate => exact (onMulticast_atomic (Multicast.createGroup_atomic _)).bind_pure _
  | groupDestroy => exact (onMulticast_atomic (Multicast.destroyGroup_atomic _)).bind_pure _
  | nodeCreate => exact (onMulticast_atomic (Multicast.createNode_atomic _)).map _
  | nodeUpdate => exact (onMulticast_atomic (Multicast.updateNode_atomic _)).bind_pure _
  | nodeDestroy => exact (onMulticast_atomic (Multicast.destroyNode_atomic _)).bind_pure _
  | nodeAssociate => exact (onMulticast_atomic (Multicast.associate_atomic _)).bind_pure _
  | nodeDissociate =>
    exact (onMulticast_atomic (Multicast.dissociate_atomic distinct.groups)).bind_pure _

/-- The planes that a program can come to: commands one after another, those that fail included. -/
inductive Reachable (program : Program) : ControlPlane → Prop where
  | loaded : Reachable program ⟨program.tables, Multicast.empty⟩
  | done {plane after : ControlPlane} {made : Option Nat} (before : Reachable program plane)
      (command : Command) (done : run command plane = .ok made after) : Reachable program after
  | failed {plane after : ControlPlane} {e : Error} (before : Reachable program plane)
      (command : Command) (failed : run command plane = .error e after) : Reachable program after

theorem Reachable.distinct {d : Description} {program : Program}
    (loaded : Program.load d = .ok program) (reached : Reachable program plane) :
    plane.Distinct := by
  induction reached with
  | loaded => exact ⟨Program.namesDistinct_of_load loaded, List.nodup_nil⟩
  | done _ command done ih => exact keeps_run command ih done
  | failed _ command failed ih =>
    rw [run_atomic ih command failed]
    exact ih

theorem runLine_atomic (distinct : plane.Distinct) (line : String) :
    AtomicAt (runLine line) plane :=
  (looksOnly_ofExcept _).atomicAt_bind fun command _ => run_atomic distinct command

/-- The answers to lines that come one after another, whether they succeed or fail, and the plane
that they leave. -/
def session : List String → ControlPlane → List (Except Error (Option Nat)) × ControlPlane
  | [], plane => ([], plane)
  | line :: lines, plane =>
    match runLine line plane with
    | .ok made after =>
      let rest := session lines after
      (.ok made :: rest.1, rest.2)
    | .error e after =>
      let rest := session lines after
      (.error e :: rest.1, rest.2)

/-- A line that fails leaves the whole plane as it was, and all later lines are answered as if it
had never come. -/
theorem runLine_error_unchanged {d : Description} {program : Program} {line : String} {e : Error}
    (loaded : Program.load d = .ok program) (reached : Reachable program plane)
    (failed : runLine line plane = .error e after) :
    after = plane ∧ ∀ lines, session (line :: lines) plane =
      (.error e :: (session lines plane).1, (session lines plane).2) := by
  have same : after = plane := runLine_atomic (reached.distinct loaded) line failed
  subst same
  refine ⟨rfl, fun lines => ?_⟩
  rw [session, failed]

/-- A program with one table. -/
def relay : Description :=
  { name := some "relay"
    headers := [⟨"ethernet", false, [⟨"dst", 48⟩]⟩]
    parser := []
    deparser := []
    tables := [⟨"macs", [⟨"ethernet.dst", .exact⟩], ["forward"], none⟩]
    checksums := [] }

/-- The table has an entry and group 3 is empty beside a node. -/
def relayPlane : ControlPlane :=
  ⟨⟨[⟨"macs", [⟨0, 48, .exact⟩], ["forward"], [⟨0, [.exact 10], ⟨"forward", [1]⟩⟩], 1, none⟩]⟩,
    ⟨[(3, [])], [(0, ⟨5, [1]⟩)], 1⟩⟩

/-- A line that takes a node out of a group it is no member of, and one that deletes an entry that
is not there. -/
theorem runLine_error_unchanged_relay :
    ∃ program, Program.load relay = .ok program ∧ Reachable program relayPlane ∧
      (∃ after, runLine "mc_node_dissociate 3 0" relayPlane =
          .error (.notAssociated 3 0) after ∧
        after = relayPlane ∧ ∀ lines, session ("mc_node_dissociate 3 0" :: lines) relayPlane =
          (.error (.notAssociated 3 0) :: (session lines relayPlane).1,
            (session lines relayPlane).2)) ∧
      ∃ after, runLine "table_delete macs 1" relayPlane = .error (.unknownEntry "macs" 1) after ∧
        after = relayPlane ∧ ∀ lines, session ("table_delete macs 1" :: lines) relayPlane =
          (.error (.unknownEntry "macs" 1) :: (session lines relayPlane).1,
            (session lines relayPlane).2) := by
  have reached : ∀ program, Program.load relay = .ok program → Reachable program relayPlane := by
    intro program loaded
    have start : Reachable program _ := .loaded
    cases loaded
    have filled := start.done (.tableAdd "macs" "forward" [.exact 10] [1]) rfl
    have grouped := filled.done (.groupCreate 3) rfl
    exact grouped.done (.nodeCreate 5 [1]) rfl
  refine ⟨_, rfl, reached _ rfl, ⟨_, rfl, ?_⟩, ⟨_, rfl, ?_⟩⟩
  · exact runLine_error_unchanged (d := relay) rfl (reached _ rfl) rfl
  · exact runLine_error_unchanged (d := relay) rfl (reached _ rfl) rfl

end ControlPlane

end Switchyard
