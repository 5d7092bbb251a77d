import Switchyard.Proofs.Control.Atomicity
import Switchyard.Proofs.Control.Matching

/-!
# Looking up in the tables of a program

`Sound` is what holds of every table that operations lead to: its keys have the widths of their fields,
its entries have passed the check of their keys, and their handles descend. In such tables a lookup
answers with the call of the entry that is to answer, or else with the default call.
-/

namespace Switchyard

open Sequencing

namespace Table

variable {L : Layout} {t : Table} {keys : List KeyMatch} {values : List Nat} {e : TableEntry}

/-- What declaring a table establishes and operations keep. -/
structure Sound (L : Layout) (t : Table) : Prop where
  widths : ∀ spec ∈ t.keys, spec.width = L.width spec.field
  accepted : ∀ e ∈ t.entries, t.requireKeys e.keys = .ok ()
  descending : Descending t.entries
  fresh : ∀ e ∈ t.entries, e.handle < t.nextHandle

theorem length_of_requireKeys (accepted : t.requireKeys keys = .ok ()) :
    keys.length = t.keys.length := by
  unfold requireKeys at accepted
  split at accepted
  case isTrue => cases accepted
  case isFalse same => exact Decidable.not_not.mp same

namespace Sound

/-- A new entry stands in front of the others. -/
theorem add (sound : t.Sound L) (accepted : t.requireKeys keys = .ok ()) (call : ActionCall) :
    Sound L { t with
      entries := ⟨t.nextHandle, keys, call⟩ :: t.entries, nextHandle := t.nextHandle + 1 } := by
  refine ⟨sound.widths, ?_, List.pairwise_cons.mpr ⟨sound.fresh, sound.descending⟩, ?_⟩
  · exact List.forall_mem_cons.mpr ⟨accepted, sound.accepted⟩
  · refine List.forall_mem_cons.mpr ⟨Nat.lt_succ_self _, fun e mem => ?_⟩
    exact Nat.lt_succ_of_lt (sound.fresh e mem)

/-- Some of the entries are left. -/
theorem sublist {entries : List TableEntry} (sound : t.Sound L) (left : entries.Sublist t.entries) :
    Sound L { t with entries := entries } :=
  ⟨sound.widths, fun e mem => sound.accepted e (left.subset mem), sound.descending.sublist left,
    fun e mem => sound.fresh e (left.subset mem)⟩

/-- Entries get other calls. -/
theorem map {change : TableEntry → TableEntry} (sound : t.Sound L)
    (handles : ∀ e, (change e).handle = e.handle) (sameKeys : ∀ e, (change e).keys = e.keys) :
    Sound L { t with entries := t.entries.map change } := by
  refine ⟨sound.widths, ?_, ?_, ?_⟩
  · refine List.forall_mem_map.mpr fun e mem => ?_
    rw [sameKeys]
    exact sound.accepted e mem
  · refine List.pairwise_map.mpr ?_
    simp only [handles]
    exact sound.descending
  · refine List.forall_mem_map.mpr fun e mem => ?_
    rw [handles]
    exact sound.fresh e mem

theorem setDefault (sound : t.Sound L) (call : Option ActionCall) :
    Sound L { t with defaultCall := call } :=
  ⟨sound.widths, sound.accepted, sound.descending, sound.fresh⟩

/-- An entry has a score exactly if it matches, namely the length of its prefixes. -/
theorem scoreOf?_eq_some (sound : t.Sound L) (arity : values.length = t.keys.length)
    (mem : e ∈ t.entries) {score : Nat} : t.scoreOf? values e = some score ↔
      t.Matches L values e ∧ score = KeyMatch.totalPrefix e.keys :=
  totalScore?_eq_some sound.widths (length_of_requireKeys (sound.accepted e mem)) arity

/-- The scan finds the entry that is to answer, and it finds none only where none matches. -/
theorem bestEntry?_answers (sound : t.Sound L) (arity : values.length = t.keys.length) :
    (∃ e, t.bestEntry? values = some e ∧ t.Answers L values e) ∨
      t.bestEntry? values = none ∧ ∀ e ∈ t.entries, ¬ t.Matches L values e := by
  have best : t.Best values t.entries (t.entries.foldr (t.better values) none) :=
    best_foldr sound.descending
  unfold bestEntry?
  cases found : t.entries.foldr (t.better values) none with
  | none =>
    rw [found] at best
    refine .inr ⟨rfl, fun e mem matching => ?_⟩
    have scored := (sound.scoreOf?_eq_some arity mem).mpr ⟨matching, rfl⟩
    rw [best e mem] at scored
    cases scored
  | some result =>
    obtain ⟨score, e⟩ := result
    rw [found] at best
    obtain ⟨mem, scored, most⟩ := best
    obtain ⟨matching, rfl⟩ := (sound.scoreOf?_eq_some arity mem).mp scored
    have others : ∀ other ∈ t.entries, t.Matches L values other →
        KeyMatch.totalPrefix other.keys < KeyMatch.totalPrefix e.keys ∨
          KeyMatch.totalPrefix other.keys = KeyMatch.totalPrefix e.keys ∧
            e.handle ≤ other.handle := by
      intro other otherMem otherMatching
      exact most other otherMem _ ((sound.scoreOf?_eq_some arity otherMem).mpr ⟨otherMatching, rfl⟩)
    refine .inl ⟨e, rfl, mem, matching, ?_, ?_⟩
    · intro other otherMem otherMatching
      have := others other otherMem otherMatching
      omega
    · intro other otherMem otherMatching same
      have := others other otherMem otherMatching
      omega

end Sound

end Table

namespace TableStore

variable {L : Layout} {decls : List TableDecl} {s s₀ : TableStore} {t : Table} {name action : String}
  {keys : List KeyMatch} {args values : List Nat} {handle : Nat}

/-- All tables are sound. -/
def AllSound (L : Layout) (s : TableStore) : Prop := ∀ t ∈ s.tables, t.Sound L

theorem AllSound.of_found (sound : s.AllSound L) (found : s.table? name = some t) : t.Sound L :=
  sound t (List.mem_of_find?_eq_some found)

/-- A sound table is put among sound tables. -/
theorem allSound_putTable (sound : t.Sound L) : Keeps (AllSound L) (putTable t) := by
  refine keeps_modify fun s all => List.forall_mem_map.mpr fun old mem => ?_
  split
  · exact sound
  · exact all old mem

theorem allSound_add : Keeps (AllSound L) (add name action keys args) := by
  refine (looksUp_requireTable name).keeps_bind fun t s all found => ?_
  refine keeps_ofExcept_bind fun _ _ => keeps_ofExcept_bind fun _ accepted => ?_
  exact (allSound_putTable ((all.of_found found).add accepted _)).bind fun _ =>
    (looksOnly_pure _).keeps _

theorem allSound_delete : Keeps (AllSound L) (delete name handle) := by
  refine (looksUp_requireTable name).keeps_bind fun t s all found => ?_
  exact (allSound_putTable ((all.of_found found).sublist List.filter_sublist)).bind fun _ =>
    (looksOnly_ofExcept _).keeps _

theorem allSound_modifyEntry : Keeps (AllSound L) (modifyEntry name handle action args) := by
  refine (looksUp_requireTable name).keeps_bind fun t s all found => ?_
  refine keeps_ofExcept_bind fun _ _ => keeps_ofExcept_bind fun _ _ => allSound_putTable ?_
  refine (all.of_found found).map (fun e => ?_) fun e => ?_ <;> split <;> rfl

theorem allSound_setDefault : Keeps (AllSound L) (setDefault name action args) := by
  refine (looksUp_requireTable name).keeps_bind fun t s all found => ?_
  exact keeps_ofExcept_bind fun _ _ => allSound_putTable ((all.of_found found).setDefault _)

theorem allSound_clear : Keeps (AllSound L) (clear name) :=
  (looksUp_requireTable name).keeps_bind fun _ _ all found =>
    allSound_putTable ((all.of_found found).sublist (List.nil_sublist _))

/-- The keys of a table as it is declared read fields that are there. -/
theorem Declares.resolved {decl : TableDecl} (declares : Declares L decl t) :
    ∀ spec ∈ t.keys, spec.width = L.width spec.field ∧
      ∃ name, L.requireField name = .ok spec.field := by
  intro spec mem
  obtain ⟨decl, -, own⟩ := mem_of_mapM_eq_ok declares.keys spec mem
  obtain ⟨id, found, own⟩ := bind_eq_ok.mp own
  cases own
  exact ⟨rfl, decl.field, found⟩

theorem sound_tableOf {decl : TableDecl} (made : tableOf L decl = .ok t) : t.Sound L := by
  have declares := declares_of_tableOf made
  refine ⟨fun spec mem => (declares.resolved spec mem).1, ?_, ?_, ?_⟩ <;> rw [declares.entries]
  · exact List.forall_mem_nil _
  · exact List.Pairwise.nil
  · exact List.forall_mem_nil _

/-- Every declaration makes one table, in order. -/
theorem tables_ofDecls (made : ofDecls L decls = .ok s) :
    List.Forall₂ (fun decl t => tableOf L decl = .ok t) decls s.tables := by
  have run : ∀ s₀ : TableStore, decls.foldlM (TableStore.declare L) s₀ = .ok s →
      ∃ new, s.tables = s₀.tables ++ new ∧
        List.Forall₂ (fun decl t => tableOf L decl = .ok t) decls new := by
    clear made
    induction decls with
    | nil =>
      intro s₀ declared
      cases declared
      exact ⟨[], (List.append_nil _).symm, .nil⟩
    | cons decl decls ih =>
      intro s₀ declared
      rw [List.foldlM_cons] at declared
      obtain ⟨next, first, declared⟩ := bind_eq_ok.mp declared
      obtain ⟨t, made, -, rfl⟩ := declare_eq_ok_iff.mp first
      obtain ⟨new, tables, others⟩ := ih _ declared
      refine ⟨t :: new, ?_, .cons made others⟩
      rw [tables, List.append_assoc, List.singleton_append]
  obtain ⟨new, tables, each⟩ := run ⟨[]⟩ made
  rw [List.nil_append] at tables
  rwa [tables]

/-- What holds of a table as it is declared holds of all tables that a program declares. -/
theorem forall_of_ofDecls {P : Table → Prop} (each : ∀ decl t, tableOf L decl = .ok t → P t)
    (made : ofDecls L decls = .ok s) : ∀ t ∈ s.tables, P t := by
  intro t mem
  obtain ⟨decl, -, declared⟩ := (exists_of_forall₂ (tables_ofDecls made)).2 t mem
  exact each decl t declared

theorem allSound_ofDecls (made : ofDecls L decls = .ok s) : s.AllSound L :=
  forall_of_ofDecls (fun _ _ => sound_tableOf) made

/-! ## What operations lead to -/

/-- The operations on the tables. -/
inductive Operation where
  | add (table action : String) (keys : List KeyMatch) (args : List Nat)
  | delete (table : String) (handle : Nat)
  | modify (table action : String) (handle : Nat) (args : List Nat)
  | setDefault (table action : String) (args : List Nat)
  | clear (table : String)
  deriving DecidableEq

/-- Carries out an operation, and answers the handle of what it made. -/
def Operation.run : Operation → TableM (Option Nat)
  | .add table action keys args => some <$> TableStore.add table action keys args
  | .delete table handle => (fun _ => none) <$> TableStore.delete table handle
  | .modify table action handle args =>
    (fun _ => none) <$> TableStore.modifyEntry table handle action args
  | .setDefault table action args => (fun _ => none) <$> TableStore.setDefault table action args
  | .clear table => (fun _ => none) <$> TableStore.clear table

theorem allSound_run (op : Operation) : Keeps (AllSound L) op.run := by
  cases op with
  | add => exact allSound_add.map _
  | delete => exact allSound_delete.map _
  | modify => exact allSound_modifyEntry.map _
  | setDefault => exact allSound_setDefault.map _
  | clear => exact allSound_clear.map _

theorem namesDistinct_run (op : Operation) : Keeps NamesDistinct op.run := by
  cases op with
  | add => exact keeps_add.map _
  | delete => exact keeps_delete.map _
  | modify => exact keeps_modifyEntry.map _
  | setDefault => exact keeps_setDefault.map _
  | clear => exact keeps_clear.map _

theorem run_atomic (distinct : s.NamesDistinct) (op : Operation) : AtomicAt op.run s := by
  cases op with
  | add => exact (add_atomic s).map _
  | delete => exact (delete_atomic distinct).map _
  | modify => exact (modifyEntry_atomic s).map _
  | setDefault => exact (setDefault_atomic s).map _
  | clear => exact (clear_atomic s).map _

/-- Names stay distinct and tables sound, whatever is done to the tables of a program. -/
theorem sound_of_history {log : List (Operation × Option Nat)} (made : ofDecls L decls = .ok s₀)
    (history : History Operation.run s₀ log s) : s.NamesDistinct ∧ s.AllSound L := by
  refine history.keeps (P := fun s => s.NamesDistinct ∧ s.AllSound L)
    ⟨namesDistinct_ofDecls made, allSound_ofDecls made⟩ ?kept ?atomic
  case kept =>
    rintro op s a s' ⟨distinct, sound⟩ done
    exact ⟨namesDistinct_run op distinct done, allSound_run op sound done⟩
  case atomic =>
    rintro op s ⟨distinct, -⟩
    exact run_atomic distinct op

/-- A lookup answers with the call of the one entry that has the longest prefixes among those that
match, the oldest among equals; where none matches, with the default call if there is one. -/
theorem lookup_longest_prefix {log : List (Operation × Option Nat)}
    (made : ofDecls L decls = .ok s₀) (history : History Operation.run s₀ log s)
    (found : s.table? name = some t) (arity : values.length = t.keys.length) :
    (∃ e, t.Answers L values e ∧ (∀ other, t.Answers L values other → other = e) ∧
      s.lookup name values = some e.call) ∨
    (∀ e ∈ t.entries, ¬ t.Matches L values e) ∧ s.lookup name values = t.defaultCall := by
  have sound := (sound_of_history made history).2.of_found found
  have answer : s.lookup name values = ((t.bestEntry? values).map (·.call)).or t.defaultCall := by
    rw [lookup, found, Option.bind_some, Table.lookup]
  rcases sound.bestEntry?_answers arity with ⟨e, best, answers⟩ | ⟨none, missed⟩
  · refine .inl ⟨e, answers, fun other => answers.unique sound.descending, ?_⟩
    rw [answer, best, Option.map_some, Option.some_or]
  · refine .inr ⟨missed, ?_⟩
    rw [answer, none, Option.map_none, Option.none_or]

/-- An address and a protocol number. -/
def aclLayout : Layout :=
  ⟨[⟨"ipv4", false, 0, 2, 40⟩], [⟨"ipv4.dst_addr", 0, 32⟩, ⟨"ipv4.proto", 0, 8⟩]⟩

/-- A table that compares both. -/
def aclTables : List TableDecl :=
  [⟨"acl", [⟨"ipv4.dst_addr", .lpm⟩, ⟨"ipv4.proto", .exact⟩], ["permit", "deny"], some "deny"⟩]

/-- The table without entries. -/
def aclStore : TableStore :=
  ⟨[⟨"acl", [⟨0, 32, .lpm⟩, ⟨1, 8, .exact⟩], ["permit", "deny"], [], 0, some ⟨"deny", []⟩⟩]⟩

/-- Two entries have the same prefix of 24 bits, which they spell differently, beside one of 8 bits; an
operation in between fails. The older one of the two answers. -/
theorem lookup_longest_prefix_tied :
    ∃ log s t, ofDecls aclLayout aclTables = .ok aclStore ∧ History Operation.run aclStore log s ∧
      s.table? "acl" = some t ∧ [0x0a000105, 17].length = t.keys.length ∧
      ((∃ e, t.Answers aclLayout [0x0a000105, 17] e ∧
          (∀ other, t.Answers aclLayout [0x0a000105, 17] other → other = e) ∧
          s.lookup "acl" [0x0a000105, 17] = some e.call) ∨
        (∀ e ∈ t.entries, ¬ t.Matches aclLayout [0x0a000105, 17] e) ∧
          s.lookup "acl" [0x0a000105, 17] = t.defaultCall) ∧
      s.lookup "acl" [0x0a000105, 17] = some ⟨"permit", [2]⟩ ∧
      s.lookup "acl" [0x0a000105, 6] = some ⟨"deny", []⟩ := by
  have made : ofDecls aclLayout aclTables = .ok aclStore := rfl
  have begun : History Operation.run aclStore [] aclStore := .start
  have wide := begun.done (.add "acl" "permit" [.lpm 0x0a000000 8, .exact 17] [1]) rfl
  have narrow := wide.done (.add "acl" "permit" [.lpm 0x0a000100 24, .exact 17] [2]) rfl
  have missing := narrow.failed (.delete "acl" 7) rfl
  have last := missing.done (.add "acl" "permit" [.lpm 0x0a0001ff 24, .exact 17] [3]) rfl
  refine ⟨_, _, _, made, last, rfl, rfl, ?_, by decide, by decide⟩
  exact lookup_longest_prefix made last rfl rfl

end TableStore

end Switchyard
