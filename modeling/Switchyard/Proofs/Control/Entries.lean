import Switchyard.Proofs.Control.Tables

/-!
# Tables by their history

A table holds just the entries that were added to it and neither deleted nor cleared away since, each with
the keys that it was added with and the call that it was given last. Handles are given out in order and
never again. `Recorded` ties a table to the log of what was done; `Changes` says what one operation does to
the table that it names. Every operation keeps `Recorded`, of that table and of all others.
-/

namespace Switchyard

open Sequencing

/-- The key is of the declared kind, and its prefix is no longer than the field. -/
inductive KeyMatch.Fits (L : Layout) : KeyDecl → KeyMatch → Prop where
  | exact {field : String} {value : Nat} : Fits L ⟨field, .exact⟩ (.exact value)
  | lpm {field : String} {id : FieldId} {value prefixLen : Nat} (found : L.requireField field = .ok id)
      (short : prefixLen ≤ L.width id) : Fits L ⟨field, .lpm⟩ (.lpm value prefixLen)

namespace TableStore

/-! ## Logs -/

/-- The operations that succeeded, with their answers. -/
abbrev Log := List (Operation × Option Nat)

/-- The table that an operation works on. -/
def Operation.table : Operation → String
  | .add table _ _ _ => table
  | .delete table _ => table
  | .modify table _ _ _ => table
  | .setDefault table _ _ => table
  | .clear table => table

/-- Does the operation remove the entry of the table? -/
def Operation.removes (name : String) (handle : Nat) : Operation → Bool
  | .delete table removed => decide (table = name ∧ handle = removed)
  | .clear table => decide (table = name)
  | _ => false

/-- The call that the operation gives to the entry of the table. -/
def Operation.recalls? (name : String) (handle : Nat) : Operation → Option ActionCall
  | .modify table action changed args =>
    if table = name ∧ handle = changed then some ⟨action, args⟩ else none
  | _ => none

/-- The handles that were answered for entries of the table. -/
def givenOut (name : String) (log : Log) : List Nat :=
  log.filterMap fun step => if step.1.table = name then step.2 else none

/-- An entry was added, and none of the later operations removed it. -/
def Lasts (name : String) (log : Log) (handle : Nat) (keys : List KeyMatch) (first : ActionCall)
    (later : Log) : Prop :=
  ∃ before, log = before ++ (.add name first.action keys first.args, some handle) :: later ∧
    ∀ step ∈ later, step.1.removes name handle = false

/-- A handle is live as long as its entry lasts. -/
def Live (name : String) (log : Log) (handle : Nat) : Prop :=
  ∃ keys first later, Lasts name log handle keys first later

/-- The call that the entry was given last, if it had the given one first. -/
def lastCall (name : String) (handle : Nat) (first : ActionCall) (later : Log) : ActionCall :=
  (later.filterMap (·.1.recalls? name handle)).getLast?.getD first

/-- The entry lasts, and it has the call that it was given last. -/
def Entered (name : String) (log : Log) (handle : Nat) (keys : List KeyMatch) (call : ActionCall) :
    Prop :=
  ∃ first later, Lasts name log handle keys first later ∧ call = lastCall name handle first later

variable {log later : Log} {op : Operation} {answer : Option Nat} {name : String} {handle : Nat}
  {keys : List KeyMatch} {call first : ActionCall}

theorem live_iff : Live name log handle ↔ ∃ keys call, Entered name log handle keys call := by
  constructor
  · rintro ⟨keys, first, later, lasts⟩
    exact ⟨keys, _, first, later, lasts, rfl⟩
  · rintro ⟨keys, call, first, later, lasts, -⟩
    exact ⟨keys, first, later, lasts⟩

theorem removes_of_other (apart : op.table ≠ name) : op.removes name handle = false := by
  cases op <;> simp_all [Operation.removes, Operation.table]

theorem recalls?_of_other (apart : op.table ≠ name) : op.recalls? name handle = none := by
  cases op <;> simp_all [Operation.recalls?, Operation.table]

/-- After one more operation an entry lasts if it has just been added, or has lasted so far and is not
removed now. -/
theorem lasts_concat : Lasts name (log ++ [(op, answer)]) handle keys first later ↔
    (op = .add name first.action keys first.args ∧ answer = some handle ∧ later = []) ∨
    ∃ before, Lasts name log handle keys first before ∧ op.removes name handle = false ∧
      later = before ++ [(op, answer)] := by
  constructor
  · rintro ⟨front, split, kept⟩
    rcases List.eq_nil_or_concat later with rfl | ⟨before, last, rfl⟩
    · obtain ⟨-, same⟩ := List.append_inj' split rfl
      cases same
      exact Or.inl ⟨rfl, rfl, rfl⟩
    · rw [List.concat_eq_append] at split kept ⊢
      rw [← List.cons_append, ← List.append_assoc] at split
      obtain ⟨rfl, same⟩ := List.append_inj' split rfl
      cases same
      obtain ⟨keptBefore, keptLast⟩ := List.forall_mem_append.mp kept
      exact Or.inr ⟨before, ⟨front, rfl, keptBefore⟩, keptLast _ List.mem_cons_self, rfl⟩
  · rintro (⟨rfl, rfl, rfl⟩ | ⟨before, ⟨front, rfl, kept⟩, keptLast, rfl⟩)
    · exact ⟨log, rfl, List.forall_mem_nil _⟩
    · refine ⟨front, by simp, List.forall_mem_append.mpr ⟨kept, ?_⟩⟩
      exact List.forall_mem_singleton.mpr keptLast

theorem lastCall_concat : lastCall name handle first (later ++ [(op, answer)]) =
    (op.recalls? name handle).getD (lastCall name handle first later) := by
  unfold lastCall
  rw [List.filterMap_append]
  cases recalled : op.recalls? name handle <;> simp [recalled]

/-- What one more operation does to the entries. -/
theorem entered_concat : Entered name (log ++ [(op, answer)]) handle keys call ↔
    (op = .add name call.action keys call.args ∧ answer = some handle) ∨
    op.removes name handle = false ∧
      ∃ old, Entered name log handle keys old ∧ call = (op.recalls? name handle).getD old := by
  constructor
  · rintro ⟨first, later, lasts, rfl⟩
    rcases lasts_concat.mp lasts with ⟨rfl, rfl, rfl⟩ | ⟨before, lasted, kept, rfl⟩
    · exact Or.inl ⟨rfl, rfl⟩
    · exact Or.inr ⟨kept, _, ⟨first, before, lasted, rfl⟩, lastCall_concat⟩
  · rintro (⟨rfl, rfl⟩ | ⟨kept, old, ⟨first, before, lasts, rfl⟩, rfl⟩)
    · exact ⟨call, [], lasts_concat.mpr (Or.inl ⟨rfl, rfl, rfl⟩), rfl⟩
    · exact ⟨first, _, lasts_concat.mpr (Or.inr ⟨before, lasts, kept, rfl⟩), lastCall_concat.symm⟩

/-- An operation that neither adds the entry nor changes it may still remove it. -/
theorem entered_concat_of_idle (fresh : op ≠ .add name call.action keys call.args)
    (same : op.recalls? name handle = none) :
    Entered name (log ++ [(op, answer)]) handle keys call ↔
      op.removes name handle = false ∧ Entered name log handle keys call := by
  rw [entered_concat, same]
  constructor
  · rintro (⟨added, -⟩ | ⟨kept, old, entered, rfl⟩)
    · exact absurd added fresh
    · exact ⟨kept, entered⟩
  · rintro ⟨kept, entered⟩
    exact Or.inr ⟨kept, call, entered, rfl⟩

theorem givenOut_concat : givenOut name (log ++ [(op, answer)]) =
    givenOut name log ++ (if op.table = name then answer else none).toList := by
  unfold givenOut
  rw [List.filterMap_append]
  split <;> rename_i named <;> cases answer <;> simp [named]

end TableStore

/-! ## What an operation does to its table -/

namespace Table

open TableStore

variable {t t' : Table} {log : Log} {op : Operation} {answer : Option Nat}

/-- What an operation does to the table that it names where it succeeds, and what it answers. -/
inductive Changes (t : Table) : Operation → Option Nat → Table → Prop where
  | add {action : String} {keys : List KeyMatch} {args : List Nat} (declared : action ∈ t.actions)
      (accepted : t.requireKeys keys = .ok ()) :
      Changes t (.add t.name action keys args) (some t.nextHandle) { t with
        entries := ⟨t.nextHandle, keys, ⟨action, args⟩⟩ :: t.entries
        nextHandle := t.nextHandle + 1 }
  | delete {handle : Nat} :
      Changes t (.delete t.name handle) none
        { t with entries := t.entries.filter (·.handle != handle) }
  | modify {action : String} {handle : Nat} {args : List Nat} (declared : action ∈ t.actions) :
      Changes t (.modify t.name action handle args) none { t with
        entries := t.entries.map fun e =>
          if e.handle = handle then { e with call := ⟨action, args⟩ } else e }
  | setDefault {action : String} {args : List Nat} (declared : action ∈ t.actions) :
      Changes t (.setDefault t.name action args) none { t with defaultCall := some ⟨action, args⟩ }
  | clear : Changes t (.clear t.name) none { t with entries := [] }

/-- The table is as the log says. -/
structure Recorded (log : Log) (t : Table) : Prop where
  entries : ∀ e, e ∈ t.entries ↔ Entered t.name log e.handle e.keys e.call
  handles : givenOut t.name log = List.range t.nextHandle
  actions : ∀ e ∈ t.entries, e.call.action ∈ t.actions
  defaultCall : ∀ call ∈ t.defaultCall, call.action ∈ t.actions

/-- An operation changes neither the name of its table nor what is declared of it. -/
theorem Changes.schema (changes : t.Changes op answer t') : t'.schema = t.schema := by
  cases changes <;> rfl

theorem Changes.table (changes : t.Changes op answer t') : op.table = t.name := by
  cases changes <;> rfl

theorem Changes.name (changes : t.Changes op answer t') : t'.name = t.name :=
  (Prod.mk.inj changes.schema).1

/-- Handles are answered in order. -/
theorem Recorded.handles_changes (recorded : t.Recorded log) (changes : t.Changes op answer t') :
    givenOut t.name (log ++ [(op, answer)]) = List.range t'.nextHandle := by
  rw [givenOut_concat, if_pos changes.table, recorded.handles]
  cases changes with
  | add => exact List.range_succ.symm
  | _ => exact List.append_nil _

/-- The actions of the entries and of the default stay declared. -/
theorem Recorded.actions_changes (recorded : t.Recorded log) (changes : t.Changes op answer t') :
    (∀ e ∈ t'.entries, e.call.action ∈ t'.actions) ∧
      ∀ call ∈ t'.defaultCall, call.action ∈ t'.actions := by
  cases changes with
  | add declared => exact ⟨List.forall_mem_cons.mpr ⟨declared, recorded.actions⟩, recorded.defaultCall⟩
  | delete =>
    exact ⟨fun e mem => recorded.actions e (List.mem_of_mem_filter mem), recorded.defaultCall⟩
  | modify declared =>
    refine ⟨List.forall_mem_map.mpr fun e mem => ?_, recorded.defaultCall⟩
    split
    · exact declared
    · exact recorded.actions e mem
  | setDefault declared =>
    refine ⟨recorded.actions, fun call called => ?_⟩
    cases called
    exact declared
  | clear => exact ⟨List.forall_mem_nil _, recorded.defaultCall⟩

/-- The entries are those that have lasted, each with its last call. -/
theorem Recorded.entries_changes (recorded : t.Recorded log) (changes : t.Changes op answer t')
    (e : TableEntry) : e ∈ t'.entries ↔ Entered t.name (log ++ [(op, answer)]) e.handle e.keys e.call := by
  cases changes with
  | @add action keys args declared accepted =>
    rw [List.mem_cons, entered_concat, recorded.entries]
    refine or_congr ?_ ?_
    · constructor
      · rintro rfl
        exact ⟨rfl, rfl⟩
      · obtain ⟨handle, keys, action, args⟩ := e
        rintro ⟨added, answered⟩
        cases added
        cases answered
        rfl
    · constructor
      · intro entered
        exact ⟨rfl, e.call, entered, rfl⟩
      · rintro ⟨-, old, entered, same⟩
        cases same
        exact entered
  | @delete handle =>
    rw [List.mem_filter, recorded.entries, entered_concat_of_idle (by simp) rfl, and_comm]
    simp [Operation.removes]
  | @modify action handle args declared =>
    rw [List.mem_map, entered_concat]
    constructor
    · rintro ⟨old, mem, rfl⟩
      have entered := (recorded.entries old).mp mem
      by_cases same : old.handle = handle
      · rw [if_pos same]
        exact Or.inr ⟨rfl, old.call, entered, by simp [Operation.recalls?, same]⟩
      · rw [if_neg same]
        exact Or.inr ⟨rfl, old.call, entered, by simp [Operation.recalls?, same]⟩
    · rintro (⟨absurd, -⟩ | ⟨-, old, entered, called⟩)
      · cases absurd
      · refine ⟨⟨e.handle, e.keys, old⟩, (recorded.entries _).mpr entered, ?_⟩
        obtain ⟨changed, keys, call⟩ := e
        by_cases same : changed = handle <;> simp_all [Operation.recalls?]
  | setDefault =>
    rw [entered_concat_of_idle (by simp) rfl, recorded.entries]
    exact (and_iff_right rfl).symm
  | clear =>
    rw [entered_concat_of_idle (by simp) rfl]
    simp [Operation.removes]

/-- The log goes on telling the truth of the table that an operation names. -/
theorem Recorded.changes (recorded : t.Recorded log) (changes : t.Changes op answer t') :
    t'.Recorded (log ++ [(op, answer)]) := by
  obtain ⟨actions, defaultCall⟩ := recorded.actions_changes changes
  refine ⟨?_, ?_, actions, defaultCall⟩ <;> rw [changes.name]
  · exact recorded.entries_changes changes
  · exact recorded.handles_changes changes

/-- Of another table the log says nothing new. -/
theorem Recorded.other (recorded : t.Recorded log) (apart : op.table ≠ t.name) :
    t.Recorded (log ++ [(op, answer)]) := by
  refine ⟨fun e => ?_, ?_, recorded.actions, recorded.defaultCall⟩
  · have fresh : op ≠ .add t.name e.call.action e.keys e.call.args := by
      rintro rfl
      exact apart rfl
    rw [entered_concat_of_idle fresh (recalls?_of_other apart), recorded.entries]
    exact (and_iff_right (removes_of_other apart)).symm
  · rw [givenOut_concat, if_neg apart, recorded.handles]
    exact List.append_nil _

end Table

namespace TableStore

variable {s s' : TableStore} {t : Table} {L : Layout} {log : Log} {op : Operation}
  {answer : Option Nat} {name other : String} {keys : List KeyMatch}

/-! ## What an operation does to the store -/

/-- The store with a table in the place of the one with its name. -/
def withTable (s : TableStore) (t : Table) : TableStore :=
  { s with tables := s.tables.map fun old => if old.name = t.name then t else old }

theorem name_of_found (found : s.table? name = some t) : t.name = name := by
  simpa using List.find?_some found

theorem table?_withTable : (s.withTable t).table? other =
    (s.table? other).map fun old => if old.name = t.name then t else old := by
  have named : (fun u : Table => u.name == other) ∘ (fun old => if old.name = t.name then t else old) =
      fun u => u.name == other := by
    funext old
    rw [Function.comp_apply]
    split
    case isTrue same => rw [same]
    case isFalse => rfl
  rw [table?, withTable, List.find?_map, named, ← table?]

/-- Putting a table back does not show in the others. -/
theorem table?_withTable_of_ne (apart : other ≠ t.name) :
    (s.withTable t).table? other = s.table? other := by
  rw [table?_withTable]
  cases found : s.table? other with
  | none => rfl
  | some u =>
    have same := name_of_found found
    rw [Option.map_some, if_neg (by rw [same]; exact apart)]

theorem declared_of_requireAction {action : String} {u : Unit} (checked : t.requireAction action = .ok u) :
    action ∈ t.actions := by
  unfold Table.requireAction at checked
  split at checked
  case isTrue there => exact there
  case isFalse => cases checked

/-- An operation that succeeds changes the table that it names as it is to, and puts it back. -/
theorem changes_of_run (done : op.run s = .ok answer s') :
    ∃ t t', s.table? op.table = some t ∧ t.Changes op answer t' ∧ s' = s.withTable t' := by
  cases op with
  | add name action keys args =>
    obtain ⟨handle, added, rfl⟩ := state_map_eq_ok.mp done
    obtain ⟨t, found, rest⟩ := (looksUp_requireTable name).bind_eq_ok.mp added
    obtain ⟨_, known, rest⟩ := ofExcept_bind_eq_ok.mp rest
    obtain ⟨_, accepted, rest⟩ := ofExcept_bind_eq_ok.mp rest
    have last := modify_bind_eq_ok.mp rest
    obtain ⟨rfl, rfl⟩ := state_pure_eq_ok.mp last
    obtain rfl := name_of_found found
    exact ⟨t, _, found, .add (declared_of_requireAction known) accepted, rfl⟩
  | delete name handle =>
    obtain ⟨_, deleted, rfl⟩ := state_map_eq_ok.mp done
    obtain ⟨t, found, rest⟩ := (looksUp_requireTable name).bind_eq_ok.mp deleted
    have last := modify_bind_eq_ok.mp rest
    obtain ⟨-, rfl⟩ := ofExcept_eq_ok.mp last
    obtain rfl := name_of_found found
    exact ⟨t, _, found, .delete, rfl⟩
  | modify name action handle args =>
    obtain ⟨_, changed, rfl⟩ := state_map_eq_ok.mp done
    obtain ⟨t, found, rest⟩ := (looksUp_requireTable name).bind_eq_ok.mp changed
    obtain ⟨_, known, rest⟩ := ofExcept_bind_eq_ok.mp rest
    obtain ⟨_, -, put⟩ := ofExcept_bind_eq_ok.mp rest
    obtain rfl := modify_eq_ok.mp put
    obtain rfl := name_of_found found
    exact ⟨t, _, found, .modify (declared_of_requireAction known), rfl⟩
  | setDefault name action args =>
    obtain ⟨_, changed, rfl⟩ := state_map_eq_ok.mp done
    obtain ⟨t, found, rest⟩ := (looksUp_requireTable name).bind_eq_ok.mp changed
    obtain ⟨_, known, put⟩ := ofExcept_bind_eq_ok.mp rest
    obtain rfl := modify_eq_ok.mp put
    obtain rfl := name_of_found found
    exact ⟨t, _, found, .setDefault (declared_of_requireAction known), rfl⟩
  | clear name =>
    obtain ⟨_, cleared, rfl⟩ := state_map_eq_ok.mp done
    obtain ⟨t, found, put⟩ := (looksUp_requireTable name).bind_eq_ok.mp cleared
    obtain rfl := modify_eq_ok.mp put
    obtain rfl := name_of_found found
    exact ⟨t, _, found, .clear, rfl⟩

/-- An operation that succeeds leaves every table as the longer log says. -/
theorem recorded_of_run (recorded : ∀ t ∈ s.tables, t.Recorded log) (done : op.run s = .ok answer s') :
    ∀ t ∈ s'.tables, t.Recorded (log ++ [(op, answer)]) := by
  obtain ⟨t, t', found, changes, rfl⟩ := changes_of_run done
  refine List.forall_mem_map.mpr fun old mem => ?_
  split
  case isTrue => exact (recorded t (List.mem_of_find?_eq_some found)).changes changes
  case isFalse apart =>
    have named : t'.name = op.table := changes.name.trans changes.table.symm
    exact (recorded old mem).other fun same => apart (same.symm.trans named.symm)

/-- Whatever is done to the tables of a program, the log tells the truth of each of them. -/
theorem recorded_of_history {decls : List TableDecl} {s₀ : TableStore}
    (made : ofDecls L decls = .ok s₀) (history : History Operation.run s₀ log s) :
    s.NamesDistinct ∧ ∀ t ∈ s.tables, t.Recorded log := by
  induction history with
  | start =>
    refine ⟨namesDistinct_ofDecls made, forall_of_ofDecls (fun decl t made => ?_) made⟩
    have declares := declares_of_tableOf made
    refine ⟨fun e => ?_, ?_, ?_, ?_⟩
    · rw [declares.entries]
      constructor
      · intro absurd
        cases absurd
      · rintro ⟨first, later, ⟨before, split, -⟩, -⟩
        simp at split
    · rw [declares.nextHandle]
      rfl
    · rw [declares.entries]
      exact List.forall_mem_nil _
    · rw [declares.actions]
      exact declares.defaultCall
  | done _ op done ih => exact ⟨namesDistinct_run op ih.1 done, recorded_of_run ih.2 done⟩
  | failed _ op failed ih =>
    obtain rfl := run_atomic ih.1 op failed
    exact ih

/-! ## Keys that fit -/

/-- Each key is there, and none of them has a fault. -/
abbrev Faultless (specs : List TableKey) (keys : List KeyMatch) : Prop :=
  List.Forall₂ (fun spec key => KeyMatch.fault? spec key = none) specs keys

/-- Keys that have been accepted have no fault. -/
theorem faultless_of_requireKeys (accepted : t.requireKeys keys = .ok ()) : Faultless t.keys keys := by
  have lengths := Table.length_of_requireKeys accepted
  unfold Table.requireKeys at accepted
  rw [if_neg (Decidable.not_not.mpr lengths)] at accepted
  cases faulty : t.keyFault? keys with
  | some found =>
    rw [faulty] at accepted
    cases accepted
  | none =>
    refine List.forall₂_iff_zip.mpr ⟨lengths.symm, fun {spec key} mem => ?_⟩
    obtain ⟨i, there⟩ := List.getElem?_of_mem mem
    have none := List.findSome?_eq_none_iff.mp faulty ((spec, key), i)
      (List.mem_zipIdx_iff_getElem?.mpr there)
    simpa using none

theorem fits_of_keyOf {decl : KeyDecl} {spec : TableKey} {key : KeyMatch}
    (resolved : keyOf L decl = .ok spec) (faultless : key.fault? spec = none) : key.Fits L decl := by
  obtain ⟨id, found, resolved⟩ := bind_eq_ok.mp resolved
  cases resolved
  obtain ⟨field, kind⟩ := decl
  cases key with
  | exact value =>
    cases kind with
    | exact => exact .exact
    | lpm => cases faultless
  | lpm value prefixLen =>
    cases kind with
    | exact => cases faultless
    | lpm =>
      refine .lpm found ?_
      by_contra long
      simp only [KeyMatch.fault?, reduceCtorEq, if_false, if_pos (Nat.not_le.mp long)] at faultless

/-- Keys without a fault are as declared. -/
theorem fits_of_faultless {decls : List KeyDecl} {specs : List TableKey}
    (resolved : List.Forall₂ (fun decl spec => keyOf L decl = .ok spec) decls specs)
    (faultless : Faultless specs keys) : List.Forall₂ (KeyMatch.Fits L) decls keys := by
  induction resolved generalizing keys with
  | nil =>
    cases faultless
    exact .nil
  | cons own _ ih =>
    cases faultless with
    | cons first behind => exact .cons (fits_of_keyOf own first) (ih behind)

end TableStore

/-! ## Whole histories -/

/-- The table is the declared one after what the log tells. Its entries are those that were added to it and
have lasted since, each with the keys that it was added with, which are as declared, and with the call that
it was given last; each is found under the handle that was answered for it. The handles that were answered
count from zero without a gap, whatever was deleted or cleared meanwhile. -/
structure Table.Follows (L : Layout) (decl : TableDecl) (log : TableStore.Log) (t : Table) : Prop where
  name : t.name = decl.name
  entered : ∀ e, e ∈ t.entries ↔ TableStore.Entered decl.name log e.handle e.keys e.call
  live : ∀ handle, (∃ e ∈ t.entries, e.handle = handle) ↔ TableStore.Live decl.name log handle
  own : ∀ e ∈ t.entries, t.entries.find? (·.handle == e.handle) = some e
  below : ∀ e ∈ t.entries, e.handle < t.nextHandle
  handles : TableStore.givenOut decl.name log = List.range t.nextHandle
  keys : ∀ e ∈ t.entries, List.Forall₂ (KeyMatch.Fits L) decl.keys e.keys
  actions : ∀ e ∈ t.entries, e.call.action ∈ decl.actions
  defaultCall : ∀ call ∈ t.defaultCall, call.action ∈ decl.actions

namespace TableStore

variable {s s' : TableStore} {t : Table} {L : Layout} {decl : TableDecl} {decls : List TableDecl}
  {log : Log} {name : String}

/-- A table that is as the program declares it and as the log says follows the log. -/
theorem follows_of_recorded (declares : ∃ old, Declares L decl old ∧ t.schema = old.schema)
    (sound : t.Sound L) (recorded : t.Recorded log) : t.Follows L decl log := by
  obtain ⟨old, declares, schema⟩ := declares
  obtain ⟨sameName, rest⟩ := Prod.mk.inj schema
  obtain ⟨sameKeys, sameActions⟩ := Prod.mk.inj rest
  have named : t.name = decl.name := sameName.trans declares.name
  have actions : t.actions = decl.actions := sameActions.trans declares.actions
  have resolved := forall₂_of_mapM_eq_ok (sameKeys ▸ declares.keys)
  have entered := recorded.entries
  rw [named] at entered
  refine ⟨named, entered, fun handle => ?_, fun e mem => ?_, sound.fresh, named ▸ recorded.handles,
    fun e mem => ?_, actions ▸ recorded.actions, actions ▸ recorded.defaultCall⟩
  · rw [live_iff]
    constructor
    · rintro ⟨e, mem, rfl⟩
      exact ⟨e.keys, e.call, (entered e).mp mem⟩
    · rintro ⟨keys, call, lasting⟩
      exact ⟨⟨handle, keys, call⟩, (entered _).mpr lasting, rfl⟩
  · cases found : t.entries.find? (·.handle == e.handle) with
    | none => simpa using List.find?_eq_none.mp found e mem
    | some other =>
      have same : other.handle = e.handle := by simpa using List.find?_some found
      rw [sound.descending.eq_of_handle (List.mem_of_find?_eq_some found) mem same]
  · exact fits_of_faultless resolved (faultless_of_requireKeys (sound.accepted e mem))

/-- A table is found under its name, where names are distinct. -/
theorem table?_of_mem (distinct : s.NamesDistinct) (mem : t ∈ s.tables) :
    s.table? t.name = some t := by
  cases found : s.table? t.name with
  | none => simpa using List.find?_eq_none.mp found t mem
  | some other =>
    have same := List.inj_on_of_nodup_map distinct (List.mem_of_find?_eq_some found) mem
      (name_of_found found)
    rw [same]

/-- Whatever is done to the tables of a program, what is declared of them stays the same. -/
theorem schemas_of_history {s₀ : TableStore} (made : ofDecls L decls = .ok s₀)
    (history : History Operation.run s₀ log s) : s.schemas = s₀.schemas := by
  have distinct : (s₀.schemas.map (·.1)).Nodup := by
    rw [schemas, List.map_map]
    exact namesDistinct_ofDecls made
  have kept : s.NamesDistinct ∧ s.schemas = s₀.schemas :=
    history.keeps (P := fun s => s.NamesDistinct ∧ s.schemas = s₀.schemas)
      ⟨namesDistinct_ofDecls made, rfl⟩
      (fun op _ _ _ kept done => ⟨namesDistinct_run op kept.1 done, keeps_schemas distinct op kept.2 done⟩)
      fun op _ kept => run_atomic kept.1 op
  exact kept.2

/-- What is done to the tables of a program leaves them as the program declares them. -/
theorem declares_of_history {s₀ : TableStore} (made : ofDecls L decls = .ok s₀)
    (history : History Operation.run s₀ log s) :
    List.Forall₂ (fun decl t => ∃ old, Declares L decl old ∧ t.schema = old.schema) decls s.tables := by
  have declared : List.Forall₂ (fun decl schema => ∃ old, Declares L decl old ∧ schema = old.schema)
      decls s₀.schemas :=
    List.forall₂_map_right_iff.mpr
      ((tables_ofDecls made).imp fun decl old made => ⟨old, declares_of_tableOf made, rfl⟩)
  rw [← schemas_of_history made history] at declared
  exact List.forall₂_map_right_iff.mp declared

/-- The tables follow the log, one for each declaration. -/
theorem follows_of_history {s₀ : TableStore} (made : ofDecls L decls = .ok s₀)
    (history : History Operation.run s₀ log s) :
    List.Forall₂ (fun decl t => t.Follows L decl log) decls s.tables := by
  have declares := declares_of_history made history
  have sound := (sound_of_history made history).2
  have recorded := (recorded_of_history made history).2
  refine List.forall₂_iff_zip.mpr ⟨declares.length_eq, fun {decl t} paired => ?_⟩
  have mem : t ∈ s.tables := (List.of_mem_zip paired).2
  exact follows_of_recorded (List.forall₂_zip declares paired) (sound t mem) (recorded t mem)

/-- Whatever is added to the tables of a program, deleted, modified, set as a default or cleared, and
whichever of it fails: each declared table is there and follows the log, and there is no other table. The
next operation changes at most the table that it names, and nothing if it fails; the handle that it answers
has never been answered for that table before. The handles of a table count its additions, so they have 32
bits as long as there are fewer than 2 ^ 32 of these. -/
theorem tables_follow_log {d : Description} {program : Program} (loaded : Program.load d = .ok program)
    (history : History Operation.run program.tables log s) :
    (∀ decl ∈ d.tables, ∃ t, s.table? decl.name = some t ∧ t.Follows program.layout decl log) ∧
    (∀ name t, s.table? name = some t →
      ∃ decl ∈ d.tables, decl.name = name ∧ t.Follows program.layout decl log) ∧
    (∀ (op : Operation) answer s', op.run s = .ok answer s' →
      (∀ other, other ≠ op.table → s'.table? other = s.table? other) ∧
      ∀ handle ∈ answer, handle ∉ givenOut op.table log) ∧
    ∀ (op : Operation) e s', op.run s = .error e s' → s' = s := by
  have made := (Program.load_eq_ok_iff.mp loaded).tables
  obtain ⟨distinct, recorded⟩ := recorded_of_history made history
  obtain ⟨there, others⟩ := exists_of_forall₂ (follows_of_history made history)
  refine ⟨fun decl declared => ?_, fun name t found => ?_, fun op answer s' done => ⟨?_, ?_⟩,
    fun op e s' failed => run_atomic distinct op failed⟩
  · obtain ⟨t, mem, follows⟩ := there decl declared
    have found := table?_of_mem distinct mem
    rw [follows.name] at found
    exact ⟨t, found, follows⟩
  · obtain ⟨decl, declared, follows⟩ := others t (List.mem_of_find?_eq_some found)
    exact ⟨decl, declared, follows.name.symm.trans (name_of_found found), follows⟩
  · obtain ⟨t, t', -, changes, rfl⟩ := changes_of_run done
    intro other apart
    have named : t'.name = op.table := changes.name.trans changes.table.symm
    exact table?_withTable_of_ne (named ▸ apart)
  · obtain ⟨t, t', found, changes, -⟩ := changes_of_run done
    intro handle answered given
    have before := (recorded t (List.mem_of_find?_eq_some found)).handles
    rw [name_of_found found] at before
    rw [before, List.mem_range] at given
    cases changes <;> cases answered
    exact Nat.lt_irrefl _ given

/-- Two tables, one of them with a prefix among its keys. -/
def gate : Description :=
  { name := some "gate"
    headers := [⟨"ipv4", false, [⟨"dst_addr", 32⟩, ⟨"proto", 8⟩]⟩]
    parser := []
    deparser := []
    tables := aclTables ++ [⟨"quota", [⟨"ipv4.proto", .exact⟩], ["limit"], none⟩]
    checksums := [] }

/-- Both tables without entries. -/
def gateStore : TableStore :=
  ⟨aclStore.tables ++ [⟨"quota", [⟨1, 8, .exact⟩], ["limit"], [], 0, none⟩]⟩

/-- An entry is deleted, another one cleared away, and a third one gets a new call; a prefix that is too
long and a second deletion fail. The third entry has a third handle, and in the other table handles start
anew. -/
theorem tables_follow_log_gate :
    ∃ program log s acl quota, Program.load gate = .ok program ∧
      History Operation.run program.tables log s ∧
      s.table? "acl" = some acl ∧ acl.entries = [⟨2, [.lpm 0xc0000000 4, .exact 6], ⟨"deny", [9]⟩⟩] ∧
      s.table? "quota" = some quota ∧ quota.entries = [⟨0, [.exact 6], ⟨"limit", [5]⟩⟩] ∧
      givenOut "acl" log = [0, 1, 2] ∧
      (∃ decl ∈ gate.tables, decl.name = "acl" ∧ acl.Follows program.layout decl log) ∧
      (∃ decl ∈ gate.tables, decl.name = "quota" ∧ quota.Follows program.layout decl log) ∧
      ∀ answer s', (Operation.clear "acl").run s = .ok answer s' → s'.table? "quota" = some quota := by
  obtain ⟨program, loaded, tables⟩ :
      ∃ program, Program.load gate = .ok program ∧ program.tables = gateStore := ⟨_, rfl, rfl⟩
  have begun : History Operation.run program.tables [] gateStore := by
    rw [← tables]
    exact .start
  have first := begun.done (.add "acl" "permit" [.lpm 0x0a000000 8, .exact 6] [1]) rfl
  have second := first.done (.add "acl" "permit" [.lpm 0x0b000000 8, .exact 6] [2]) rfl
  have tooLong := second.failed (.add "acl" "permit" [.lpm 0 33, .exact 6] [3]) rfl
  have deleted := tooLong.done (.delete "acl" 1) rfl
  have missing := deleted.failed (.delete "acl" 1) rfl
  have limited := missing.done (.add "quota" "limit" [.exact 6] [5]) rfl
  have cleared := limited.done (.clear "acl") rfl
  have third := cleared.done (.add "acl" "permit" [.lpm 0xc0000000 4, .exact 6] [4]) rfl
  have last := third.done (.modify "acl" "deny" 2 [9]) rfl
  obtain ⟨-, follows, succeeds, -⟩ := tables_follow_log loaded last
  refine ⟨program, _, _, _, _, loaded, last, rfl, rfl, rfl, rfl, rfl, follows "acl" _ rfl,
    follows "quota" _ rfl, fun answer s' done => ?_⟩
  exact (succeeds _ answer s' done).1 "quota" (by decide)

end TableStore

end Switchyard
