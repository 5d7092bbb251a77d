import Switchyard.Proofs.Control.Entries

/-!
# The order of additions

A lookup prefers the older one of two entries that match with equally long prefixes, so in general it
matters in which order entries were added. It does not in a table with at most one prefix among its keys,
if its entries differ in more than the bits that their prefixes leave open: of two such entries with
equally long prefixes at most one matches. `normal` drops the bits that are left open, `eq_of_tie` says
that there are no ties, and `Alike.lookup_eq` that tables with the same additions behind them answer alike.
-/

namespace Switchyard

open Sequencing

namespace KeyMatch

variable {width value : Nat} {spec : TableKey} {key other : KeyMatch}

/-- The key without the bits that its prefix leaves open. -/
def normal (width : Nat) : KeyMatch → KeyMatch
  | exact value => exact value
  | lpm value prefixLen => lpm (topBits width prefixLen value) prefixLen

theorem totalPrefix_cons (key : KeyMatch) (keys : List KeyMatch) :
    totalPrefix (key :: keys) = key.prefixLength + totalPrefix keys := rfl

/-- A key without a fault is of the declared kind. -/
theorem kind_of_faultless (faultless : key.fault? spec = none) :
    (spec.kind = .exact ∧ ∃ value, key = exact value) ∨
      spec.kind = .lpm ∧ ∃ value prefixLen, key = lpm value prefixLen := by
  cases key with
  | exact value =>
    cases kind : spec.kind with
    | exact => exact .inl ⟨rfl, value, rfl⟩
    | lpm => simp [fault?, kind] at faultless
  | lpm value prefixLen =>
    cases kind : spec.kind with
    | exact => simp [fault?, kind] at faultless
    | lpm => exact .inr ⟨rfl, value, prefixLen, rfl⟩

theorem prefixLength_eq_zero (faultless : key.fault? spec = none) (kind : spec.kind ≠ .lpm) :
    key.prefixLength = 0 := by
  rcases kind_of_faultless faultless with ⟨-, value, rfl⟩ | ⟨lpm, -⟩
  · rfl
  · exact absurd lpm kind

/-- Keys of one kind with equally long prefixes that admit the same value differ at most in bits that are
left open. -/
theorem normal_eq_of_admits (faultless : key.fault? spec = none) (otherFaultless : other.fault? spec = none)
    (admits : key.Admits width value) (otherAdmits : other.Admits width value)
    (same : key.prefixLength = other.prefixLength) : key.normal width = other.normal width := by
  rcases kind_of_faultless faultless, kind_of_faultless otherFaultless with
    ⟨⟨exact, wanted, rfl⟩ | ⟨lpm, wanted, prefixLen, rfl⟩,
      ⟨otherExact, otherWanted, rfl⟩ | ⟨otherLpm, otherWanted, otherLen, rfl⟩⟩
  · obtain rfl : value = wanted := admits
    obtain rfl : value = otherWanted := otherAdmits
    rfl
  · cases exact.symm.trans otherLpm
  · cases lpm.symm.trans otherExact
  · obtain rfl : prefixLen = otherLen := same
    rw [normal, normal, topBits_eq_iff.mpr admits, ← topBits_eq_iff.mpr otherAdmits]

end KeyMatch

/-- What is added to a table: keys, and the call for what they match. -/
structure Addition where
  keys : List KeyMatch
  call : ActionCall
  deriving DecidableEq

/-- The addition that an entry comes from, which does not tell its handle. -/
def TableEntry.addition (e : TableEntry) : Addition := ⟨e.keys, e.call⟩

namespace Table

open TableStore (Faultless faultless_of_requireKeys)

variable {L : Layout} {t u : Table} {specs : List TableKey} {keys otherKeys : List KeyMatch}
  {values : List Nat} {e other : TableEntry} {new : Addition} {additions others : List Addition}

/-- The number of prefixes among keys. -/
def prefixCount (specs : List TableKey) : Nat := specs.countP (·.kind = .lpm)

/-- Keys without the bits that their prefixes leave open. -/
def normalKeys (specs : List TableKey) (keys : List KeyMatch) : List KeyMatch :=
  List.zipWith (fun spec key => key.normal spec.width) specs keys

/-- No two entries of the table differ only in bits that their prefixes leave open. -/
def EntriesDistinct (t : Table) : Prop := (t.entries.map fun e => normalKeys t.keys e.keys).Nodup

/-! ## Ties -/

theorem prefixCount_cons (spec : TableKey) (specs : List TableKey) :
    prefixCount (spec :: specs) = prefixCount specs + if spec.kind = .lpm then 1 else 0 := by
  simp only [prefixCount, List.countP_cons, decide_eq_true_eq]

theorem totalPrefix_eq_zero (exact : prefixCount specs = 0)
    (faultless : Faultless specs keys) : KeyMatch.totalPrefix keys = 0 := by
  induction faultless with
  | nil => rfl
  | @cons spec key specs keys own _ ih =>
    rw [prefixCount_cons] at exact
    by_cases kind : spec.kind = .lpm
    · rw [if_pos kind] at exact
      cases exact
    · rw [if_neg kind] at exact
      rw [KeyMatch.totalPrefix_cons, ih exact, KeyMatch.prefixLength_eq_zero own kind]

/-- Where there is at most one prefix, its length is the whole score. -/
theorem lengths_of_tie {spec : TableKey} {key other : KeyMatch} (single : prefixCount (spec :: specs) ≤ 1)
    (faultless : Faultless (spec :: specs) (key :: keys))
    (othersFaultless : Faultless (spec :: specs) (other :: otherKeys))
    (tie : KeyMatch.totalPrefix (key :: keys) = KeyMatch.totalPrefix (other :: otherKeys)) :
    key.prefixLength = other.prefixLength ∧
      KeyMatch.totalPrefix keys = KeyMatch.totalPrefix otherKeys := by
  obtain ⟨own, rest⟩ := List.forall₂_cons.mp faultless
  obtain ⟨otherOwn, othersRest⟩ := List.forall₂_cons.mp othersFaultless
  rw [prefixCount_cons] at single
  rw [KeyMatch.totalPrefix_cons, KeyMatch.totalPrefix_cons] at tie
  by_cases kind : spec.kind = .lpm
  · rw [if_pos kind] at single
    have exact : prefixCount specs = 0 := by omega
    rw [totalPrefix_eq_zero exact rest, totalPrefix_eq_zero exact othersRest] at tie ⊢
    exact ⟨tie, rfl⟩
  · have zero := KeyMatch.prefixLength_eq_zero own kind
    have otherZero := KeyMatch.prefixLength_eq_zero otherOwn kind
    omega

/-- Keys that agree with the same values and have the same score differ at most in bits that are left
open, where there is at most one prefix among them. -/
theorem normalKeys_eq_of_agree (widths : ∀ spec ∈ specs, spec.width = L.width spec.field)
    (single : prefixCount specs ≤ 1) (faultless : Faultless specs keys)
    (othersFaultless : Faultless specs otherKeys)
    (agree : Agree L specs keys values) (othersAgree : Agree L specs otherKeys values)
    (tie : KeyMatch.totalPrefix keys = KeyMatch.totalPrefix otherKeys) :
    normalKeys specs keys = normalKeys specs otherKeys := by
  -- place by place; behind a place there are at most as many prefixes as from it on
  induction faultless generalizing otherKeys values with
  | nil => rfl
  | @cons spec key specs keys own rest ih =>
    cases othersFaultless with
    | @cons _ other _ otherKeys otherOwn othersRest =>
      cases values with
      | nil => cases agree
      | cons value values =>
        obtain ⟨sameLength, restTie⟩ := lengths_of_tie single (.cons own rest) (.cons otherOwn othersRest) tie
        have fewer : prefixCount specs ≤ 1 := by
          rw [prefixCount_cons] at single
          omega
        obtain ⟨width, restWidths⟩ := List.forall_mem_cons.mp widths
        obtain ⟨admits, agree⟩ := List.forall₂_cons.mp agree
        obtain ⟨otherAdmits, othersAgree⟩ := List.forall₂_cons.mp othersAgree
        rw [← width] at admits otherAdmits
        have first := KeyMatch.normal_eq_of_admits own otherOwn admits otherAdmits sameLength
        exact congrArg₂ List.cons first (ih restWidths fewer othersRest agree othersAgree restTie)

/-- Two entries that match the same values with the same score are the same. -/
theorem eq_of_tie (sound : t.Sound L) (single : prefixCount t.keys ≤ 1) (distinct : t.EntriesDistinct)
    (mem : e ∈ t.entries) (otherMem : other ∈ t.entries)
    (matching : t.Matches L values e) (otherMatching : t.Matches L values other)
    (tie : KeyMatch.totalPrefix other.keys = KeyMatch.totalPrefix e.keys) : other = e := by
  have faultless := faultless_of_requireKeys (sound.accepted e mem)
  have otherFaultless := faultless_of_requireKeys (sound.accepted other otherMem)
  exact List.inj_on_of_nodup_map distinct otherMem mem
    (normalKeys_eq_of_agree sound.widths single otherFaultless faultless otherMatching matching tie)

/-! ## The same additions in another order -/

/-- The tables compare the same fields, have the same default call, and their entries come from the same
additions, in whatever order. -/
structure Alike (t u : Table) : Prop where
  keys : u.keys = t.keys
  defaultCall : u.defaultCall = t.defaultCall
  additions : (u.entries.map (·.addition)).Perm (t.entries.map (·.addition))

namespace Alike

theorem symm (alike : t.Alike u) : u.Alike t :=
  ⟨alike.keys.symm, alike.defaultCall.symm, alike.additions.symm⟩

theorem matches_iff (alike : t.Alike u) {values : List Nat} {e twin : TableEntry}
    (same : twin.addition = e.addition) : u.Matches L values twin ↔ t.Matches L values e := by
  rw [Matches, Matches, alike.keys, (Addition.mk.inj same).1]

/-- Every entry has a twin in the other table. -/
theorem twin (alike : t.Alike u) (mem : e ∈ t.entries) :
    ∃ twin ∈ u.entries, twin.addition = e.addition :=
  List.mem_map.mp (alike.additions.mem_iff.mpr (List.mem_map_of_mem mem))

/-- The twin of the entry that is to answer is to answer. -/
theorem answers (alike : t.Alike u) (sound : u.Sound L) (single : prefixCount u.keys ≤ 1)
    (distinct : u.EntriesDistinct) (answers : t.Answers L values e) :
    ∃ twin, u.Answers L values twin ∧ twin.call = e.call := by
  obtain ⟨twin, mem, same⟩ := alike.twin answers.mem
  obtain ⟨sameKeys, sameCall⟩ := Addition.mk.inj same
  have matching : u.Matches L values twin := (alike.matches_iff same).mpr answers.matching
  refine ⟨twin, ⟨mem, matching, ?longest, ?oldest⟩, sameCall⟩
  case longest =>
    intro other otherMem otherMatching
    obtain ⟨old, oldMem, oldSame⟩ := alike.symm.twin otherMem
    have oldMatching := (alike.symm.matches_iff oldSame).mpr otherMatching
    rw [sameKeys, ← (Addition.mk.inj oldSame).1]
    exact answers.longest old oldMem oldMatching
  case oldest =>
    intro other otherMem otherMatching tie
    have itself := eq_of_tie sound single distinct mem otherMem matching otherMatching tie
    exact Nat.le_of_eq (congrArg TableEntry.handle itself.symm)

theorem lookup_eq (alike : t.Alike u) (sound : t.Sound L) (otherSound : u.Sound L)
    (single : prefixCount u.keys ≤ 1) (distinct : u.EntriesDistinct)
    (arity : values.length = t.keys.length) : t.lookup values = u.lookup values := by
  refine (decides_iff otherSound (alike.keys ▸ arity)).mp ?_
  rcases t.lookup_decides sound arity with ⟨e, answers, called⟩ | ⟨missed, called⟩
  · obtain ⟨twin, twinAnswers, sameCall⟩ := alike.answers otherSound single distinct answers
    exact .inl ⟨twin, twinAnswers, by rw [called, sameCall]⟩
  · refine .inr ⟨fun e mem matching => ?_, called.trans alike.defaultCall.symm⟩
    obtain ⟨old, oldMem, same⟩ := alike.symm.twin mem
    exact missed old oldMem ((alike.symm.matches_iff same).mpr matching)

end Alike

/-! ## Adding one after another -/

/-- The addition passes the checks of the table. -/
def Accepts (t : Table) (new : Addition) : Prop :=
  new.call.action ∈ t.actions ∧ t.requireKeys new.keys = .ok ()

/-- The table with one more entry. -/
def insert (t : Table) (new : Addition) : Table :=
  { t with entries := ⟨t.nextHandle, new.keys, new.call⟩ :: t.entries, nextHandle := t.nextHandle + 1 }

/-- What is left when additions have been made to a table one after another. -/
theorem foldl_insert (t : Table) (additions : List Addition) :
    (additions.foldl insert t).keys = t.keys ∧
      (additions.foldl insert t).defaultCall = t.defaultCall ∧
      (additions.foldl insert t).entries.map (·.addition) =
        additions.reverse ++ t.entries.map (·.addition) := by
  induction additions generalizing t with
  | nil => exact ⟨rfl, rfl, rfl⟩
  | cons new additions ih =>
    obtain ⟨keys, defaultCall, entries⟩ := ih (t.insert new)
    refine ⟨keys, defaultCall, ?_⟩
    rw [List.foldl_cons, entries, List.reverse_cons, List.append_assoc]
    rfl

theorem alike_foldl_insert (t : Table) (perm : additions.Perm others) :
    (additions.foldl insert t).Alike (others.foldl insert t) := by
  obtain ⟨keys, defaultCall, entries⟩ := t.foldl_insert additions
  obtain ⟨othersKeys, othersDefault, othersEntries⟩ := t.foldl_insert others
  refine ⟨othersKeys.trans keys.symm, othersDefault.trans defaultCall.symm, ?_⟩
  rw [entries, othersEntries]
  have reversed := (List.reverse_perm others).trans (perm.symm.trans (List.reverse_perm additions).symm)
  exact reversed.append_right _

/-- Additions to an empty table that differ in more than the bits that are left open make entries that do
so too. -/
theorem distinct_foldl_insert (empty : t.entries = [])
    (distinct : (additions.map fun new => normalKeys t.keys new.keys).Nodup) :
    (additions.foldl insert t).EntriesDistinct := by
  obtain ⟨keys, -, entries⟩ := t.foldl_insert additions
  have normal : ((additions.foldl insert t).entries.map fun e => normalKeys t.keys e.keys) =
      (additions.map fun new => normalKeys t.keys new.keys).reverse := by
    rw [← List.map_reverse, ← List.append_nil additions.reverse, ← List.map_nil, ← empty, ← entries,
      List.map_map]
    rfl
  rw [EntriesDistinct, keys, normal]
  exact List.nodup_reverse.mpr distinct

theorem Sound.foldl_insert (sound : t.Sound L) (accepted : ∀ new ∈ additions, t.Accepts new) :
    (additions.foldl insert t).Sound L := by
  induction additions generalizing t with
  | nil => exact sound
  | cons new additions ih =>
    obtain ⟨own, others⟩ := List.forall_mem_cons.mp accepted
    exact ih (sound.add own.2 new.call) others

end Table

namespace TableStore

variable {s : TableStore} {t : Table} {name : String} {new : Addition} {additions others : List Addition}

/-- Adds one entry after another to a table, and answers their handles. -/
def addAll (name : String) (additions : List Addition) : TableM (List Nat) :=
  additions.mapM fun new => add name new.call.action new.keys new.call.args

theorem add_eq_ok (found : s.table? name = some t) (accepted : t.Accepts new) :
    add name new.call.action new.keys new.call.args s = .ok t.nextHandle (s.withTable (t.insert new)) := by
  have known : t.requireAction new.call.action = .ok () := if_pos accepted.1
  refine (looksUp_requireTable name).bind_eq_ok.mpr ⟨t, found, ?_⟩
  refine ofExcept_bind_eq_ok.mpr ⟨(), known, ofExcept_bind_eq_ok.mpr ⟨(), accepted.2, ?_⟩⟩
  exact state_bind_eq_ok.mpr ⟨(), _, modify_eq_ok.mpr rfl, state_pure_eq_ok.mpr ⟨rfl, rfl⟩⟩

/-- Additions that the table accepts are all made. -/
theorem addAll_eq_ok (found : s.table? name = some t) (accepted : ∀ new ∈ additions, t.Accepts new) :
    ∃ handles s', addAll name additions s = .ok handles s' ∧
      s'.table? name = some (additions.foldl Table.insert t) := by
  induction additions generalizing s t with
  | nil => exact ⟨[], s, rfl, found⟩
  | cons new additions ih =>
    obtain ⟨own, others⟩ := List.forall_mem_cons.mp accepted
    have put : (s.withTable (t.insert new)).table? name = some (t.insert new) := by
      rw [table?_withTable, found]
      exact congrArg some (if_pos rfl)
    obtain ⟨handles, s', done, left⟩ := ih put others
    refine ⟨t.nextHandle :: handles, s', ?_, left⟩
    rw [addAll, List.mapM_cons, state_bind_of_ok (add_eq_ok found own)]
    rw [← addAll, state_bind_of_ok done]
    rfl

/-- The tables of a program have no entries at first. -/
theorem entries_of_load {d : Description} {program : Program} (loaded : Program.load d = .ok program) :
    ∀ t ∈ program.tables.tables, t.entries = [] :=
  forall_of_ofDecls (fun _ _ made => (declares_of_tableOf made).entries) (Program.load_eq_ok_iff.mp loaded).tables

/-- In a table with at most one prefix among its keys it makes no difference in which order entries are
added, as long as no two of them have the same values for the exact keys, a prefix of the same length
and the same bits in it: all orders succeed, and every lookup answers alike behind them. -/
theorem lookup_addAll_perm {d : Description} {program : Program} (loaded : Program.load d = .ok program)
    (found : program.tables.table? name = some t) (single : Table.prefixCount t.keys ≤ 1)
    (accepted : ∀ new ∈ additions, t.Accepts new)
    (distinct : (additions.map fun new => Table.normalKeys t.keys new.keys).Nodup)
    (perm : additions.Perm others) :
    ∃ handles s handles' s', addAll name additions program.tables = .ok handles s ∧
      addAll name others program.tables = .ok handles' s' ∧
      ∀ values, values.length = t.keys.length → s.lookup name values = s'.lookup name values := by
  have othersAccepted : ∀ new ∈ others, t.Accepts new :=
    fun new mem => accepted new (perm.mem_iff.mpr mem)
  obtain ⟨handles, s, done, left⟩ := addAll_eq_ok found accepted
  obtain ⟨handles', s', othersDone, othersLeft⟩ := addAll_eq_ok found othersAccepted
  refine ⟨handles, s, handles', s', done, othersDone, fun values arity => ?_⟩
  have sound := (Program.allSound_of_load loaded).of_found found
  have empty := entries_of_load loaded t (List.mem_of_find?_eq_some found)
  have othersDistinct := Table.distinct_foldl_insert empty ((perm.map _).nodup_iff.mp distinct)
  obtain ⟨keys, -, -⟩ := t.foldl_insert additions
  obtain ⟨othersKeys, -, -⟩ := t.foldl_insert others
  rw [lookup, lookup, left, othersLeft]
  exact (t.alike_foldl_insert perm).lookup_eq (sound.foldl_insert accepted)
    (sound.foldl_insert othersAccepted) (othersKeys ▸ single) othersDistinct (keys ▸ arity)

/-- A prefix, a longer one under it that is written with bits of its own behind, and the first one again
for another protocol. -/
def aclRules : List Addition :=
  [⟨[.lpm 0x0a000000 8, .exact 6], ⟨"permit", [1]⟩⟩, ⟨[.lpm 0x0a0001ff 24, .exact 6], ⟨"deny", [2]⟩⟩,
    ⟨[.lpm 0x0a000000 8, .exact 17], ⟨"permit", [3]⟩⟩]

/-- The rules in two orders. A packet that two of them match gets the call of the longer prefix, whether
it was added before the shorter one or after it. -/
theorem lookup_addAll_perm_acl :
    ∃ program acl handles s handles' s', Program.load gate = .ok program ∧
      program.tables.table? "acl" = some acl ∧
      addAll "acl" aclRules program.tables = .ok handles s ∧
      addAll "acl" aclRules.reverse program.tables = .ok handles' s' ∧
      (∀ values, values.length = acl.keys.length →
        s.lookup "acl" values = s'.lookup "acl" values) ∧
      s.lookup "acl" [0x0a000105, 6] = some ⟨"deny", [2]⟩ := by
  obtain ⟨program, loaded, tables⟩ :
      ∃ program, Program.load gate = .ok program ∧ program.tables = gateStore := ⟨_, rfl, rfl⟩
  obtain ⟨acl, found, same⟩ : ∃ acl, program.tables.table? "acl" = some acl ∧
      aclStore.table? "acl" = some acl := by
    rw [tables]
    exact ⟨_, rfl, rfl⟩
  have single : Table.prefixCount acl.keys ≤ 1 := by
    cases same
    decide
  have accepted : ∀ new ∈ aclRules, acl.Accepts new := by
    cases same
    simp only [aclRules, List.forall_mem_cons]
    exact ⟨⟨by decide, rfl⟩, ⟨by decide, rfl⟩, ⟨by decide, rfl⟩, List.forall_mem_nil _⟩
  have distinct : (aclRules.map fun new => Table.normalKeys acl.keys new.keys).Nodup := by
    cases same
    decide
  obtain ⟨handles, s, handles', s', done, othersDone, alike⟩ :=
    lookup_addAll_perm loaded found single accepted distinct (List.reverse_perm _).symm
  refine ⟨program, acl, handles, s, handles', s', loaded, found, done, othersDone, alike, ?_⟩
  rw [tables] at done
  cases done
  decide

end TableStore

end Switchyard
