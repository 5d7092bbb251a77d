import Mathlib.Data.List.Forall2
import Mathlib.Data.List.Nodup
import Switchyard.Control.Table

/-!
# Which entry answers

A key with a prefix asks for the top bits of its field, counted in the width that the layout declares,
which is the same as comparing under a mask of 128 bits. `Matches` says that all keys of an entry admit
the values they are compared with, and `Answers` which of the matching entries is to answer: the one with
the longest prefixes, and among equals the oldest. In a table whose handles descend, the scan finds that
entry.
-/

namespace Switchyard

namespace KeyMatch

/-- What a key asks of a value in a field of the given width: to be equal, or to have the same bits in
the places of the prefix. -/
def Admits (width : Nat) : KeyMatch → Nat → Prop
  | exact wanted, value => value = wanted
  | lpm wanted prefixLen, value =>
    ∀ i, width - prefixLen ≤ i → i < width → value.testBit i = wanted.testBit i

/-- The length of the prefix; an exact key has none. -/
def prefixLength : KeyMatch → Nat
  | exact _ => 0
  | lpm _ prefixLen => prefixLen

/-- The length of all prefixes together. -/
def totalPrefix (keys : List KeyMatch) : Nat :=
  keys.foldr (fun key total => key.prefixLength + total) 0

variable {width prefixLen value wanted score : Nat} {key : KeyMatch}

theorem testBit_topBits (width prefixLen value i : Nat) :
    (topBits width prefixLen value).testBit i =
      (decide (width - prefixLen + i < width) && value.testBit (width - prefixLen + i)) := by
  simp only [topBits, Nat.pow_eq]
  rw [Nat.testBit_div_two_pow, Nat.testBit_mod_two_pow, Nat.add_comm i]

/-- Top bits are equal as numbers if they are equal bit by bit. -/
theorem topBits_eq_iff : topBits width prefixLen wanted = topBits width prefixLen value ↔
    ∀ i, width - prefixLen ≤ i → i < width → value.testBit i = wanted.testBit i := by
  constructor
  · intro same i low high
    have bit := congrArg (Nat.testBit · (i - (width - prefixLen))) same
    simp only [testBit_topBits, Nat.add_sub_cancel' low, high, decide_true, Bool.true_and] at bit
    exact bit.symm
  · intro bits
    apply Nat.eq_of_testBit_eq
    intro i
    rw [testBit_topBits, testBit_topBits]
    by_cases inside : width - prefixLen + i < width
    · rw [bits _ (Nat.le_add_right _ _) inside]
    · simp only [inside, decide_false, Bool.false_and]

/-- A key that matches earns the length of its prefix. -/
theorem score?_eq_some :
    key.score? width value = some score ↔ key.Admits width value ∧ score = key.prefixLength := by
  cases key with
  | exact wanted => simp [score?, Admits, prefixLength, eq_comm]
  | lpm wanted prefixLen =>
    simp only [score?, Admits, prefixLength]
    rw [← topBits_eq_iff]
    split
    case isTrue same => simp [same, eq_comm]
    case isFalse different => simp [different]

/-! ## Prefixes as masks -/

/-- The ones of a number of low bits, in a word of 128 bits. -/
def lowOnes (count : Nat) : BitVec 128 := (1#128 <<< count) - 1#128

/-- The mask of a prefix in a field of the given width, in a word of 128 bits. -/
def prefixMask (width prefixLen : Nat) : BitVec 128 :=
  lowOnes width &&& ~~~lowOnes (width - prefixLen)

theorem lowOnes_eq (count : Nat) :
    lowOnes count = BitVec.ofNat 128 (Nat.pow 2 (min count 128) - 1) := by
  simp only [Nat.pow_eq]
  by_cases inside : count < 128
  · have bound : 2 ^ count < 2 ^ 128 := Nat.pow_lt_pow_right (by decide) inside
    have positive : 0 < 2 ^ count := Nat.pow_pos (by decide)
    have shifted : (1#128 <<< count).toNat = 2 ^ count := by
      have one : 1 % 2 ^ 128 = 1 := rfl
      rw [BitVec.toNat_shiftLeft, BitVec.toNat_ofNat, Nat.shiftLeft_eq, one, Nat.one_mul,
        Nat.mod_eq_of_lt bound]
    apply BitVec.eq_of_toNat_eq
    rw [lowOnes, BitVec.toNat_sub, shifted, BitVec.toNat_ofNat, BitVec.toNat_ofNat,
      Nat.min_eq_left (Nat.le_of_lt inside)]
    omega
  · rw [lowOnes, BitVec.shiftLeft_eq_zero (by omega), Nat.min_eq_right (by omega)]
    rfl

theorem getLsbD_lowOnes {count i : Nat} (inside : i < 128) :
    (lowOnes count).getLsbD i = decide (i < count) := by
  rw [lowOnes_eq, BitVec.getLsbD_ofNat, Nat.pow_eq, Nat.testBit_two_pow_sub_one]
  simp only [inside, decide_true, Bool.true_and, Nat.lt_min, and_true]

/-- Comparing under the mask of a prefix is comparing the bits of the prefix. -/
theorem admits_lpm_iff_masked (narrow : width ≤ 128) :
    (lpm wanted prefixLen).Admits width value ↔
      BitVec.ofNat 128 value &&& prefixMask width prefixLen =
        BitVec.ofNat 128 wanted &&& prefixMask width prefixLen := by
  have bit : ∀ (x : Nat) {i : Nat}, i < 128 →
      (BitVec.ofNat 128 x &&& prefixMask width prefixLen).getLsbD i =
        (x.testBit i && decide (i < width ∧ width - prefixLen ≤ i)) := by
    intro x i inside
    simp only [prefixMask, BitVec.getLsbD_and, BitVec.getLsbD_not, getLsbD_lowOnes inside,
      BitVec.getLsbD_ofNat, inside, decide_true, Bool.true_and, Bool.decide_and, ← decide_not,
      Nat.not_lt]
  constructor
  · intro admits
    apply BitVec.eq_of_getLsbD_eq
    intro i inside
    rw [bit value inside, bit wanted inside]
    by_cases within : i < width ∧ width - prefixLen ≤ i
    · rw [admits i within.2 within.1]
    · rw [decide_eq_false within, Bool.and_false, Bool.and_false]
  · intro same i low high
    have inside : i < 128 := Nat.lt_of_lt_of_le high narrow
    have own := congrArg (BitVec.getLsbD · i) same
    simp only [bit value inside, bit wanted inside, high, low, and_self, decide_true,
      Bool.and_true] at own
    exact own

end KeyMatch

namespace Table

open KeyMatch

variable {L : Layout} {t : Table} {specs : List TableKey} {keys : List KeyMatch} {values : List Nat}
  {e other : TableEntry} {entries : List TableEntry} {score : Nat}

/-- Keys admit values, position by position, in the widths that the layout declares. -/
def Agree (L : Layout) (specs : List TableKey) (keys : List KeyMatch) (values : List Nat) : Prop :=
  List.Forall₂ (fun key at_ => KeyMatch.Admits (L.width at_.1.field) key at_.2) keys (specs.zip values)

/-- The entry matches the values: each of its keys admits the value it is compared with. -/
def Matches (t : Table) (L : Layout) (values : List Nat) (e : TableEntry) : Prop :=
  Agree L t.keys e.keys values

theorem totalScore?_eq_some (widths : ∀ spec ∈ specs, spec.width = L.width spec.field)
    (keyCount : keys.length = specs.length) (valueCount : values.length = specs.length) :
    totalScore? specs keys values = some score ↔
      Agree L specs keys values ∧ score = totalPrefix keys := by
  induction specs generalizing keys values score with
  | nil =>
    obtain rfl := List.eq_nil_of_length_eq_zero keyCount
    simp [totalScore?, Agree, totalPrefix, eq_comm (a := score)]
  | cons spec specs ih =>
    cases keys with
    | nil => simp at keyCount
    | cons key keys =>
      cases values with
      | nil => simp at valueCount
      | cons value values =>
        have own : spec.width = L.width spec.field := widths spec List.mem_cons_self
        have rest := fun n => @ih keys values n
          (fun other member => widths other (List.mem_cons_of_mem _ member))
          (Nat.succ.inj keyCount) (Nat.succ.inj valueCount)
        simp only [totalScore?, Option.bind_eq_bind, Option.bind_eq_some_iff, Option.pure_def,
          Option.some.injEq, score?_eq_some, rest, own]
        simp only [Agree, List.zip_cons_cons, List.forall₂_cons, totalPrefix, List.foldr_cons]
        constructor
        · rintro ⟨_, ⟨admits, rfl⟩, _, ⟨agree, rfl⟩, rfl⟩
          exact ⟨⟨admits, agree⟩, rfl⟩
        · rintro ⟨⟨admits, agree⟩, rfl⟩
          exact ⟨_, ⟨admits, rfl⟩, _, ⟨agree, rfl⟩, rfl⟩

/-- The entry that is to answer for the values. -/
structure Answers (t : Table) (L : Layout) (values : List Nat) (e : TableEntry) : Prop where
  mem : e ∈ t.entries
  matching : t.Matches L values e
  longest : ∀ other ∈ t.entries, t.Matches L values other → totalPrefix other.keys ≤ totalPrefix e.keys
  oldest : ∀ other ∈ t.entries, t.Matches L values other →
    totalPrefix other.keys = totalPrefix e.keys → e.handle ≤ other.handle

/-- Handles descend: newer entries stand in front of older ones. -/
def Descending (entries : List TableEntry) : Prop :=
  entries.Pairwise fun newer older => older.handle < newer.handle

/-- Descending handles are distinct. -/
theorem Descending.eq_of_handle (descending : Descending entries) (mem : e ∈ entries)
    (otherMem : other ∈ entries) (same : e.handle = other.handle) : e = other := by
  have distinct : (entries.map (·.handle)).Nodup :=
    List.pairwise_map.mpr (descending.imp fun older => Nat.ne_of_gt older)
  exact List.inj_on_of_nodup_map distinct mem otherMem same

/-- No two entries are to answer. -/
theorem Answers.unique (descending : Descending t.entries) (answers : t.Answers L values e)
    (otherAnswers : t.Answers L values other) : other = e := by
  have shorter := answers.longest other otherAnswers.mem otherAnswers.matching
  have longer := otherAnswers.longest e answers.mem answers.matching
  have same := Nat.le_antisymm shorter longer
  have older := answers.oldest other otherAnswers.mem otherAnswers.matching same
  have newer := otherAnswers.oldest e answers.mem answers.matching same.symm
  exact descending.eq_of_handle otherAnswers.mem answers.mem (Nat.le_antisymm newer older)

/-! ## The scan -/

/-- The score of an entry, if it matches. -/
def scoreOf? (t : Table) (values : List Nat) (e : TableEntry) : Option Nat :=
  totalScore? t.keys e.keys values

/-- What the scan may have come to behind some entries: nothing if none of them matches, else one with
the best score and the smallest handle of those that have it. -/
def Best (t : Table) (values : List Nat) (entries : List TableEntry) :
    Option (Nat × TableEntry) → Prop
  | none => ∀ e ∈ entries, t.scoreOf? values e = none
  | some (score, e) => e ∈ entries ∧ t.scoreOf? values e = some score ∧
      ∀ other ∈ entries, ∀ n ∈ t.scoreOf? values other,
        n < score ∨ n = score ∧ e.handle ≤ other.handle

theorem better_of_none {best : Option (Nat × TableEntry)} (missed : t.scoreOf? values e = none) :
    t.better values e best = best := by
  rw [scoreOf?] at missed
  simp only [better, missed]

/-- A match in front of older entries wins if it is the only one or has more than the best of them. -/
theorem better_of_some {best : Option (Nat × TableEntry)} (scored : t.scoreOf? values e = some score) :
    t.better values e best =
      if best.all (·.1 < score) then some (score, e) else best := by
  rw [scoreOf?] at scored
  cases best with
  | none => simp [better, scored]
  | some best => simp [better, scored]

/-- One more entry, newer than those before it. -/
theorem Best.cons {new : TableEntry} {best : Option (Nat × TableEntry)}
    (behind : t.Best values entries best) (newest : ∀ old ∈ entries, old.handle < new.handle) :
    t.Best values (new :: entries) (t.better values new best) := by
  cases scored : t.scoreOf? values new with
  | none =>
    rw [better_of_none scored]
    cases best with
    | none => exact List.forall_mem_cons.mpr ⟨scored, behind⟩
    | some best =>
      obtain ⟨mem, own, most⟩ := behind
      exact ⟨List.mem_cons_of_mem _ mem, own, List.forall_mem_cons.mpr ⟨by simp [scored], most⟩⟩
  | some score =>
    rw [better_of_some scored]
    have itself : ∀ n ∈ t.scoreOf? values new, n < score ∨ n = score ∧ new.handle ≤ new.handle := by
      simp [scored]
    cases best with
    | none =>
      have others : ∀ old ∈ entries, ∀ n ∈ t.scoreOf? values old,
          n < score ∨ n = score ∧ new.handle ≤ old.handle := by
        intro old mem n oldScore
        simp [behind old mem] at oldScore
      exact ⟨List.mem_cons_self, scored, List.forall_mem_cons.mpr ⟨itself, others⟩⟩
    | some best =>
      obtain ⟨bestScore, e⟩ := best
      obtain ⟨mem, own, most⟩ := behind
      by_cases higher : bestScore < score
      · have others : ∀ old ∈ entries, ∀ n ∈ t.scoreOf? values old,
            n < score ∨ n = score ∧ new.handle ≤ old.handle := by
          intro old oldMem n oldScore
          have bound := most old oldMem n oldScore
          exact .inl (by omega)
        rw [if_pos (by simpa using higher)]
        exact ⟨List.mem_cons_self, scored, List.forall_mem_cons.mpr ⟨itself, others⟩⟩
      · have older := newest e mem
        have lower : ∀ n ∈ t.scoreOf? values new,
            n < bestScore ∨ n = bestScore ∧ e.handle ≤ new.handle := by
          simp only [scored, Option.mem_some_iff]
          rintro _ rfl
          omega
        rw [if_neg (by simpa using higher)]
        exact ⟨List.mem_cons_of_mem _ mem, own, List.forall_mem_cons.mpr ⟨lower, most⟩⟩

theorem best_foldr (descending : Descending entries) :
    t.Best values entries (entries.foldr (t.better values) none) := by
  induction entries with
  | nil => exact List.forall_mem_nil _
  | cons new entries ih =>
    obtain ⟨newest, rest⟩ := List.pairwise_cons.mp descending
    exact (ih rest).cons newest

end Table

end Switchyard
