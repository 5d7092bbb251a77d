import Switchyard.Numeral
import Switchyard.Text

/-!
# The grammar of numerals

A numeral is at least one digit, and spells the number that the digits make by their places. What is read is
the number that is spelled, behind at most one plus sign. The digits of a number, as it is written, spell
that number, and without leading zeros nothing else does.
-/

namespace Switchyard

namespace Numeral

variable {radix d n bound : Nat} {c : Char} {text : List Char}

/-- The character is the digit of a value, in a radix of at most sixteen; letters stand in either case. -/
def IsDigit (radix : Nat) (c : Char) (d : Nat) : Prop :=
  d < radix ∧ (c = d.digitChar ∨ c = d.digitChar.toUpper)

/-- At least one digit, and the number that they spell. -/
inductive Spells (radix : Nat) : List Char → Nat → Prop where
  | single {c : Char} {d : Nat} (last : IsDigit radix c d) : Spells radix [c] d
  | concat {text : List Char} {n : Nat} {c : Char} {d : Nat} (front : Spells radix text n)
      (last : IsDigit radix c d) : Spells radix (text ++ [c]) (n * radix + d)

/-- The same, behind a plus sign or not. -/
def Signed (radix : Nat) (text : List Char) (n : Nat) : Prop :=
  ∃ digits, (text = digits ∨ text = '+' :: digits) ∧ Spells radix digits n

/-! ## Digits -/

/-- The figures stand together in the order of their values, and so do the letters in each case. -/
theorem isDigit_of_digit? (small : radix ≤ 16) (taken : digit? radix c = some d) : IsDigit radix c d := by
  have order (d e : Char) : d ≤ e ↔ d.toNat ≤ e.toNat := Iff.rfl
  have codes : '0'.toNat = 48 ∧ '9'.toNat = 57 ∧ 'a'.toNat = 97 ∧ 'z'.toNat = 122 ∧
      'A'.toNat = 65 ∧ 'Z'.toNat = 90 := by
    decide
  obtain ⟨zero, nine, a, z, A, Z⟩ := codes
  have figures : ∀ d < 10, Char.ofNat (d + 48) = d.digitChar := by decide
  have letters : ∀ d < 16, 10 ≤ d → Char.ofNat (d + 87) = d.digitChar ∧
      Char.ofNat (d + 55) = d.digitChar.toUpper := by
    decide
  simp only [digit?, order, zero, nine, a, z, A, Z, Option.ite_none_right_eq_some,
    Option.some.injEq] at taken
  obtain ⟨below, value⟩ := taken
  rw [value] at below
  refine ⟨below, ?_⟩
  split at value
  case isTrue figure =>
    have code : c.toNat = d + 48 := by omega
    rw [← figures d (by omega), ← code]
    exact .inl (Char.ofNat_toNat c).symm
  case isFalse =>
    split at value
    case isTrue lower =>
      have code : c.toNat = d + 87 := by omega
      rw [← (letters d (by omega) (by omega)).1, ← code]
      exact .inl (Char.ofNat_toNat c).symm
    case isFalse =>
      split at value
      case isTrue upper =>
        have code : c.toNat = d + 55 := by omega
        rw [← (letters d (by omega) (by omega)).2, ← code]
        exact .inr (Char.ofNat_toNat c).symm
      case isFalse => exact absurd below (by omega)

theorem digit?_eq_some_iff (small : radix ≤ 16) : digit? radix c = some d ↔ IsDigit radix c d := by
  constructor
  · exact isDigit_of_digit? small
  · rintro ⟨below, spelled⟩
    have digits : ∀ d < 16, ∀ radix ≤ 16, d < radix → digit? radix d.digitChar = some d ∧
        digit? radix d.digitChar.toUpper = some d := by
      decide
    have both := digits d (Nat.lt_of_lt_of_le below small) radix small below
    rcases spelled with rfl | rfl
    · exact both.1
    · exact both.2

/-- A digit is a digit in every larger radix. -/
theorem IsDigit.mono {larger : Nat} (order : radix ≤ larger) (digit : IsDigit radix c d) :
    IsDigit larger c d :=
  ⟨Nat.lt_of_lt_of_le digit.1 order, digit.2⟩

/-- There are only so many digits. -/
theorem IsDigit.of_all {P : Char → Prop} (small : radix ≤ 16) (digit : IsDigit radix c d)
    (all : ∀ d < 16, P d.digitChar ∧ P d.digitChar.toUpper) : P c := by
  obtain ⟨lower, upper⟩ := all d (Nat.lt_of_lt_of_le digit.1 small)
  rcases digit.2 with rfl | rfl
  · exact lower
  · exact upper

theorem IsDigit.not_isBlank (small : radix ≤ 16) (digit : IsDigit radix c d) :
    Text.isBlank c = false :=
  digit.of_all (P := (Text.isBlank · = false)) small (by decide)

/-- In decimal there are no letters. -/
theorem IsDigit.eq_digitChar (digit : IsDigit 10 c d) : c = d.digitChar := by
  have same : ∀ d < 10, d.digitChar.toUpper = d.digitChar := by decide
  rcases digit with ⟨below, rfl | rfl⟩
  · rfl
  · exact same d below

/-! ## Digits one after another -/

theorem ofDigits?_append (radix : Nat) (front rest : List Char) :
    ofDigits? radix (front ++ rest) = (ofDigits? radix front).bind fun value =>
      rest.foldlM (fun value c => (digit? radix c).map (value * radix + ·)) value :=
  List.foldlM_append

theorem Spells.ne_nil (spells : Spells radix text n) : text ≠ [] := by
  cases spells <;> simp

theorem Spells.isDigit (spells : Spells radix text n) : ∀ c ∈ text, ∃ d, IsDigit radix c d := by
  induction spells with
  | single last => exact List.forall_mem_singleton.mpr ⟨_, last⟩
  | concat _ last ih => exact List.forall_mem_append.mpr ⟨ih, List.forall_mem_singleton.mpr ⟨_, last⟩⟩

/-- A character that is no digit is in no numeral. -/
theorem Spells.not_mem (spells : Spells radix text n) (small : radix ≤ 16)
    (noDigit : digit? radix c = none) : c ∉ text := by
  intro member
  obtain ⟨d, digit⟩ := spells.isDigit c member
  rw [(digit?_eq_some_iff small).mpr digit] at noDigit
  cases noDigit

/-- What is read of digits is what they spell. -/
theorem spells_iff (small : radix ≤ 16) :
    Spells radix text n ↔ text ≠ [] ∧ ofDigits? radix text = some n := by
  constructor
  · intro spells
    refine ⟨spells.ne_nil, ?_⟩
    induction spells with
    | single last => simp [ofDigits?, (digit?_eq_some_iff small).mpr last]
    | concat _ last ih =>
      rw [ofDigits?_append, ih, Option.bind_some, List.foldlM_cons, (digit?_eq_some_iff small).mpr last]
      rfl
  · rintro ⟨nonempty, read⟩
    obtain ⟨digits, rfl⟩ : ∃ digits, text = digits.reverse := ⟨text.reverse, by simp⟩
    induction digits generalizing n with
    | nil => exact absurd rfl nonempty
    | cons c front ih =>
      rw [List.reverse_cons, ofDigits?_append] at read
      rw [List.reverse_cons]
      obtain ⟨m, value, last⟩ := Option.bind_eq_some_iff.mp read
      simp only [List.foldlM_cons, List.foldlM_nil, bind_pure, Option.map_eq_some_iff] at last
      obtain ⟨d, digit, rfl⟩ := last
      have digit := (digit?_eq_some_iff small).mp digit
      by_cases alone : front = []
      · subst alone
        cases value
        rw [Nat.zero_mul, Nat.zero_add]
        exact .single digit
      · exact (ih (by simpa using alone) value).concat digit

/-! ## Numerals -/

theorem Spells.signed (spells : Spells radix text n) : Signed radix text n := ⟨text, .inl rfl, spells⟩

/-- No digit is a plus sign. -/
theorem Spells.plus_not_mem (spells : Spells radix text n) (small : radix ≤ 16) : '+' ∉ text := by
  intro member
  obtain ⟨d, digit⟩ := spells.isDigit _ member
  exact digit.of_all (P := (· ≠ '+')) small (by decide) rfl

/-- Besides digits there is a plus sign at most. -/
theorem Signed.not_mem (signed : Signed radix text n) (small : radix ≤ 16)
    (noDigit : digit? radix c = none) (noSign : c ≠ '+') : c ∉ text := by
  obtain ⟨digits, rfl | rfl, spells⟩ := signed
  · exact spells.not_mem small noDigit
  · simp [noSign, spells.not_mem small noDigit]

theorem Signed.spells (signed : Signed radix text n) (unsigned : '+' ∉ text) : Spells radix text n := by
  obtain ⟨digits, rfl | rfl, spells⟩ := signed
  · exact spells
  · exact absurd List.mem_cons_self unsigned

theorem unsigned?_eq_some_iff (small : radix ≤ 16) :
    unsigned? radix text = some n ↔ Signed radix text n := by
  have whole (digits : List Char) : (if digits.isEmpty then none else ofDigits? radix digits) = some n ↔
      Spells radix digits n := by
    rw [spells_iff small, Option.ite_none_left_eq_some, List.isEmpty_iff]
  unfold unsigned?
  split
  case h_1 rest =>
    rw [whole]
    constructor
    · intro spells
      exact ⟨rest, .inr rfl, spells⟩
    · rintro ⟨digits, rfl | same, spells⟩
      · exact absurd List.mem_cons_self (spells.plus_not_mem small)
      · rwa [(List.cons.inj same).2]
  case h_2 noSign =>
    rw [whole]
    constructor
    · exact Spells.signed
    · rintro ⟨digits, rfl | rfl, spells⟩
      · exact spells
      · exact absurd rfl (noSign digits)

theorem bounded?_eq_some_iff (small : radix ≤ 16) :
    bounded? radix bound text = some n ↔ Signed radix text n ∧ n < bound := by
  rw [bounded?, Option.filter_eq_some_iff, unsigned?_eq_some_iff small, decide_eq_true_eq]

/-! ## Numbers as they are written -/

/-- The digits of a number spell it. -/
theorem spells_toDigits (positional : 1 < radix) (n : Nat) : Spells radix (Nat.toDigits radix n) n := by
  induction n using Nat.strongRecOn with
  | ind n ih =>
    rw [Nat.toDigits_eq_if positional]
    by_cases single : n < radix
    · rw [if_pos single]
      exact .single ⟨single, .inl rfl⟩
    · have smaller : n / radix < n :=
        Nat.div_lt_self (Nat.lt_of_lt_of_le (Nat.lt_trans Nat.zero_lt_one positional)
          (Nat.not_lt.mp single)) positional
      have last : n % radix < radix := Nat.mod_lt _ (Nat.lt_trans Nat.zero_lt_one positional)
      have spells := (ih _ smaller).concat ⟨last, .inl rfl⟩
      rw [Nat.div_add_mod'] at spells
      rwa [if_neg single]

theorem ofDigits?_toDigits (positional : 1 < radix) (small : radix ≤ 16) (n : Nat) :
    ofDigits? radix (Nat.toDigits radix n) = some n :=
  ((spells_iff small).mp (spells_toDigits positional n)).2

/-- Only zero starts with a zero. -/
theorem head?_toDigits_ne_zero (positional : 1 < radix) (positive : 0 < n) :
    (Nat.toDigits radix n).head? ≠ some '0' := by
  induction n using Nat.strongRecOn with
  | ind n ih =>
    rw [Nat.toDigits_eq_if positional]
    by_cases single : n < radix
    · rw [if_pos single]
      simpa using Nat.ne_of_gt positive
    · have front : 0 < n / radix :=
        Nat.div_pos (Nat.not_lt.mp single) (Nat.lt_trans Nat.zero_lt_one positional)
      have first := ih (n / radix) (Nat.div_lt_self positive positional) front
      obtain ⟨c, rest, digits⟩ :=
        List.exists_cons_of_ne_nil (Nat.toDigits_ne_nil (n := n / radix) (b := radix))
      rw [digits] at first
      rw [if_neg single, digits]
      exact first

/-- Without a leading zero, a decimal numeral is the number as it is written. -/
theorem Spells.eq_toDigits (spells : Spells 10 text n)
    (lean : text.head? ≠ some '0' ∨ text.length = 1) : text = Nat.toDigits 10 n := by
  induction spells with
  | single last => rw [Nat.toDigits_of_lt_base last.1, last.eq_digitChar]
  | @concat front n c d spells last ih =>
    have first : front.head? ≠ some '0' := by
      obtain ⟨e, rest, rfl⟩ := List.exists_cons_of_ne_nil spells.ne_nil
      exact lean.resolve_right (by simp)
    have same := ih (.inl first)
    -- a front that is no zero makes the number a longer one
    have positive : n ≠ 0 := by
      rintro rfl
      rw [same] at first
      exact first (by decide)
    have long : ¬n * 10 + d < 10 := by omega
    have front : (n * 10 + d) / 10 = n := by have := last.1; omega
    have low : (n * 10 + d) % 10 = d := by have := last.1; omega
    rw [Nat.toDigits_eq_if (by decide), if_neg long, front, low, same, last.eq_digitChar]

end Numeral

end Switchyard
