import Mathlib.Tactic.Ring
import Switchyard.Address.Printer
import Switchyard.Address.Reader
import Switchyard.Proofs.Numeral

/-!
# The grammar of IPv4 addresses

A reader takes a part of the grammar from the front of a text where nothing follows that belongs to it, and
nothing else. So the text of an IPv4 address is four decimal octets between dots, without leading zeros,
which is how addresses are written.
-/

namespace Switchyard

open Numeral

/-- Addresses are written with digits, dots and colons. -/
def IsAddressChar (c : Char) : Prop := (digit? 16 c).isSome ∨ c = '.' ∨ c = ':'

instance (c : Char) : Decidable (IsAddressChar c) :=
  inferInstanceAs (Decidable ((digit? 16 c).isSome ∨ c = '.' ∨ c = ':'))

theorem Numeral.IsDigit.isAddressChar {radix d : Nat} {c : Char} (digit : IsDigit radix c d)
    (small : radix ≤ 16) : IsAddressChar c := by
  have taken := (digit?_eq_some_iff (Nat.le_refl _)).mpr (digit.mono small)
  exact .inl (by rw [taken]; rfl)

theorem Numeral.Spells.isAddressChar {radix n : Nat} {text : List Char} (spells : Spells radix text n)
    (small : radix ≤ 16) : ∀ c ∈ text, IsAddressChar c := by
  intro c member
  obtain ⟨d, digit⟩ := spells.isDigit c member
  exact digit.isAddressChar small

namespace AddressReader

variable {radix most n : Nat} {text part rest : List Char}

theorem guard_eq_some {p : Prop} [Decidable p] {u : Unit} : (guard p : Option Unit) = some u ↔ p := by
  unfold guard
  split <;> simp_all

/-- No digit follows. -/
def Ends (radix : Nat) (rest : List Char) : Prop := ∀ c ∈ rest.head?, digit? radix c = none

theorem ends_nil : Ends radix [] := by simp [Ends]

theorem ends_cons {c : Char} : Ends radix (c :: rest) ↔ digit? radix c = none := by simp [Ends]

/-- A run of digits is taken from the front of a text. -/
theorem digits?_eq_some_iff (small : radix ≤ 16) :
    digits? radix most text = some (n, rest) ↔
      ∃ part, (Spells radix part n ∧ part.length ≤ most) ∧ text = part ++ rest ∧ Ends radix rest := by
  let isDigit (c : Char) : Bool := (digit? radix c).isSome
  simp only [digits?, Option.bind_eq_bind, Option.bind_eq_some_iff, guard_eq_some,
    Option.pure_def, Option.some.injEq, Prod.mk.injEq, exists_const]
  constructor
  · rintro ⟨fits, value, spelled, rfl, rfl⟩
    obtain ⟨some, fits⟩ : text.takeWhile isDigit ≠ [] ∧ (text.takeWhile isDigit).length ≤ most := by
      simpa only [Bool.and_eq_true, Bool.not_eq_true', List.isEmpty_eq_false_iff, decide_eq_true_eq] using fits
    refine ⟨text.takeWhile isDigit, ⟨(spells_iff small).mpr ⟨some, spelled⟩, fits⟩,
      List.takeWhile_append_dropWhile.symm, ?_⟩
    intro c first
    have stopped := List.head?_dropWhile_not isDigit text
    rw [Option.mem_def.mp first] at stopped
    simpa [isDigit] using stopped
  · rintro ⟨part, ⟨spells, short⟩, rfl, ends⟩
    obtain ⟨some, spelled⟩ := (spells_iff small).mp spells
    have digits : ∀ c ∈ part, isDigit c = true := by
      intro c member
      obtain ⟨d, digit⟩ := spells.isDigit c member
      simp [isDigit, (digit?_eq_some_iff small).mpr digit]
    have behind : rest.takeWhile isDigit = [] ∧ rest.dropWhile isDigit = rest := by
      cases rest with
      | nil => exact ⟨rfl, rfl⟩
      | cons c rest =>
        have noDigit : ¬isDigit c = true := by simp [isDigit, ends_cons.mp ends]
        exact ⟨List.takeWhile_cons_of_neg noDigit, List.dropWhile_cons_of_neg noDigit⟩
    rw [List.takeWhile_append_of_pos digits, List.dropWhile_append_of_pos digits, behind.1, behind.2,
      List.append_nil]
    exact ⟨by simp [some, short], n, spelled, rfl, rfl⟩

theorem exactly_eq_some_iff {c : Char} : exactly c text = some rest ↔ text = c :: rest := by
  cases text with
  | nil => simp [exactly]
  | cons d text => simp [exactly]

theorem octet?_eq_some_iff :
    octet? text = some (n, rest) ↔ n < 256 ∧ text = Nat.toDigits 10 n ++ rest ∧ Ends 10 rest := by
  have small : 10 ≤ 16 := by decide
  simp only [octet?, Option.bind_eq_bind, Option.bind_eq_some_iff, guard_eq_some,
    Option.pure_def, Option.some.injEq, exists_const, Prod.exists, Prod.mk.injEq,
    digits?_eq_some_iff small]
  constructor
  · rintro ⟨_, _, ⟨part, ⟨spells, -⟩, rfl, ends⟩, below, lean, rfl, rfl⟩
    refine ⟨below, ?_, ends⟩
    rw [← spells.eq_toDigits]
    obtain ⟨c, digits, rfl⟩ := List.exists_cons_of_ne_nil spells.ne_nil
    simpa using lean
  · rintro ⟨below, rfl, ends⟩
    have spells := spells_toDigits (show 1 < 10 by decide) n
    have short : (Nat.toDigits 10 n).length ≤ 3 :=
      (Nat.length_toDigits_le_iff (by decide) (by decide)).mpr (Nat.lt_trans below (by decide))
    refine ⟨n, rest, ⟨_, ⟨spells, short⟩, rfl, ends⟩, below, ?_, rfl, rfl⟩
    rcases Nat.eq_zero_or_pos n with rfl | positive
    · simp
    · have first := head?_toDigits_ne_zero (show 1 < 10 by decide) positive
      obtain ⟨c, digits, spelled⟩ := List.exists_cons_of_ne_nil spells.ne_nil
      rw [spelled] at first ⊢
      simp at first
      simp [first]

/-- Four octets between dots, in decimal without leading zeros, and the number that they make. -/
def IsQuad (text : List Char) (n : Nat) : Prop :=
  ∃ w x y z, (w < 256 ∧ x < 256 ∧ y < 256 ∧ z < 256) ∧ ((w * 256 + x) * 256 + y) * 256 + z = n ∧
    text = Nat.toDigits 10 w ++ '.' :: (Nat.toDigits 10 x ++ '.' :: (Nat.toDigits 10 y ++
      '.' :: Nat.toDigits 10 z))

theorem IsQuad.lt (quad : IsQuad text n) : n < UInt32.size := by
  obtain ⟨w, x, y, z, ⟨wBound, xBound, yBound, zBound⟩, rfl, -⟩ := quad
  have size : UInt32.size = 4294967296 := rfl
  omega

theorem IsQuad.dot_mem (quad : IsQuad text n) : '.' ∈ text := by
  obtain ⟨w, x, y, z, -, -, rfl⟩ := quad
  simp

theorem IsQuad.isAddressChar (quad : IsQuad text n) : ∀ c ∈ text, IsAddressChar c := by
  have digits (m : Nat) : ∀ c ∈ Nat.toDigits 10 m, IsAddressChar c :=
    (spells_toDigits (by decide) m).isAddressChar (by decide)
  have dot : IsAddressChar '.' := .inr (.inl rfl)
  obtain ⟨w, x, y, z, -, -, rfl⟩ := quad
  simp only [List.forall_mem_append, List.forall_mem_cons]
  exact ⟨digits w, dot, digits x, dot, digits y, dot, digits z⟩

theorem IsQuad.colon_not_mem (quad : IsQuad text n) : ':' ∉ text := by
  have digits (m : Nat) : ':' ∉ Nat.toDigits 10 m :=
    (spells_toDigits (by decide) m).not_mem (by decide) (by decide)
  obtain ⟨w, x, y, z, -, -, rfl⟩ := quad
  simp [digits]

theorem quad?_eq_some_iff :
    quad? text = some (n, rest) ↔ ∃ part, IsQuad part n ∧ text = part ++ rest ∧ Ends 10 rest := by
  simp only [quad?, Option.bind_eq_bind, Option.bind_eq_some_iff, Option.pure_def, Option.some.injEq,
    Prod.exists, Prod.mk.injEq, octet?_eq_some_iff, exactly_eq_some_iff]
  constructor
  · rintro ⟨w, _, ⟨wBound, rfl, -⟩, _, rfl, x, _, ⟨xBound, rfl, -⟩, _, rfl, y, _, ⟨yBound, rfl, -⟩, _,
      rfl, z, _, ⟨zBound, rfl, ends⟩, value, rfl⟩
    exact ⟨_, ⟨w, x, y, z, ⟨wBound, xBound, yBound, zBound⟩, value, rfl⟩, by simp, ends⟩
  · rintro ⟨_, ⟨w, x, y, z, ⟨wBound, xBound, yBound, zBound⟩, value, rfl⟩, rfl, ends⟩
    have dot (rest : List Char) : Ends 10 ('.' :: rest) := ends_cons.mpr (by decide)
    exact ⟨w, _, ⟨wBound, by simp, dot _⟩, _, rfl, x, _, ⟨xBound, rfl, dot _⟩, _, rfl, y, _,
      ⟨yBound, rfl, dot _⟩, _, rfl, z, rest, ⟨zBound, rfl, ends⟩, value, rfl⟩

/-- What is left where nothing may be left. -/
theorem whole_eq_some_iff {α : Type} {taken : Option (α × List Char)} {a : α} :
    whole taken = some a ↔ taken = some (a, []) := by
  unfold whole
  split <;> simp_all

/-- What is read as an IPv4 address. -/
theorem ipv4?_eq_some_iff {a : Ipv4Addr} : ipv4? text = some a ↔ IsQuad text a.toNat := by
  have own : Ipv4Addr.ofNat a.toNat = a := by simp [Ipv4Addr.ofNat, Ipv4Addr.toNat]
  simp only [ipv4?, Option.map_eq_some_iff, whole_eq_some_iff, quad?_eq_some_iff, List.append_nil]
  constructor
  · rintro ⟨n, ⟨part, quad, rfl, -⟩, rfl⟩
    have same : (Ipv4Addr.ofNat n).toNat = n := Nat.mod_eq_of_lt quad.lt
    rwa [same]
  · intro quad
    exact ⟨a.toNat, ⟨text, quad, rfl, ends_nil⟩, own⟩

/-- It is how addresses are written. -/
theorem isQuad_toString (a : Ipv4Addr) : IsQuad (toString a).toList a.toNat := by
  obtain ⟨w, x, y, z, spelled⟩ : ∃ w x y z, a.toBytes = [w, x, y, z] := ⟨_, _, _, _, rfl⟩
  refine ⟨w.toNat, x.toNat, y.toNat, z.toNat, ⟨w.toNat_lt, x.toNat_lt, y.toNat_lt, z.toNat_lt⟩, ?_, ?_⟩
  · have bound : a.toNat < Nat.pow 256 4 := a.bits.isLt
    have read := BigEndian.value_encode 4 a.toNat
    have bytes : BigEndian.encode 4 a.toNat = [w, x, y, z] := spelled
    have expanded : BigEndian.value [w, x, y, z] = w.toNat * 256 ^ 3 +
        (x.toNat * 256 ^ 2 + (y.toNat * 256 ^ 1 + (z.toNat * 256 ^ 0 + 0))) := rfl
    rw [bytes, Nat.mod_eq_of_lt bound, expanded] at read
    rw [← read]
    ring
  · show (".".intercalate (a.toBytes.map fun b => toString b.toNat)).toList = _
    rw [spelled, String.toList_intercalate]
    simp

/-- Every IPv4 address is read as it is written. -/
theorem ipv4?_toString (a : Ipv4Addr) : ipv4? (toString a).toList = some a :=
  ipv4?_eq_some_iff.mpr (isQuad_toString a)

end AddressReader

end Switchyard
