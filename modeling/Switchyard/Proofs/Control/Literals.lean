import Switchyard.Control.Literal
import Switchyard.Proofs.Address.Ipv6
import Switchyard.Proofs.Text

/-!
# The forms of value literals

A value literal is a decimal numeral, a hexadecimal numeral behind `0x`, an IPv4, an IPv6 or a MAC address.
What is read as a value is one of these forms, and the value is the one that the form spells, where a numeral
may stand behind a plus sign, also each of the six in a MAC address. No text has two values.
-/

namespace Switchyard

namespace Literal

open Numeral AddressReader Text

variable {numeral : Nat → List Char → Nat → Prop} {text : List Char} {v : Nat}

/-- A number in decimal, or in hexadecimal behind the mark for it. Which texts are numerals in a radix is
left open. -/
inductive IsNumber (numeral : Nat → List Char → Nat → Prop) : List Char → Nat → Prop where
  | decimal {text : List Char} {v : Nat} (digits : numeral 10 text v) : IsNumber numeral text v
  | hex {mark : Char} {text : List Char} {v : Nat} (marked : mark = 'x' ∨ mark = 'X')
      (digits : numeral 16 text v) : IsNumber numeral ('0' :: mark :: text) v

/-- Six hexadecimal numerals of two characters between colons, and the number of 48 bits that they make. -/
def IsMac (numeral : Nat → List Char → Nat → Prop) (text : List Char) (v : Nat) : Prop :=
  ∃ pairs values, pairs.length = 6 ∧
    List.Forall₂ (fun pair value => pair.length = 2 ∧ numeral 16 pair value) pairs values ∧
    text = colons pairs ∧ values.foldl (fun v value => v * 256 + value) 0 = v

/-- The forms of a value literal. -/
inductive Form (numeral : Nat → List Char → Nat → Prop) : List Char → Nat → Prop where
  | number {text : List Char} {v : Nat} (spelled : IsNumber numeral text v) (fits : v < valueBound) :
      Form numeral text v
  | ipv4 {text : List Char} {v : Nat} (spelled : IsQuad text v) : Form numeral text v
  | ipv6 {text : List Char} {a : Ipv6Addr} (spelled : IsIpv6 text a) : Form numeral text a.toNat
  | mac {text : List Char} {v : Nat} (spelled : IsMac numeral text v) : Form numeral text v

/-! ## MAC addresses -/

theorem foldlM_pairs_eq_some_iff {pairs : List (List Char)} {start : Nat} :
    pairs.foldlM (fun value pair => (unsigned? 16 pair).map (value * 256 + ·)) start = some v ↔
      ∃ values, List.Forall₂ (Signed 16) pairs values ∧
        values.foldl (fun v value => v * 256 + value) start = v := by
  induction pairs generalizing start with
  | nil => simp
  | cons pair pairs ih =>
    rw [List.foldlM_cons, Option.bind_eq_bind, Option.bind_eq_some_iff]
    constructor
    · rintro ⟨_, first, rest⟩
      obtain ⟨value, own, rfl⟩ := Option.map_eq_some_iff.mp first
      obtain ⟨values, others, made⟩ := ih.mp rest
      exact ⟨value :: values, .cons ((unsigned?_eq_some_iff (by decide)).mp own) others, made⟩
    · rintro ⟨_, each, made⟩
      obtain ⟨value, values, own, others, rfl⟩ := List.forall₂_cons_left_iff.mp each
      exact ⟨_, Option.map_eq_some_iff.mpr ⟨value, (unsigned?_eq_some_iff (by decide)).mpr own, rfl⟩,
        ih.mpr ⟨values, others, made⟩⟩

/-- Parts without colons come apart at the colons. -/
theorem cut_colons {parts : List (List Char)} (solid : ∀ part ∈ parts, ':' ∉ part) (some : parts ≠ []) :
    cut (· == ':') (colons parts) = parts := by
  rw [cut_eq_splitOnP]
  exact List.splitOn_intercalate ':' solid some

theorem colons_cut (text : List Char) : colons (cut (· == ':') text) = text := by
  rw [cut_eq_splitOnP]
  exact List.intercalate_splitOn ':'

theorem mac?_eq_some_iff : mac? text = some v ↔ IsMac Signed text v := by
  simp only [mac?, Option.ite_none_right_eq_some, foldlM_pairs_eq_some_iff]
  constructor
  · rintro ⟨⟨six, two⟩, values, each, made⟩
    have short : ∀ pair ∈ cut (· == ':') text, pair.length = 2 := by simpa using two
    exact ⟨_, values, six, (List.forall₂_and_left _ _).mpr ⟨short, each⟩, (colons_cut text).symm, made⟩
  · rintro ⟨pairs, values, six, each, rfl, made⟩
    obtain ⟨short, each⟩ := (List.forall₂_and_left _ _).mp each
    have solid : ∀ pair ∈ pairs, ':' ∉ pair := by
      intro pair member
      obtain ⟨value, -, own⟩ := (Sequencing.exists_of_forall₂ each).1 pair member
      exact own.not_mem (by decide) (by decide) (by decide)
    have some : pairs ≠ [] := by
      rintro rfl
      cases six
    rw [cut_colons solid some]
    exact ⟨⟨six, by simpa using short⟩, values, each, made⟩

/-! ## Telling the forms apart -/

/-- Text without a colon is no MAC address. -/
theorem mac?_eq_none (noColon : ':' ∉ text) : mac? text = none := by
  have whole : cut (· == ':') text = [text] := cut_eq_singleton fun c member => by
    rw [beq_eq_false_iff_ne]
    rintro rfl
    exact noColon member
  rw [mac?]
  simp only [whole]
  rfl

theorem hexDigits?_eq_some_iff {digits : List Char} :
    hexDigits? text = some digits ↔ ∃ mark, (mark = 'x' ∨ mark = 'X') ∧ text = '0' :: mark :: digits := by
  unfold hexDigits?
  split <;> simp_all [eq_comm]

/-- The mark of hexadecimal digits is no decimal digit. -/
theorem hexDigits?_of_decimal (digits : Signed 10 text v) : hexDigits? text = none := by
  rw [Option.eq_none_iff_forall_ne_some]
  intro rest marked
  obtain ⟨mark, letter, rfl⟩ := hexDigits?_eq_some_iff.mp marked
  have other : digit? 10 mark = none ∧ mark ≠ '+' := by
    rcases letter with rfl | rfl <;> decide
  exact digits.not_mem (by decide) other.1 other.2 (by simp)

/-- In a number there is no colon and no dot. -/
theorem IsNumber.not_mem {c : Char} (number : IsNumber Signed text v) (separator : c = ':' ∨ c = '.') :
    c ∉ text := by
  have other : digit? 10 c = none ∧ digit? 16 c = none ∧ c ≠ '+' ∧ c ≠ '0' ∧ c ≠ 'x' ∧ c ≠ 'X' := by
    rcases separator with rfl | rfl <;> decide
  obtain ⟨noFigure, noDigit, noSign, noZero, noMark⟩ := other
  cases number with
  | decimal digits => exact digits.not_mem (by decide) noFigure noSign
  | hex marked digits =>
    have behind := digits.not_mem (by decide) noDigit noSign
    rcases marked with rfl | rfl <;> simp [noZero, noMark, behind]

/-- The text of an IPv6 address is no MAC address: it has seven or eight parts, or an empty one. -/
theorem mac?_of_isIpv6 {a : Ipv6Addr} (spelled : IsIpv6 text a) : mac? text = none := by
  cases spelled with
  | @full parts gs dotted spelled all =>
    have size := spelled.length_eq
    have some : parts ≠ [] := by
      rintro rfl
      cases dotted <;> simp [all] at size
    have notSix : parts.length ≠ 6 := by
      cases dotted <;> simp [all] at size <;> omega
    rw [mac?, cut_colons spelled.colon_not_mem some]
    simp [notSix]
  | @gap front back =>
    have parts : cut (· == ':') (colons front ++ ':' :: ':' :: colons back) =
        cut (· == ':') (colons front) ++ [] :: cut (· == ':') (colons back) := by
      rw [cut_append_cons (by decide), ← List.nil_append (':' :: colons back), cut_append_cons (by decide)]
      rfl
    rw [mac?]
    simp [parts]

/-! ## What is read -/

/-- Whatever is read has one of the forms. -/
theorem form_of_read (done : read text = .ok v) : Form Signed text v := by
  unfold read at done
  cases mac : mac? text with
  | some value =>
    simp only [mac] at done
    cases done
    exact .mac (mac?_eq_some_iff.mp mac)
  | none =>
    simp only [mac] at done
    split at done
    case isTrue =>
      cases address : ipv6? text with
      | none => simp [address] at done
      | some a =>
        simp only [address, Option.elim_some, Except.ok.injEq] at done
        exact done ▸ .ipv6 (ipv6?_eq_some_iff.mp address)
    case isFalse =>
      split at done
      case isTrue =>
        cases address : ipv4? text with
        | none => simp [address] at done
        | some a =>
          simp only [address, Option.elim_some, Except.ok.injEq] at done
          exact done ▸ .ipv4 (ipv4?_eq_some_iff.mp address)
      case isFalse =>
        split at done
        case h_1 digits marked =>
          obtain ⟨mark, letter, rfl⟩ := hexDigits?_eq_some_iff.mp marked
          obtain ⟨digits, fits⟩ :=
            (bounded?_eq_some_iff (by decide)).mp (Sequencing.elim_eq_ok.mp done)
          exact .number (.hex letter digits) fits
        case h_2 =>
          obtain ⟨digits, fits⟩ :=
            (bounded?_eq_some_iff (by decide)).mp (Sequencing.elim_eq_ok.mp done)
          exact .number (.decimal digits) fits

/-- The form says which reader is asked, and that those before it refuse. -/
theorem read_of_form (form : Form Signed text v) : read text = .ok v := by
  unfold read
  cases form with
  | mac spelled => simp only [mac?_eq_some_iff.mpr spelled]
  | ipv6 spelled =>
    simp [mac?_of_isIpv6 spelled, spelled.colon_mem, ipv6?_eq_some_iff.mpr spelled]
  | ipv4 spelled =>
    have own : (Ipv4Addr.ofNat v).toNat = v := Nat.mod_eq_of_lt spelled.lt
    have address : ipv4? text = some (.ofNat v) := ipv4?_eq_some_iff.mpr (own.symm ▸ spelled)
    simp [mac?_eq_none spelled.colon_not_mem, spelled.colon_not_mem, spelled.dot_mem, address, own]
  | number spelled fits =>
    have noColon := spelled.not_mem (.inl rfl)
    have noDot := spelled.not_mem (.inr rfl)
    simp only [mac?_eq_none noColon, List.contains_iff_mem, noColon, noDot, if_false]
    cases spelled with
    | decimal digits =>
      simp only [hexDigits?_of_decimal digits, (bounded?_eq_some_iff (by decide)).mpr ⟨digits, fits⟩]
      rfl
    | hex marked digits =>
      simp only [hexDigits?_eq_some_iff.mpr ⟨_, marked, rfl⟩,
        (bounded?_eq_some_iff (by decide)).mpr ⟨digits, fits⟩]
      rfl

theorem read_eq_ok_iff : read text = .ok v ↔ Form Signed text v := ⟨form_of_read, read_of_form⟩

/-! ## Plus signs -/

theorem IsMac.signed (mac : IsMac Spells text v) : IsMac Signed text v := by
  obtain ⟨pairs, values, six, each, rfl, made⟩ := mac
  exact ⟨pairs, values, six, each.imp fun pair value own => ⟨own.1, own.2.signed⟩, rfl, made⟩

/-- Every literal of the forms with plain numerals is one of the forms with signed ones. -/
theorem Form.signed (form : Form Spells text v) : Form Signed text v := by
  cases form with
  | number spelled fits =>
    cases spelled with
    | decimal digits => exact .number (.decimal digits.signed) fits
    | hex marked digits => exact .number (.hex marked digits.signed) fits
  | ipv4 spelled => exact .ipv4 spelled
  | ipv6 spelled => exact .ipv6 spelled
  | mac spelled => exact .mac spelled.signed

/-- Where there is no plus sign, it is one of the others as well. -/
theorem Form.spells (form : Form Signed text v) (unsigned : '+' ∉ text) : Form Spells text v := by
  cases form with
  | number spelled fits =>
    cases spelled with
    | decimal digits => exact .number (.decimal (digits.spells unsigned)) fits
    | hex marked digits =>
      exact .number (.hex marked (digits.spells fun member => unsigned (by simp [member]))) fits
  | ipv4 spelled => exact .ipv4 spelled
  | ipv6 spelled => exact .ipv6 spelled
  | mac spelled =>
    obtain ⟨pairs, values, six, each, rfl, made⟩ := spelled
    have inside : ∀ pair ∈ pairs, '+' ∉ pair := fun pair member signed =>
      unsigned (mem_colons member signed)
    have both := (List.forall₂_and_left _ _).mpr ⟨inside, each⟩
    exact .mac ⟨pairs, values, six, both.imp fun pair value own => ⟨own.2.1, own.2.2.spells own.1⟩, rfl,
      made⟩

/-- What literals are written with. -/
theorem Form.chars (form : Form Spells text v) : ∀ c ∈ text, IsAddressChar c ∨ c = 'x' ∨ c = 'X' := by
  have address {chars : List Char} (all : ∀ c ∈ chars, IsAddressChar c) :
      ∀ c ∈ chars, IsAddressChar c ∨ c = 'x' ∨ c = 'X' := fun c member => .inl (all c member)
  cases form with
  | number spelled =>
    cases spelled with
    | decimal digits => exact address (digits.isAddressChar (by decide))
    | hex marked digits =>
      have zero : IsAddressChar '0' := .inl (by decide)
      simp only [List.forall_mem_cons]
      exact ⟨.inl zero, .inr marked, address (digits.isAddressChar (by decide))⟩
  | ipv4 spelled => exact address spelled.isAddressChar
  | ipv6 spelled => exact address spelled.isAddressChar
  | mac spelled =>
    obtain ⟨pairs, values, -, each, rfl, -⟩ := spelled
    refine address (forall_mem_colons (.inr (.inr rfl)) fun pair member => ?_)
    obtain ⟨value, -, -, own⟩ := (Sequencing.exists_of_forall₂ each).1 pair member
    exact own.isAddressChar (by decide)

theorem Form.ne_nil (form : Form Spells text v) : text ≠ [] := by
  rintro rfl
  cases form with
  | number spelled =>
    cases spelled with
    | decimal digits => exact digits.ne_nil rfl
  | ipv4 spelled => exact absurd spelled.dot_mem List.not_mem_nil
  | ipv6 spelled => exact absurd spelled.colon_mem List.not_mem_nil
  | mac spelled => cases mac?_eq_some_iff.mpr spelled.signed

theorem Form.plus_not_mem (form : Form Spells text v) : '+' ∉ text := fun member =>
  absurd (form.chars _ member) (by decide)

/-- What is read as a value, and as which value. A text has a value if it has one of the forms, where each
numeral may stand behind a plus sign, and it has the value of that form. So the texts that have a value and
no plus sign are those of the forms with plain numerals, which leave no room for a plus sign. No text has
two values. -/
theorem reads_forms (text : List Char) :
    (∀ v, read text = .ok v ↔ Form Signed text v) ∧
    (∀ v, Form Spells text v ↔ '+' ∉ text ∧ read text = .ok v) ∧
    ∀ v w, Form Signed text v → Form Signed text w → v = w := by
  refine ⟨fun v => read_eq_ok_iff, fun v => ?plain, fun v w first second => ?one⟩
  case plain =>
    rw [read_eq_ok_iff]
    constructor
    · intro form
      exact ⟨form.plus_not_mem, form.signed⟩
    · rintro ⟨unsigned, form⟩
      exact form.spells unsigned
  case one =>
    have same := (read_eq_ok_iff.mpr first).symm.trans (read_eq_ok_iff.mpr second)
    exact Except.ok.inj same

/-- Six numerals with plus signs are read as a MAC address, though the text has none of the plain forms. -/
theorem reads_forms_signed :
    read "+1:+2:+3:+4:+5:+6".toList = .ok 0x010203040506 ∧
      Form Signed "+1:+2:+3:+4:+5:+6".toList 0x010203040506 ∧
      ∀ v, ¬Form Spells "+1:+2:+3:+4:+5:+6".toList v := by
  obtain ⟨reads, plain, -⟩ := reads_forms "+1:+2:+3:+4:+5:+6".toList
  have read : read "+1:+2:+3:+4:+5:+6".toList = .ok 0x010203040506 := by decide
  refine ⟨read, (reads _).mp read, fun v form => ?_⟩
  exact absurd ((plain v).mp form).1 (by decide)

end Literal

end Switchyard
