/-!
# Numerals

Reading unsigned numerals in a radix of at most 36, digits first to last, letters in either case.
-/

namespace Switchyard

/-- Values have 128 bits. -/
def valueBound : Nat := Nat.pow 2 128

namespace Numeral

/-- The value of a digit in the radix. -/
def digit? (radix : Nat) (c : Char) : Option Nat :=
  let value :=
    if '0' ≤ c ∧ c ≤ '9' then c.toNat - '0'.toNat
    else if 'a' ≤ c ∧ c ≤ 'z' then c.toNat - 'a'.toNat + 10
    else if 'A' ≤ c ∧ c ≤ 'Z' then c.toNat - 'A'.toNat + 10
    else radix
  if value < radix then some value else none

/-- The number spelled by digits; nothing but digits is accepted. The empty text spells zero. -/
def ofDigits? (radix : Nat) (text : List Char) : Option Nat :=
  text.foldlM (fun value c => (digit? radix c).map (value * radix + ·)) 0

/-- A numeral: at least one digit, after at most one plus sign. -/
def unsigned? (radix : Nat) (text : List Char) : Option Nat :=
  let digits := match text with
    | '+' :: rest => rest
    | _ => text
  if digits.isEmpty then none else ofDigits? radix digits

/-- A numeral whose value is below `bound`. -/
def bounded? (radix bound : Nat) (text : List Char) : Option Nat :=
  (unsigned? radix text).filter (· < bound)

end Numeral

end Switchyard
