import Switchyard.Address.Reader
import Switchyard.Error
import Switchyard.Text

/-!
# Value literals

A value on the control plane is written as a decimal or `0x` hexadecimal numeral, or as an IPv4,
IPv6 or MAC address. The form is settled by the text alone: six colon-separated pairs are a MAC
address, any other text with a colon is an IPv6 address, any other with a dot an IPv4 address.
-/

namespace Switchyard

namespace Literal

/-- Six two-digit hexadecimal numerals between colons. -/
def mac? (text : List Char) : Option Nat :=
  let pairs := Text.cut (· == ':') text
  if pairs.length = 6 ∧ pairs.all (·.length == 2) then
    pairs.foldlM (fun value pair => (Numeral.unsigned? 16 pair).map (value * 256 + ·)) 0
  else none

/-- The digits after a hexadecimal mark. -/
def hexDigits? : List Char → Option (List Char)
  | '0' :: 'x' :: digits => some digits
  | '0' :: 'X' :: digits => some digits
  | _ => none

/-- The value of a literal, below `valueBound`. -/
def read (text : List Char) : Except LiteralFault Nat :=
  let name := String.ofList text
  match mac? text with
  | some value => .ok value
  | none =>
    if text.contains ':' then
      (AddressReader.ipv6? text).elim (.error (.ipv6 name)) fun a => .ok a.toNat
    else if text.contains '.' then
      (AddressReader.ipv4? text).elim (.error (.ipv4 name)) fun a => .ok a.toNat
    else
      match hexDigits? text with
      | some digits => (Numeral.bounded? 16 valueBound digits).elim (.error (.hex name)) .ok
      | none => (Numeral.bounded? 10 valueBound text).elim (.error (.decimal name)) .ok

end Literal

end Switchyard
