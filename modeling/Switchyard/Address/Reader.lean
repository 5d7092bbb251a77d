import Switchyard.Address
import Switchyard.Numeral

/-!
# Reading addresses

The usual text forms. An IPv4 address is four decimal octets between dots, none with a leading zero.
An IPv6 address is eight groups of one to four hexadecimal digits between colons; one run of at
least one zero group may be written `::`, and the last two groups may be a dotted quad. A MAC
address is six pairs between colons.

A reader takes what it can from the front of a text and returns the rest; `whole` insists that
nothing is left.
-/

namespace Switchyard

namespace AddressReader

/-- The result of a reader whose rest is empty. -/
def whole {α : Type} : Option (α × List Char) → Option α
  | some (value, []) => some value
  | _ => none

/-- Takes the given character. -/
def exactly (c : Char) : List Char → Option (List Char)
  | d :: rest => if d = c then some rest else none
  | [] => none

/-- Takes the run of digits in front: at least one, at most `most`. -/
def digits? (radix most : Nat) (text : List Char) : Option (Nat × List Char) := do
  let isDigit c := (Numeral.digit? radix c).isSome
  let run := text.takeWhile isDigit
  guard (!run.isEmpty && run.length ≤ most)
  let value ← Numeral.ofDigits? radix run
  return (value, text.dropWhile isDigit)

/-- A decimal octet. A leading zero is allowed only in zero itself. -/
def octet? (text : List Char) : Option (Nat × List Char) := do
  let (value, rest) ← digits? 10 3 text
  guard (value < 256)
  guard (text.head? != some '0' || text.length == rest.length + 1)
  return (value, rest)

/-- Four octets between dots, as one number. -/
def quad? (text : List Char) : Option (Nat × List Char) := do
  let (a, rest) ← octet? text
  let (b, rest) ← octet? (← exactly '.' rest)
  let (c, rest) ← octet? (← exactly '.' rest)
  let (d, rest) ← octet? (← exactly '.' rest)
  return (((a * 256 + b) * 256 + c) * 256 + d, rest)

/-- A group of an IPv6 address. -/
def group? (text : List Char) : Option (Nat × List Char) := digits? 16 4 text

/-- What `groups` has taken: the groups, whether they end in a dotted quad, and the rest. -/
structure GroupRun where
  groups : List Nat
  endsInQuad : Bool
  rest : List Char

/-- Takes up to `limit` groups between colons. A dotted quad counts as two groups and ends the run.
`first` says that no colon is due yet. -/
def groups : Nat → Bool → List Char → GroupRun
  | 0, _, text => ⟨[], false, text⟩
  | room + 1, first, text =>
    match if first then some text else exactly ':' text with
    | none => ⟨[], false, text⟩
    | some start =>
      match if room = 0 then none else quad? start with
      | some (quad, rest) => ⟨[quad / 65536, quad % 65536], true, rest⟩
      | none =>
        match group? start with
        | none => ⟨[], false, text⟩
        | some (group, rest) =>
          let run := groups room false rest
          { run with groups := group :: run.groups }

/-- An IPv4 address. -/
def ipv4? (text : List Char) : Option Ipv4Addr := (whole (quad? text)).map Ipv4Addr.ofNat

/-- An IPv6 address: eight groups, or a head and a tail of groups around `::`. The gap stands for at
least one group, and a dotted quad may not stand before it. -/
def ipv6? (text : List Char) : Option Ipv6Addr := do
  let head := groups 8 true text
  if head.groups.length = 8 then
    guard head.rest.isEmpty
    return Ipv6Addr.ofGroups head.groups
  else
    guard (!head.endsInQuad)
    let rest ← exactly ':' (← exactly ':' head.rest)
    let tail := groups (7 - head.groups.length) true rest
    guard tail.rest.isEmpty
    let gap := List.replicate (8 - head.groups.length - tail.groups.length) 0
    return Ipv6Addr.ofGroups (head.groups ++ gap ++ tail.groups)

/-- An address of either family. -/
def ip? (text : List Char) : Option IpAddr :=
  ((ipv4? text).map .v4).or ((ipv6? text).map .v6)

end AddressReader

end Switchyard
