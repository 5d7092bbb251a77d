import Switchyard.Json.Token

/-!
# Reading JSON

`Json.ofText?` reads a text that is one JSON value and nothing else. Values may nest to any depth.
The functions after it take values apart; each is defined only where the value has the shape that is
asked for.
-/

namespace Switchyard

namespace Json

/-!
The parser proper. Each call takes a token or leads to one that does at the next step, so twice as
many steps as there are tokens are enough.
-/

mutual

/-- A value in front of the tokens. -/
def takeValue : Nat → List Token → Option (Json × List Token)
  | 0, _ => none
  | fuel + 1, tokens =>
    match tokens with
    | .null :: rest => some (null, rest)
    | .bool b :: rest => some (bool b, rest)
    | .number literal :: rest => some (number literal, rest)
    | .string text :: rest => some (string text, rest)
    | .openArray :: .closeArray :: rest => some (array [], rest)
    | .openArray :: rest => do
      let (item, rest) ← takeValue fuel rest
      let (items, rest) ← takeItems fuel rest
      return (array (item :: items), rest)
    | .openObject :: .closeObject :: rest => some (object [], rest)
    | .openObject :: .string key :: .colon :: rest => do
      let (value, rest) ← takeValue fuel rest
      let (members, rest) ← takeMembers fuel rest
      return (object ((key, value) :: members), rest)
    | _ => none

/-- What follows an item of an array. -/
def takeItems : Nat → List Token → Option (List Json × List Token)
  | 0, _ => none
  | fuel + 1, tokens =>
    match tokens with
    | .closeArray :: rest => some ([], rest)
    | .comma :: rest => do
      let (item, rest) ← takeValue fuel rest
      let (items, rest) ← takeItems fuel rest
      return (item :: items, rest)
    | _ => none

/-- What follows a member of an object. -/
def takeMembers : Nat → List Token → Option (List (JsonText × Json) × List Token)
  | 0, _ => none
  | fuel + 1, tokens =>
    match tokens with
    | .closeObject :: rest => some ([], rest)
    | .comma :: .string key :: .colon :: rest => do
      let (value, rest) ← takeValue fuel rest
      let (members, rest) ← takeMembers fuel rest
      return ((key, value) :: members, rest)
    | _ => none

end

/-- The JSON value that a text spells. -/
def ofText? (text : String) : Option Json := do
  let tokens ← Token.ofText? text.toList
  match takeValue (2 * tokens.length + 2) tokens with
  | some (value, []) => return value
  | _ => none

/-- A natural number written without sign, fraction and exponent. -/
def natural? : Json → Option Nat
  | number literal => Numeral.ofDigits? 10 literal.toList
  | _ => none

def bool? : Json → Option Bool
  | bool b => some b
  | _ => none

/-- A string with a text. -/
def text? : Json → Option String
  | string text => text
  | _ => none

/-- An array whose items all have the shape asked for. -/
def list? {α : Type} (item? : Json → Option α) : Json → Option (List α)
  | array items => items.mapM item?
  | _ => none

/-- The shape asked for, or null. -/
def nullOr? {α : Type} (shape? : Json → Option α) : Json → Option (Option α)
  | null => some none
  | value => (shape? value).map some

/-- The members of a record with the given fields: an object, in which none of the fields is
repeated and other members do not count, or an array of values in the order of the fields, which may
end early. -/
def record? (fields : List String) : Json → Option (List (String × Json))
  | object members => do
    let texts ← members.mapM fun (key, value) => key.map (·, value)
    let known := texts.filter fun (key, _) => fields.contains key
    guard (fields.all fun field => (known.filter (·.1 == field)).length ≤ 1)
    return known
  | array items => if items.length ≤ fields.length then some (fields.zip items) else none
  | _ => none

/-- A member that must be there. -/
def required {α : Type} (members : List (String × Json)) (field : String)
    (shape? : Json → Option α) : Option α :=
  (members.lookup field).bind shape?

/-- A member with a default. -/
def optional {α : Type} (members : List (String × Json)) (field : String) (fallback : α)
    (shape? : Json → Option α) : Option α :=
  match members.lookup field with
  | some value => shape? value
  | none => some fallback

end Json

end Switchyard
