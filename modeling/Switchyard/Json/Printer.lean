import Switchyard.Json

/-!
# Writing JSON

Items and members stand on lines of their own, two blanks deeper than the value that holds them.
Quotes, backslashes and control characters are escaped, all other characters stand for themselves.
-/

namespace Switchyard

namespace Json

/-- A hexadecimal digit. -/
def hexDigit (n : Nat) : Char := Nat.digitChar (n % 16)

/-- A character as it stands in a string literal. -/
def escaped (c : Char) : List Char :=
  match c with
  | '"' => ['\\', '"']
  | '\\' => ['\\', '\\']
  | '\x08' => ['\\', 'b']
  | '\x0c' => ['\\', 'f']
  | '\n' => ['\\', 'n']
  | '\r' => ['\\', 'r']
  | '\t' => ['\\', 't']
  | c =>
    if c.toNat < 0x20 then ['\\', 'u', '0', '0', hexDigit (c.toNat / 16), hexDigit c.toNat]
    else [c]

/-- A string literal. A string without a text is written as an empty one. -/
def quoted (text : JsonText) : String :=
  String.ofList ('"' :: (text.getD "").toList.flatMap escaped ++ ['"'])

/-- The line end and the blanks in front of a line at the given depth. -/
def newLine (depth : Nat) : String := String.ofList ('\n' :: List.replicate (2 * depth) ' ')

/-- Lines between an opening and a closing mark. -/
def bracket (depth : Nat) (opening closing : String) (lines : List String) : String :=
  if lines.isEmpty then opening ++ closing
  else
    let body := ",".intercalate (lines.map (newLine (depth + 1) ++ ·))
    opening ++ body ++ newLine depth ++ closing

mutual

/-- The text of a value that starts at the given depth. -/
def render (depth : Nat) : Json → String
  | null => "null"
  | bool b => if b then "true" else "false"
  | number literal => literal
  | string text => quoted text
  | array items => bracket depth "[" "]" (renderItems (depth + 1) items)
  | object members => bracket depth "\x7b" "\x7d" (renderMembers (depth + 1) members)

def renderItems (depth : Nat) : List Json → List String
  | [] => []
  | item :: items => render depth item :: renderItems depth items

def renderMembers (depth : Nat) : List (JsonText × Json) → List String
  | [] => []
  | (key, value) :: members =>
    (quoted key ++ ": " ++ render depth value) :: renderMembers depth members

end

/-- The text of a value. -/
def pretty (value : Json) : String := render 0 value

end Json

end Switchyard
