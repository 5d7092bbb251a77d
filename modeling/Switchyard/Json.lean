/-!
# JSON values

A number keeps its literal, so that nothing is lost to rounding and an integer can be told from a
fraction. The members of an object keep their order and their repetitions.

A string literal can spell code units that make up no Unicode text (half of a surrogate pair). Such
a literal may stand where it is skipped, so it is a value without a text.
-/

namespace Switchyard

/-- The text of a string literal, if it has one. -/
abbrev JsonText := Option String

/-- A JSON value. -/
inductive Json where
  | null
  | bool (value : Bool)
  | number (literal : String)
  | string (text : JsonText)
  | array (items : List Json)
  | object (members : List (JsonText × Json))
  deriving Inhabited

namespace Json

/-- The number `n`. -/
def ofNat (n : Nat) : Json := number (toString n)

/-- The string `s`. -/
def ofString (s : String) : Json := string (some s)

/-- The object with the given members. -/
def ofMembers (members : List (String × Json)) : Json :=
  object (members.map fun (key, value) => (some key, value))

end Json

end Switchyard
