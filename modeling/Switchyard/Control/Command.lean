import Switchyard.Control.Literal
import Switchyard.Control.Table
import Switchyard.Text

/-!
# Control-plane commands

One command a line: a verb and its operands, between blanks. Operands are names or value literals; a
key with a slash is a prefix. `Command.ofLine` reads a line, `commandLines` picks the lines of a
batch that hold a command: blank lines and lines that start with a number sign do not.
-/

namespace Switchyard

/-- A control-plane command. -/
inductive Command where
  | tableAdd (table action : String) (keys : List KeyMatch) (args : List Nat)
  | tableDelete (table : String) (handle : Nat)
  | tableModify (table action : String) (handle : Nat) (args : List Nat)
  | tableSetDefault (table action : String) (args : List Nat)
  | tableClear (table : String)
  | groupCreate (group : Nat)
  | groupDestroy (group : Nat)
  | nodeCreate (rid : Nat) (ports : List Nat)
  | nodeUpdate (handle : Nat) (ports : List Nat)
  | nodeDestroy (handle : Nat)
  | nodeAssociate (group handle : Nat)
  | nodeDissociate (group handle : Nat)
  deriving DecidableEq

/-- Every verb. -/
def Verb.all : List Verb :=
  [.tableAdd, .tableDelete, .tableModify, .tableSetDefault, .tableClear, .groupCreate,
    .groupDestroy, .nodeCreate, .nodeUpdate, .nodeDestroy, .nodeAssociate, .nodeDissociate]

def Verb.ofWord? (word : String) : Option Verb := Verb.all.find? (·.word == word)

namespace Command

/-- The word between the keys and the arguments of a table entry. -/
def arrow : String := "=>"

/-- An operand that is a 32-bit number. -/
def number (word : String) : Except CommandFault Nat :=
  match Literal.read word.toList with
  | .ok value => if value < UInt32.size then .ok value else .error (.number word)
  | .error _ => .error (.number word)

/-- An operand that is a value. -/
def value (word : String) : Except CommandFault Nat :=
  (Literal.read word.toList).mapError .literal

/-- An operand that is a key: a value, or a value and a prefix length around the first slash. -/
def key (word : String) : Except CommandFault KeyMatch := do
  let text := word.toList
  match text.dropWhile (· != '/') with
  | [] => return .exact (← value word)
  | _ :: lengthText =>
    match Numeral.bounded? 10 UInt16.size lengthText with
    | none => throw (.prefixLength (String.ofList lengthText))
    | some prefixLen =>
      let wanted ← value (String.ofList (text.takeWhile (· != '/')))
      return .lpm wanted prefixLen

/-- The words after the arrow; there are none where there is no arrow. -/
def afterArrow (words : List String) : List String := (words.dropWhile (· != arrow)).drop 1

/-- The operands of a verb, read in order. -/
def ofOperands (verb : Verb) (operands : List String) : Except CommandFault Command :=
  match verb, operands with
  | .tableAdd, table :: action :: words => do
    let keys ← (words.takeWhile (· != arrow)).mapM key
    let args ← (afterArrow words).mapM value
    return tableAdd table action keys args
  | .tableDelete, [table, handle] => do return tableDelete table (← number handle)
  | .tableModify, table :: action :: handle :: words => do
    let handle ← number handle
    let args ← (if words.head? = some arrow then words.drop 1 else words).mapM value
    return tableModify table action handle args
  | .tableSetDefault, table :: action :: words => do
    return tableSetDefault table action (← words.mapM value)
  | .tableClear, [table] => return tableClear table
  | .groupCreate, [group] => do return groupCreate (← number group)
  | .groupDestroy, [group] => do return groupDestroy (← number group)
  | .nodeCreate, rid :: words => do
    let rid ← number rid
    if rid < UInt16.size then return nodeCreate rid (← words.mapM number) else throw .ridTooWide
  | .nodeUpdate, handle :: words => do
    let handle ← number handle
    return nodeUpdate handle (← words.mapM number)
  | .nodeDestroy, [handle] => do return nodeDestroy (← number handle)
  | .nodeAssociate, [group, handle] => do
    let group ← number group
    return nodeAssociate group (← number handle)
  | .nodeDissociate, [group, handle] => do
    let group ← number group
    return nodeDissociate group (← number handle)
  | verb, _ => throw (.usage verb)

/-- The command that the words spell. -/
def ofWords : List String → Except CommandFault Command
  | [] => throw .empty
  | word :: operands =>
    match Verb.ofWord? word with
    | some verb => ofOperands verb operands
    | none => throw .unknownCommand

/-- The command on a line. -/
def ofLine (line : String) : Except Error Command :=
  (ofWords ((Text.words line.toList).map String.ofList)).mapError (.badCommand line)

end Command

/-- The lines of a batch that hold a command, trimmed. -/
def commandLines (batch : String) : List String :=
  let lines := (Text.lines batch.toList).map Text.trim
  (lines.filter fun line => line.head?.any (· != '#')).map String.ofList

end Switchyard
