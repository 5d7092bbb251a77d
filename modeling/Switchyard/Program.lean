import Switchyard.Control.Table

/-!
# Loaded programs

`Program.load` turns a description into a program: the names of headers, fields and parser states
are resolved to positions. A description in which a name does not resolve, or whose headers or
tables are ill-declared, is refused with the first defect in declaration order.

Where two parser states share a name, the name means the later one.
-/

namespace Switchyard

/-- Where a parser goes next. -/
inductive Target where
  | state (index : Nat)
  | accept
  | reject
  deriving DecidableEq, Inhabited

/-- A parser state with its names resolved. -/
structure ParseState where
  extract : List HeaderId
  select : Option FieldId
  transitions : List (Nat × Target)
  fallback : Option Target
  deriving DecidableEq, Inhabited

/-- A header checksum with its names resolved. -/
structure ChecksumRule where
  header : HeaderId
  field : FieldId
  lengthWords : Option FieldId
  deriving DecidableEq, Inhabited

/-- A program that is ready to run. Its tables are as declared, without entries. -/
structure Program where
  description : Description
  layout : Layout
  states : List ParseState
  deparseOrder : List HeaderId
  checksums : List ChecksumRule
  tables : TableStore
  deriving DecidableEq

namespace Program

/-- The position of the last parser state with the name. -/
def stateIndex? (states : List StateDecl) (name : String) : Option Nat :=
  (states.zipIdx.reverse.find? fun (s, _) => s.name == name).map (·.2)

/-- What the target of a transition means. -/
def target (states : List StateDecl) (name : String) : Except Error Target :=
  if name = "accept" then .ok .accept
  else if name = "reject" then .ok .reject
  else
    match stateIndex? states name with
    | some i => .ok (.state i)
    | none => .error (.invalidProgram (.unknownState name))

def parseState (L : Layout) (states : List StateDecl) (decl : StateDecl) :
    Except Error ParseState := do
  let extract ← decl.extract.mapM L.requireHeader
  let select ← decl.select.mapM L.requireField
  let transitions ← decl.transitions.mapM fun t => do return (t.value, ← target states t.next)
  let fallback ← decl.fallback.mapM (target states)
  return { extract, select, transitions, fallback }

def checksumRule (L : Layout) (decl : ChecksumDecl) : Except Error ChecksumRule := do
  let header ← L.requireHeader decl.header
  let field ← L.requireField (Layout.qualified decl.header decl.field)
  let lengthWords ← decl.lengthWords.mapM fun f => L.requireField (Layout.qualified decl.header f)
  return { header, field, lengthWords }

/-- The program that a description declares. -/
def load (d : Description) : Except Error Program := do
  let layout ← Layout.ofHeaders d.headers
  let states ← d.parser.mapM (parseState layout d.parser)
  let deparseOrder ← d.deparser.mapM layout.requireHeader
  let checksums ← d.checksums.mapM (checksumRule layout)
  let tables ← TableStore.ofDecls layout d.tables
  return { description := d, layout, states, deparseOrder, checksums, tables }

end Program

end Switchyard
