import Switchyard.Program.Layout

/-!
# Match-action tables

A table maps key values to action calls. Each key of an entry is a value to equal or a prefix to
agree on; of the entries that match, the one with the longest prefixes wins, and among equals the
oldest. Where none matches, the default call of the table answers, if it has one.

Entries are kept newest first, so their handles descend. Handles are never given out twice.
-/

namespace Switchyard

/-- What an entry asks of one key. -/
inductive KeyMatch where
  | exact (value : Nat)
  | lpm (value prefixLen : Nat)
  deriving DecidableEq, Inhabited

/-- An action and its arguments. -/
structure ActionCall where
  action : String
  args : List Nat
  deriving DecidableEq, Inhabited

/-- The argument at position `i`; a missing argument is zero. -/
def ActionCall.arg (call : ActionCall) (i : Nat) : Nat := call.args.getD i 0

/-- An entry of a table. -/
structure TableEntry where
  handle : Nat
  keys : List KeyMatch
  call : ActionCall
  deriving DecidableEq, Inhabited

/-- A key of a table, resolved: the field it reads, the field's width, and how it compares. -/
structure TableKey where
  field : FieldId
  width : Nat
  kind : MatchKind
  deriving DecidableEq, Inhabited

/-- A match-action table. -/
structure Table where
  name : String
  keys : List TableKey
  actions : List String
  entries : List TableEntry
  nextHandle : Nat
  defaultCall : Option ActionCall
  deriving DecidableEq, Inhabited

namespace KeyMatch

/-- The top `prefixLen` bits of a value in a field of the given width. -/
def topBits (width prefixLen value : Nat) : Nat :=
  value % Nat.pow 2 width / Nat.pow 2 (width - prefixLen)

/-- The prefix length that a value earns, if it matches. An exact key earns nothing. -/
def score? (width : Nat) (key : KeyMatch) (value : Nat) : Option Nat :=
  match key with
  | exact wanted => if wanted = value then some 0 else none
  | lpm wanted prefixLen =>
    if topBits width prefixLen wanted = topBits width prefixLen value then some prefixLen else none

/-- Why a key does not fit, if it does not. -/
def fault? (spec : TableKey) : KeyMatch → Option KeyFault
  | exact _ => if spec.kind = .lpm then some .prefixExpected else none
  | lpm _ prefixLen =>
    if spec.kind = .exact then some .prefixUnexpected
    else if spec.width < prefixLen then some (.prefixTooLong prefixLen spec.width)
    else none

end KeyMatch

namespace Table

/-- The summed score of keys against values, position by position, if all of them match. -/
def totalScore? : List TableKey → List KeyMatch → List Nat → Option Nat
  | spec :: specs, key :: keys, value :: values => do
    let score ← key.score? spec.width value
    let rest ← totalScore? specs keys values
    return score + rest
  | _, _, _ => some 0

/-- The better of a candidate and the best so far; the one so far is older and wins a draw. -/
def better (t : Table) (values : List Nat) (e : TableEntry) (best : Option (Nat × TableEntry)) :
    Option (Nat × TableEntry) :=
  match totalScore? t.keys e.keys values, best with
  | none, _ => best
  | some score, none => some (score, e)
  | some score, some (bestScore, _) => if bestScore < score then some (score, e) else best

/-- The entry that answers for the given key values. -/
def bestEntry? (t : Table) (values : List Nat) : Option TableEntry :=
  (t.entries.foldr (t.better values) none).map (·.2)

/-- The call that answers for the given key values. -/
def lookup (t : Table) (values : List Nat) : Option ActionCall :=
  ((t.bestEntry? values).map (·.call)).or t.defaultCall

/-- The entries, oldest first. -/
def entriesByHandle (t : Table) : List TableEntry := t.entries.reverse

/-- Refuses an action that the table does not declare. -/
def requireAction (t : Table) (action : String) : Except Error Unit :=
  if action ∈ t.actions then .ok () else .error (.unknownAction t.name action)

/-- The first key that does not fit, if there is one, with its position. -/
def keyFault? (t : Table) (keys : List KeyMatch) : Option (Nat × KeyFault) :=
  ((t.keys.zip keys).zipIdx).findSome? fun ((spec, key), index) =>
    (key.fault? spec).map (index, ·)

/-- Refuses keys that do not fit the table. -/
def requireKeys (t : Table) (keys : List KeyMatch) : Except Error Unit :=
  if keys.length ≠ t.keys.length then .error (.keyCount t.name t.keys.length keys.length)
  else
    match t.keyFault? keys with
    | some (index, fault) => .error (.badKey t.name index fault)
    | none => .ok ()

/-- Refuses a handle that no entry has. -/
def requireEntry (t : Table) (handle : Nat) : Except Error Unit :=
  if t.entries.any (·.handle == handle) then .ok () else .error (.unknownEntry t.name handle)

end Table

/-- The tables of a program. -/
structure TableStore where
  tables : List Table
  deriving DecidableEq, Inhabited

/-- Operations on the tables of a program. -/
abbrev TableM := EStateM Error TableStore

namespace TableStore

def table? (s : TableStore) (name : String) : Option Table := s.tables.find? (·.name == name)

/-- The call that the named table answers with; an unknown table never answers. -/
def lookup (s : TableStore) (name : String) (values : List Nat) : Option ActionCall :=
  (s.table? name).bind (·.lookup values)

/-- The entries of the named table, oldest first. -/
def entries (s : TableStore) (name : String) : Except Error (List TableEntry) :=
  (s.table? name).elim (.error (.unknownTable name)) fun t => .ok t.entriesByHandle

/-- The number of entries of the named table; an unknown table has none. -/
def size (s : TableStore) (name : String) : Nat := ((s.table? name).map (·.entries.length)).getD 0

/-- The named table. -/
def requireTable (name : String) : TableM Table := do
  match (← get).table? name with
  | some t => return t
  | none => throw (.unknownTable name)

/-- Puts a table back in the place of the one with its name. -/
def putTable (t : Table) : TableM Unit :=
  modify fun s => { s with tables := s.tables.map fun old => if old.name = t.name then t else old }

/-- Adds an entry and answers its handle. -/
def add (name action : String) (keys : List KeyMatch) (args : List Nat) : TableM Nat := do
  let t ← requireTable name
  MonadExcept.ofExcept (t.requireAction action)
  MonadExcept.ofExcept (t.requireKeys keys)
  let entry : TableEntry := { handle := t.nextHandle, keys := keys, call := ⟨action, args⟩ }
  putTable { t with entries := entry :: t.entries, nextHandle := t.nextHandle + 1 }
  return t.nextHandle

/-- Removes an entry. That there was none turns out when it is removed. -/
def delete (name : String) (handle : Nat) : TableM Unit := do
  let t ← requireTable name
  putTable { t with entries := t.entries.filter (·.handle != handle) }
  MonadExcept.ofExcept (t.requireEntry handle)

/-- Gives an entry another call. -/
def modifyEntry (name : String) (handle : Nat) (action : String) (args : List Nat) :
    TableM Unit := do
  let t ← requireTable name
  MonadExcept.ofExcept (t.requireAction action)
  MonadExcept.ofExcept (t.requireEntry handle)
  let change (e : TableEntry) : TableEntry :=
    if e.handle = handle then { e with call := ⟨action, args⟩ } else e
  putTable { t with entries := t.entries.map change }

/-- Sets the default call. -/
def setDefault (name action : String) (args : List Nat) : TableM Unit := do
  let t ← requireTable name
  MonadExcept.ofExcept (t.requireAction action)
  putTable { t with defaultCall := some ⟨action, args⟩ }

/-- Removes all entries; the default call stays. -/
def clear (name : String) : TableM Unit := do
  let t ← requireTable name
  putTable { t with entries := [] }

/-- A table as declared, with no entry yet. A default action is called without arguments. -/
def tableOf (L : Layout) (decl : TableDecl) : Except Error Table := do
  let keys ← decl.keys.mapM fun k => do
    let id ← L.requireField k.field
    return { field := id, width := L.width id, kind := k.kind : TableKey }
  let defaultCall ← match decl.defaultAction with
    | none => pure none
    | some action =>
      if action ∈ decl.actions then pure (some ⟨action, []⟩)
      else throw (.unknownAction decl.name action)
  return { name := decl.name, keys := keys, actions := decl.actions, entries := [],
           nextHandle := 0, defaultCall := defaultCall }

/-- Adds a declared table to those before it. -/
def declare (L : Layout) (s : TableStore) (decl : TableDecl) : Except Error TableStore := do
  let t ← tableOf L decl
  if (s.table? decl.name).isSome then throw (.invalidProgram (.duplicateTable decl.name))
  else return { tables := s.tables ++ [t] }

/-- The tables that a program declares, all empty. -/
def ofDecls (L : Layout) (decls : List TableDecl) : Except Error TableStore :=
  decls.foldlM (declare L) ⟨[]⟩

end TableStore

end Switchyard
