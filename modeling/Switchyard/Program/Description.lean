/-!
# Program descriptions

What a switch program declares: headers with their fields, the parse graph, the order in which
headers are written back, the tables, and the checksums to verify and recompute. A description
refers to everything by name; `Program.load` resolves the names.
-/

namespace Switchyard

/-- A field of a header and its width in bits. -/
structure FieldDecl where
  name : String
  bits : Nat
  deriving DecidableEq

/-- A header. The fields of a metadata header live beside the packet, not in its bytes. -/
structure HeaderDecl where
  name : String
  metadata : Bool
  fields : List FieldDecl
  deriving DecidableEq

/-- The width of a header in bits. -/
def HeaderDecl.bits (h : HeaderDecl) : Nat := h.fields.foldr (fun f total => f.bits + total) 0

/-- A transition of the parse graph, taken when the selected field has the value. -/
structure TransitionDecl where
  value : Nat
  next : String
  deriving DecidableEq

/-- A state of the parse graph: the headers it extracts, the field it selects on, and where it goes.
The names `accept` and `reject` are reserved for the two ends of a parse. -/
structure StateDecl where
  name : String
  extract : List String
  select : Option String
  transitions : List TransitionDecl
  fallback : Option String
  deriving DecidableEq

/-- How a table compares a key: by equality, or by the longest matching prefix. -/
inductive MatchKind where
  | exact
  | lpm
  deriving DecidableEq, Inhabited

/-- A key of a table: the field it reads and how it compares it. -/
structure KeyDecl where
  field : String
  kind : MatchKind
  deriving DecidableEq

/-- A match-action table. -/
structure TableDecl where
  name : String
  keys : List KeyDecl
  actions : List String
  defaultAction : Option String
  deriving DecidableEq

/-- A header checksum of the IPv4 kind. `lengthWords` names a field of the same header that counts
the header's length in 32-bit words; a longer header then includes the bytes that follow its
fields. -/
structure ChecksumDecl where
  header : String
  field : String
  lengthWords : Option String
  deriving DecidableEq

/-- A program description. The first parser state is where parsing starts. -/
structure Description where
  name : Option String
  headers : List HeaderDecl
  parser : List StateDecl
  deparser : List String
  tables : List TableDecl
  checksums : List ChecksumDecl
  deriving DecidableEq

end Switchyard
