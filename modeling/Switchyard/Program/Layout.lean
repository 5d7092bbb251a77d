import Switchyard.Error
import Switchyard.Program.Description

/-!
# Field layouts

A layout numbers the headers and the fields of a program in declaration order, so that a packet can
keep its field values in one list. A field is known by its qualified name `header.field`; names are
resolved once, when a program is loaded.

Declaring a header can fail half way. The fields declared before the failure stay: they keep their
positions and their names, but belong to no header.
-/

namespace Switchyard

/-- The position of a field in its layout. -/
abbrev FieldId := Nat

/-- The position of a header in its layout. -/
abbrev HeaderId := Nat

namespace Layout

/-- A declared field: qualified name, the header it was declared for, and its width. -/
structure Field where
  name : String
  header : HeaderId
  bits : Nat
  deriving DecidableEq, Inhabited

/-- The largest value of a field. -/
def Field.mask (f : Field) : Nat := Nat.pow 2 f.bits - 1

/-- A declared header: its fields are the `count` fields from position `first` on, `bits` wide
together. -/
structure Header where
  name : String
  metadata : Bool
  first : FieldId
  count : Nat
  bits : Nat
  deriving DecidableEq, Inhabited

end Layout

/-- The headers and fields of a program, in declaration order. -/
structure Layout where
  headers : List Layout.Header
  fields : List Layout.Field
  deriving DecidableEq, Inhabited

/-- Declarations change a layout, and what they did before a failure stays done. -/
abbrev LayoutM := EStateM Error Layout

namespace Layout

def empty : Layout := ⟨[], []⟩

def fieldId? (L : Layout) (name : String) : Option FieldId := L.fields.findIdx? (·.name == name)

def headerId? (L : Layout) (name : String) : Option HeaderId :=
  L.headers.findIdx? (·.name == name)

def requireField (L : Layout) (name : String) : Except Error FieldId :=
  (L.fieldId? name).elim (.error (.unknownField name)) .ok

def requireHeader (L : Layout) (name : String) : Except Error HeaderId :=
  (L.headerId? name).elim (.error (.unknownHeader name)) .ok

/-- The width of a field; zero where there is no field. -/
def width (L : Layout) (id : FieldId) : Nat := (L.fields[id]?.map (·.bits)).getD 0

/-- The positions of a header's fields. -/
def fieldIds (L : Layout) (id : HeaderId) : List FieldId :=
  match L.headers[id]? with
  | some h => List.range' h.first h.count
  | none => []

/-- The width of a header. -/
def headerBits (L : Layout) (id : HeaderId) : Nat := (L.headers[id]?.map (·.bits)).getD 0

/-- The qualified name of a field. -/
def qualified (header field : String) : String := header ++ "." ++ field

/-- Declares one field for the header that is being declared. -/
def addField (header : String) (field : FieldDecl) : LayoutM Unit := do
  let L ← get
  let name := qualified header field.name
  if field.bits = 0 ∨ 128 < field.bits then
    throw (.invalidProgram (.fieldWidth name field.bits))
  else if (L.fieldId? name).isSome then
    throw (.invalidProgram (.duplicateField name))
  else
    let declared : Field := { name := name, header := L.headers.length, bits := field.bits }
    set { L with fields := L.fields ++ [declared] }

/-- Declares a header with its fields, and answers its position. -/
def addHeader (decl : HeaderDecl) : LayoutM HeaderId := do
  let before ← get
  if (before.headerId? decl.name).isSome then
    throw (.invalidProgram (.duplicateHeader decl.name))
  else
    decl.fields.forM (addField decl.name)
    let after ← get
    let header : Header :=
      { name := decl.name
        metadata := decl.metadata
        first := before.fields.length
        count := decl.fields.length
        bits := decl.bits }
    set { after with headers := after.headers ++ [header] }
    return after.headers.length

/-- The layout of a list of headers. -/
def ofHeaders (headers : List HeaderDecl) : Except Error Layout :=
  match (headers.forM fun h => do let _ ← addHeader h) Layout.empty with
  | .ok _ L => .ok L
  | .error e _ => .error e

end Layout

end Switchyard
