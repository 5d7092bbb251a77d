import Switchyard.Json.Printer
import Switchyard.Program.Description

/-!
# Writing program descriptions

Every member of every record is written, in the order in which records list their fields; what is
absent is written as null.
-/

namespace Switchyard

namespace Description

open Json

/-- A name, or null. -/
def ofName? (name : Option String) : Json := name.elim null ofString

def ofNames (names : List String) : Json := array (names.map ofString)

def ofField (f : FieldDecl) : Json :=
  ofMembers [("name", ofString f.name), ("bits", ofNat f.bits)]

def ofHeader (h : HeaderDecl) : Json :=
  ofMembers [
    ("name", ofString h.name),
    ("metadata", bool h.metadata),
    ("fields", array (h.fields.map ofField))]

def ofTransition (t : TransitionDecl) : Json :=
  ofMembers [("value", ofNat t.value), ("next", ofString t.next)]

def ofState (s : StateDecl) : Json :=
  ofMembers [
    ("name", ofString s.name),
    ("extract", ofNames s.extract),
    ("select", ofName? s.select),
    ("transitions", array (s.transitions.map ofTransition)),
    ("default", ofName? s.fallback)]

def ofMatchKind : MatchKind → Json
  | .exact => ofString "exact"
  | .lpm => ofString "lpm"

def ofKey (k : KeyDecl) : Json :=
  ofMembers [("field", ofString k.field), ("match_kind", ofMatchKind k.kind)]

def ofTable (t : TableDecl) : Json :=
  ofMembers [
    ("name", ofString t.name),
    ("keys", array (t.keys.map ofKey)),
    ("actions", ofNames t.actions),
    ("default_action", ofName? t.defaultAction)]

def ofChecksum (c : ChecksumDecl) : Json :=
  ofMembers [
    ("header", ofString c.header),
    ("field", ofString c.field),
    ("length_words", ofName? c.lengthWords)]

/-- The JSON value of a description. -/
def toJson (d : Description) : Json :=
  ofMembers [
    ("name", ofName? d.name),
    ("headers", array (d.headers.map ofHeader)),
    ("parser", array (d.parser.map ofState)),
    ("deparser", ofNames d.deparser),
    ("tables", array (d.tables.map ofTable)),
    ("checksums", array (d.checksums.map ofChecksum))]

end Description

end Switchyard
