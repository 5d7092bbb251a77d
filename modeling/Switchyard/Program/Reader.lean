import Switchyard.Error
import Switchyard.Json.Reader
import Switchyard.Program.Description

/-!
# Reading program descriptions

A program description is written in JSON. Each declaration is a record: an object, or an array of
its fields in order. Members that no field names are skipped. Widths are 16-bit and transition
values 64-bit natural numbers.
-/

namespace Switchyard

namespace Description

open Json

/-- A natural number below the bound. -/
def below? (bound : Nat) (value : Json) : Option Nat := value.natural?.filter (· < bound)

def field? (value : Json) : Option FieldDecl := do
  let ms ← value.record? ["name", "bits"]
  return { name := ← required ms "name" text?, bits := ← required ms "bits" (below? UInt16.size) }

def header? (value : Json) : Option HeaderDecl := do
  let ms ← value.record? ["name", "metadata", "fields"]
  return {
    name := ← required ms "name" text?
    metadata := ← optional ms "metadata" false bool?
    fields := ← required ms "fields" (list? field?) }

def transition? (value : Json) : Option TransitionDecl := do
  let ms ← value.record? ["value", "next"]
  return { value := ← required ms "value" (below? UInt64.size), next := ← required ms "next" text? }

def state? (value : Json) : Option StateDecl := do
  let ms ← value.record? ["name", "extract", "select", "transitions", "default"]
  return {
    name := ← required ms "name" text?
    extract := ← optional ms "extract" [] (list? text?)
    select := ← optional ms "select" none (nullOr? text?)
    transitions := ← optional ms "transitions" [] (list? transition?)
    fallback := ← optional ms "default" none (nullOr? text?) }

/-- A match kind by name. -/
def matchKindOfName? : String → Option MatchKind
  | "exact" => some .exact
  | "lpm" => some .lpm
  | _ => none

/-- A match kind: its name, or an object whose one member has the name and is null. -/
def matchKind? : Json → Option MatchKind
  | string text => text.bind matchKindOfName?
  | object [(key, null)] => key.bind matchKindOfName?
  | _ => none

def key? (value : Json) : Option KeyDecl := do
  let ms ← value.record? ["field", "match_kind"]
  return {
    field := ← required ms "field" text?
    kind := ← optional ms "match_kind" .exact matchKind? }

def table? (value : Json) : Option TableDecl := do
  let ms ← value.record? ["name", "keys", "actions", "default_action"]
  return {
    name := ← required ms "name" text?
    keys := ← required ms "keys" (list? key?)
    actions := ← required ms "actions" (list? text?)
    defaultAction := ← optional ms "default_action" none (nullOr? text?) }

def checksum? (value : Json) : Option ChecksumDecl := do
  let ms ← value.record? ["header", "field", "length_words"]
  return {
    header := ← required ms "header" text?
    field := ← required ms "field" text?
    lengthWords := ← optional ms "length_words" none (nullOr? text?) }

def ofJson? (value : Json) : Option Description := do
  let ms ← value.record? ["name", "headers", "parser", "deparser", "tables", "checksums"]
  return {
    name := ← optional ms "name" none (nullOr? text?)
    headers := ← required ms "headers" (list? header?)
    parser := ← optional ms "parser" [] (list? state?)
    deparser := ← optional ms "deparser" [] (list? text?)
    tables := ← optional ms "tables" [] (list? table?)
    checksums := ← optional ms "checksums" [] (list? checksum?) }

/-- The program description that a text spells. -/
def ofText (text : String) : Except Error Description :=
  ((Json.ofText? text).bind ofJson?).elim (.error .malformed) .ok

end Description

end Switchyard
