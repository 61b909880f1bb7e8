import Compositor.Json.Reader
import Compositor.Json.Tree

/-!
# Choices between names

A value that is one of finitely many is written as its name.  It may be read
from any of its names, and also from a record with the name as its only member
and null as the value.
-/

namespace Compositor.Json

structure VariantFormat (α : Type) where
  values : List α
  name : α → String
  otherNames : α → List String

variable {α : Type} (format : VariantFormat α)

def VariantFormat.names (value : α) : List String :=
  format.name value :: format.otherNames value

def VariantFormat.allNames : List String := format.values.flatMap format.names

def VariantFormat.ofName? (name : String) : Option α :=
  format.values.find? fun value => (format.names value).contains name

def VariantFormat.write (value : α) : Tree := .text (format.name value)

def VariantFormat.ofQuoted (quoted : Quoted) : Except Fault α := do
  let name ← quoted.text
  match format.ofName? name with
  | some value => return value
  | none => throw (.unknownVariant name format.allNames)

def readNothing : Reader Unit
  | .null => .ok ()
  | document => document.mismatch "unit"

def RecordEnd.checkOnly : RecordEnd → Except Fault Unit
  | .closed => .ok ()
  | .cut => .error .endOfRecord
  | _ => .error .valueExpected

def Token.document : Token → Document
  | .null => .null
  | .boolean value => .boolean value
  | .number numeral => .number numeral
  | .text quoted => .text quoted
  | .openList => .list [] .cut
  | .openRecord => .record [] .cut
  | .flawed flaw => .flawed flaw
  | .closeList | .closeRecord | .comma | .colon => .flawed .noValue

/-- A record without members is no choice. -/
def RecordEnd.noVariant {β : Type} : RecordEnd → Except Fault β
  | .strayKey token => token.document.mismatch "variant identifier"
  | .cut => .error .endOfValue
  | _ => .error .valueExpected

def VariantFormat.read : Reader α
  | .text quoted => format.ofQuoted quoted
  | .record ((key, value) :: members) ending => do
    let variant ← format.ofQuoted key
    readNothing value
    if !members.isEmpty then throw .valueExpected
    ending.checkOnly
    return variant
  | .record [] ending => ending.noVariant
  | .flawed .cutValue => .error .endOfValue
  | .flawed .noColon => .error .colonExpected
  | .flawed .cutColon => .error .endOfRecord
  | _ => .error .valueExpected

end Compositor.Json
