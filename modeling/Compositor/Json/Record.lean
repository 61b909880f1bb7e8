import Compositor.Json.Reader
import Compositor.Json.Tree

/-!
# Records with declared fields

A format names the fields of a record, says how each is read and written, and
which value an absent field has.  The same table serves for reading and for
writing.  A record is written with its fields in order of declaration; it is
read from members in any order, or from a list of its fields in order of
declaration.
-/

namespace Compositor.Json

structure RecordFormat (α : Type) where
  title : String
  Field : Type
  decideField : DecidableEq Field
  fields : List Field
  mem_fields : ∀ field, field ∈ fields
  name : Field → String
  otherNames : Field → List String
  Content : Field → Type
  read : (field : Field) → Reader (Content field)
  /-- The content of a field that is not given, unless it has to be. -/
  absent : (field : Field) → Option (Content field)
  write : (field : Field) → Content field → Option Tree
  build : ((field : Field) → Content field) → α
  part : α → (field : Field) → Content field

variable {α : Type} (format : RecordFormat α)

instance : DecidableEq format.Field := format.decideField

def RecordFormat.names (field : format.Field) : List String :=
  format.name field :: format.otherNames field

def RecordFormat.field? (name : String) : Option format.Field :=
  format.fields.find? fun field => (format.names field).contains name

def RecordFormat.members (value : α) : List (String × Tree) :=
  format.fields.filterMap fun field =>
    (format.write field (format.part value field)).map (format.name field, ·)

def RecordFormat.toTree (value : α) : Tree := .record (format.members value)

abbrev RecordFormat.Entries := (field : format.Field) → Option (format.Content field)

variable {format}

def RecordFormat.Entries.set (entries : format.Entries) (field : format.Field)
    (content : format.Content field) : format.Entries :=
  fun other => if h : field = other then some (h ▸ content) else entries other

def RecordFormat.Entries.finish (entries : format.Entries)
    (missing : format.Field → Fault) : Except Fault α :=
  let content (field : format.Field) := (entries field).or (format.absent field)
  match h : format.fields.find? fun field => (content field).isNone with
  | some field => .error (missing field)
  | none =>
    .ok <| format.build fun field =>
      (content field).get <| by
        have := List.find?_eq_none.mp h field (format.mem_fields field)
        simpa [Option.isSome_iff_ne_none] using this

def RecordFormat.readMembers (format : RecordFormat α) :
    List (Quoted × Document) → format.Entries → Except Fault format.Entries
  | [], entries => .ok entries
  | (key, value) :: members, entries => do
    let name ← key.text
    match format.field? name with
    | none =>
      value.skip
      format.readMembers members entries
    | some field =>
      if (entries field).isSome then throw (.duplicateField (format.name field))
      let content ← format.read field value
      format.readMembers members (entries.set field content)

def ListEnd.checkFull : ListEnd → Except Fault Unit
  | .unseparated => .error .trailingCharacters
  | ending => ending.check

def RecordFormat.readItems (format : RecordFormat α) (ending : ListEnd) :
    List format.Field → List Document → format.Entries → Except Fault format.Entries
  | [], [], entries => do
    ending.checkFull
    return entries
  | [], _ :: _, _ => .error .trailingCharacters
  | _ :: _, [], entries => do
    ending.check
    return entries
  | field :: fields, item :: items, entries => do
    let content ← format.read field item
    format.readItems ending fields items (entries.set field content)

variable (format)

def RecordFormat.description : String :=
  "struct " ++ format.title ++ " with " ++ Decimal.whole format.fields.length ++ " elements"

def RecordFormat.reader : Reader α
  | .record members ending => do
    let entries ← format.readMembers members fun _ => none
    ending.check
    entries.finish fun field => .missingField (format.name field)
  | .list items ending => do
    let entries ← format.readItems ending format.fields items fun _ => none
    entries.finish fun field =>
      .wrongLength (format.fields.idxOf field) format.description
  | document => document.mismatch ("struct " ++ format.title)

end Compositor.Json
