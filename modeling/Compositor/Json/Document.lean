import Compositor.Json.Token

/-!
# JSON text as it is read

A document is what reading has seen of a text: the whole value if the text is
well formed, and otherwise everything up to the flaw that reading stops at.
Which fault a flaw amounts to depends on what the reader of the document was
looking for, so a document only says how each list and record ended.

Tokens are folded into a document by a machine whose state holds the enclosing
lists and records.
-/

namespace Compositor.Json

inductive ListEnd where
  | closed
  | cut
  | unseparated
  | closedAfterComma
deriving DecidableEq

inductive RecordEnd where
  | closed
  | cut
  | unseparated
  | closedAfterComma
  | cutAfterComma
  | strayKey (token : Token)
deriving DecidableEq

inductive Document where
  | null
  | boolean (value : Bool)
  | number (numeral : Numeral)
  | text (quoted : Quoted)
  | list (items : List Document) (ending : ListEnd)
  | record (members : List (Quoted × Document)) (ending : RecordEnd)
  | flawed (flaw : Flaw)

/-- A list or record that is still open; its parts are kept in reverse. -/
inductive Frame where
  | list (items : List Document)
  | record (members : List (Quoted × Document)) (key : Quoted)

inductive State where
  | atValue (frames : List Frame)
  | atItem (items : List Document) (frames : List Frame)
  | afterItem (items : List Document) (frames : List Frame)
  | atKey (members : List (Quoted × Document)) (frames : List Frame)
  | atColon (members : List (Quoted × Document)) (key : Quoted) (frames : List Frame)
  | afterMember (members : List (Quoted × Document)) (frames : List Frame)
  | complete (document : Document)
  | excess (document : Document)
  | stopped (document : Document)

/-- A finished value takes its place in the innermost open list or record. -/
def place (document : Document) : List Frame → State
  | [] => .complete document
  | .list items :: frames => .afterItem (document :: items) frames
  | .record members key :: frames => .afterMember ((key, document) :: members) frames

def closeList (items : List Document) (ending : ListEnd) : Document :=
  .list items.reverse ending

def closeRecord (members : List (Quoted × Document)) (ending : RecordEnd) : Document :=
  .record members.reverse ending

def enclose (document : Document) : List Frame → Document
  | [] => document
  | .list items :: frames => enclose (closeList (document :: items) .cut) frames
  | .record members key :: frames =>
    enclose (closeRecord ((key, document) :: members) .cut) frames

def stop (document : Document) (frames : List Frame) : State :=
  .stopped (enclose document frames)

def beginValue (frames : List Frame) : Token → State
  | .openList => .atItem [] frames
  | .openRecord => .atKey [] frames
  | .null => place .null frames
  | .boolean value => place (.boolean value) frames
  | .number numeral => place (.number numeral) frames
  | .text quoted =>
    if quoted.ending = .closed then place (.text quoted) frames else stop (.text quoted) frames
  | .flawed flaw => stop (.flawed flaw) frames
  | .closeList | .closeRecord | .comma | .colon => stop (.flawed .noValue) frames

def State.step : State → Token → State
  | .atValue frames, token => beginValue frames token
  | .atItem [] frames, .closeList => place (.list [] .closed) frames
  | .atItem items frames, .closeList => stop (closeList items .closedAfterComma) frames
  | .atItem items frames, token => beginValue (.list items :: frames) token
  | .afterItem items frames, .closeList => place (closeList items .closed) frames
  | .afterItem items frames, .comma => .atItem items frames
  | .afterItem items frames, _ => stop (closeList items .unseparated) frames
  | .atKey [] frames, .closeRecord => place (.record [] .closed) frames
  | .atKey members frames, .closeRecord => stop (closeRecord members .closedAfterComma) frames
  | .atKey members frames, .text quoted =>
    if quoted.ending = .closed then .atColon members quoted frames
    else stop (closeRecord ((quoted, .flawed .cutValue) :: members) .cut) frames
  | .atKey members frames, token => stop (closeRecord members (.strayKey token)) frames
  | .atColon members key frames, .colon => .atValue (.record members key :: frames)
  | .atColon members key frames, _ =>
    stop (closeRecord ((key, .flawed .noColon) :: members) .cut) frames
  | .afterMember members frames, .closeRecord => place (closeRecord members .closed) frames
  | .afterMember members frames, .comma => .atKey members frames
  | .afterMember members frames, _ => stop (closeRecord members .unseparated) frames
  | .complete document, _ => .excess document
  | .excess document, _ => .excess document
  | .stopped document, _ => .stopped document

structure Reading where
  document : Document
  excess : Bool

def State.finish : State → Reading
  | .atValue frames => ⟨enclose (.flawed .cutValue) frames, false⟩
  | .atItem [] frames => ⟨enclose (.list [] .cut) frames, false⟩
  | .atItem items frames =>
    ⟨enclose (closeList (.flawed .cutValue :: items) .cut) frames, false⟩
  | .afterItem items frames => ⟨enclose (closeList items .cut) frames, false⟩
  | .atKey [] frames => ⟨enclose (.record [] .cut) frames, false⟩
  | .atKey members frames => ⟨enclose (closeRecord members .cutAfterComma) frames, false⟩
  | .atColon members key frames =>
    ⟨enclose (closeRecord ((key, .flawed .cutColon) :: members) .cut) frames, false⟩
  | .afterMember members frames => ⟨enclose (closeRecord members .cut) frames, false⟩
  | .complete document => ⟨document, false⟩
  | .excess document => ⟨document, true⟩
  | .stopped document => ⟨document, false⟩

def Reading.ofTokens (tokens : List Token) : Reading :=
  (tokens.foldl State.step (.atValue [])).finish

def Reading.ofSymbols (symbols : List Symbol) : Reading := .ofTokens (tokens symbols)

end Compositor.Json
