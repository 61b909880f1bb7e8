import Compositor.Json.Document
import Compositor.Json.Fault

/-!
# Reading values out of documents

A reader turns a document into a value or names the first fault that it comes
to, in the order of the text.  Parts that nobody asks for are skipped, but have
to be well formed as well.
-/

namespace Compositor.Json

abbrev Reader (α : Type) := Document → Except Fault α

def isHighSurrogate (code : Nat) : Bool := decide (0xd800 ≤ code ∧ code ≤ 0xdbff)

def isLowSurrogate (code : Nat) : Bool := decide (0xdc00 ≤ code ∧ code ≤ 0xdfff)

def surrogatePair (high low : Nat) : Char :=
  Char.ofNat (0x10000 + (high - 0xd800) * 0x400 + (low - 0xdc00))

def QuoteEnd.check : QuoteEnd → Except Fault Unit
  | .closed => .ok ()
  | .cut => .error .endOfText
  | .control => .error .controlCharacter
  | .unknownEscape => .error .invalidEscape
  | .badDigits => .error .invalidEscape

def QuoteEnd.afterSurrogate : QuoteEnd → Fault
  | .cut => .endOfText
  | .badDigits => .invalidEscape
  | .closed | .control | .unknownEscape => .unexpectedEndOfEscape

/-- The characters that some pieces spell; surrogates have to come in pairs. -/
def spelledChars (ending : QuoteEnd) : List Piece → Except Fault (List Char)
  | [] => do
    ending.check
    return []
  | .scalar char :: pieces => do
    let chars ← spelledChars ending pieces
    return char :: chars
  | .undecodable :: pieces => do
    let _ ← spelledChars ending pieces
    throw .undecodable
  | .unit high :: .unit low :: pieces => do
    if isLowSurrogate high then throw .loneSurrogate
    else if isHighSurrogate high then
      if isLowSurrogate low then
        let chars ← spelledChars ending pieces
        return surrogatePair high low :: chars
      else throw .loneSurrogate
    else
      let chars ← spelledChars ending (.unit low :: pieces)
      return Char.ofNat high :: chars
  | .unit code :: pieces => do
    if isLowSurrogate code then throw .loneSurrogate
    else if isHighSurrogate code then
      match pieces with
      | [] => throw ending.afterSurrogate
      | _ => throw .unexpectedEndOfEscape
    else
      let chars ← spelledChars ending pieces
      return Char.ofNat code :: chars

def Quoted.text (quoted : Quoted) : Except Fault String := do
  let chars ← spelledChars quoted.ending quoted.pieces
  return String.ofList chars

def Flaw.fault : Flaw → Fault
  | .noValue => .valueExpected
  | .cutValue | .cutWord | .cutNumber => .endOfValue
  | .brokenWord => .wordExpected
  | .brokenNumber => .invalidNumber
  | .noColon => .colonExpected
  | .cutColon => .endOfRecord

def Flaw.skippedFault : Flaw → Fault
  | .cutNumber => .invalidNumber
  | flaw => flaw.fault

def ListEnd.skip : ListEnd → Except Fault Unit
  | .closed => .ok ()
  | .cut => .error .endOfList
  | .unseparated => .error .itemSeparatorExpected
  | .closedAfterComma => .error .valueExpected

def RecordEnd.skip : RecordEnd → Except Fault Unit
  | .closed => .ok ()
  | .cut | .cutAfterComma => .error .endOfRecord
  | .unseparated => .error .memberSeparatorExpected
  | .closedAfterComma | .strayKey _ => .error .keyExpected

mutual

def Document.skip : Document → Except Fault Unit
  | .null => .ok ()
  | .boolean _ => .ok ()
  | .number _ => .ok ()
  | .text quoted => quoted.ending.check
  | .list items ending => do
    skipItems items
    ending.skip
  | .record members ending => do
    skipMembers members
    ending.skip
  | .flawed flaw => .error flaw.skippedFault

def skipItems : List Document → Except Fault Unit
  | [] => .ok ()
  | item :: items => do
    item.skip
    skipItems items

def skipMembers : List (Quoted × Document) → Except Fault Unit
  | [] => .ok ()
  | (key, value) :: members => do
    key.ending.check
    value.skip
    skipMembers members

end

def Number.found : Number → Found
  | .natural value => .natural value
  | .negative value => .negative value
  | .real value => .real value

def Numeral.number (numeral : Numeral) : Except Fault Number :=
  match numeral.value? with
  | some number => .ok number
  | none => .error .numberOutOfRange

def Document.found : Document → Except Fault Found
  | .null => .ok .null
  | .boolean value => .ok (.boolean value)
  | .number numeral => Number.found <$> numeral.number
  | .text quoted => .text <$> quoted.text
  | .list _ _ => .ok .list
  | .record _ _ => .ok .record
  | .flawed flaw => .error flaw.fault

def Document.mismatch {α : Type} (document : Document) (expected : String) :
    Except Fault α := do
  let found ← document.found
  throw (.wrongType found expected)

def readText : Reader String
  | .text quoted => quoted.text
  | document => document.mismatch "a string"

def readBoolean : Reader Bool
  | .boolean value => .ok value
  | document => document.mismatch "a boolean"

def Number.toReal : Number → Float
  | .natural value => Decimal.nearest false value 0
  | .negative value => Decimal.nearest true value.natAbs 0
  | .real value => value

def readReal : Reader Float
  | .number numeral => Number.toReal <$> numeral.number
  | document => document.mismatch "f64"

/-- A whole number below `bound`; `expected` is what such numbers are called. -/
def readNatural (bound : Nat) (expected : String) : Reader Nat
  | .number numeral => do
    match ← numeral.number with
    | .natural value =>
      if value < bound then return value
      else throw (.wrongValue (.natural value) expected)
    | .negative value => throw (.wrongValue (.negative value) expected)
    | .real value => throw (.wrongType (.real value) expected)
  | document => document.mismatch expected

def readOption {α : Type} (read : Reader α) : Reader (Option α)
  | .null => .ok none
  | document => some <$> read document

def ListEnd.check : ListEnd → Except Fault Unit
  | .closed => .ok ()
  | .cut => .error .endOfList
  | .unseparated => .error .itemSeparatorExpected
  | .closedAfterComma => .error .trailingComma

def readItems {α : Type} (read : Reader α) : List Document → Except Fault (List α)
  | [] => .ok []
  | item :: items => do
    let value ← read item
    let values ← readItems read items
    return value :: values

def readList {α : Type} (read : Reader α) : Reader (List α)
  | .list items ending => do
    let values ← readItems read items
    ending.check
    return values
  | document => document.mismatch "a sequence"

def RecordEnd.check : RecordEnd → Except Fault Unit
  | .closed => .ok ()
  | .cut => .error .endOfRecord
  | .unseparated => .error .memberSeparatorExpected
  | .closedAfterComma => .error .trailingComma
  | .cutAfterComma => .error .endOfValue
  | .strayKey _ => .error .keyExpected

def readMembers {α : Type} (read : Reader α) :
    List (Quoted × Document) → Except Fault (List (String × α))
  | [] => .ok []
  | (key, value) :: members => do
    let name ← key.text
    let value ← read value
    let values ← readMembers read members
    return (name, value) :: values

def readMap {α : Type} (read : Reader α) : Reader (List (String × α))
  | .record members ending => do
    let values ← readMembers read members
    ending.check
    return values
  | document => document.mismatch "a map"

def Reading.value {α : Type} (read : Reader α) (reading : Reading) : Except Fault α := do
  let value ← read reading.document
  if reading.excess then throw .trailingCharacters
  return value

def ofSymbols {α : Type} (read : Reader α) (symbols : List Symbol) : Except Fault α :=
  (Reading.ofSymbols symbols).value read

end Compositor.Json
