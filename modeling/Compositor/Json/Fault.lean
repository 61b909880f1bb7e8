import Compositor.Decimal.Layout
import Compositor.Text.Shown

/-!
# Faults of JSON text

Every reason for which a text is refused, and the one wording of each.
-/

namespace Compositor.Json

inductive Found where
  | null
  | boolean (value : Bool)
  | natural (value : Nat)
  | negative (value : Int)
  | real (value : Float)
  | text (value : String)
  | list
  | record
deriving DecidableEq

inductive Fault where
  | endOfValue
  | endOfText
  | endOfList
  | endOfRecord
  | valueExpected
  | wordExpected
  | colonExpected
  | itemSeparatorExpected
  | memberSeparatorExpected
  | trailingComma
  | trailingCharacters
  | keyExpected
  | invalidNumber
  | numberOutOfRange
  | invalidEscape
  | unexpectedEndOfEscape
  | loneSurrogate
  | undecodable
  | controlCharacter
  | missingField (name : String)
  | duplicateField (name : String)
  | unknownVariant (name : String) (expected : List String)
  | wrongType (found : Found) (expected : String)
  | wrongValue (found : Found) (expected : String)
  | wrongLength (length : Nat) (expected : String)
  | refused (reason : String)
deriving DecidableEq

def ticked (word : String) : String := "\x60" ++ word ++ "\x60"

def Found.shown : Found → String
  | .null => "null"
  | .boolean value => "boolean " ++ ticked (if value then "true" else "false")
  | .natural value => "integer " ++ ticked (Decimal.whole value)
  | .negative value => "integer " ++ ticked (String.ofList (Decimal.wholeText value))
  | .real value => "floating point " ++ ticked (Decimal.jsonLayout.text value)
  | .text value => "string " ++ Text.shown value
  | .list => "sequence"
  | .record => "map"

def oneOf : List String → String
  | [] => "there are no variants"
  | [name] => "expected " ++ ticked name
  | [first, second] => "expected " ++ ticked first ++ " or " ++ ticked second
  | names => "expected one of " ++ ", ".intercalate (names.map ticked)

def Fault.message : Fault → String
  | .endOfValue => "EOF while parsing a value"
  | .endOfText => "EOF while parsing a string"
  | .endOfList => "EOF while parsing a list"
  | .endOfRecord => "EOF while parsing an object"
  | .valueExpected => "expected value"
  | .wordExpected => "expected ident"
  | .colonExpected => "expected " ++ ticked ":"
  | .itemSeparatorExpected => "expected " ++ ticked "," ++ " or " ++ ticked "]"
  | .memberSeparatorExpected => "expected " ++ ticked "," ++ " or " ++ ticked "\x7d"
  | .trailingComma => "trailing comma"
  | .trailingCharacters => "trailing characters"
  | .keyExpected => "key must be a string"
  | .invalidNumber => "invalid number"
  | .numberOutOfRange => "number out of range"
  | .invalidEscape => "invalid escape"
  | .unexpectedEndOfEscape => "unexpected end of hex escape"
  | .loneSurrogate => "lone leading surrogate in hex escape"
  | .undecodable => "invalid unicode code point"
  | .controlCharacter => "control character (\\u0000-\\u001F) found while parsing a string"
  | .missingField name => "missing field " ++ ticked name
  | .duplicateField name => "duplicate field " ++ ticked name
  | .unknownVariant name expected => "unknown variant " ++ ticked name ++ ", " ++ oneOf expected
  | .wrongType found expected => "invalid type: " ++ found.shown ++ ", expected " ++ expected
  | .wrongValue found expected => "invalid value: " ++ found.shown ++ ", expected " ++ expected
  | .wrongLength length expected =>
    "invalid length " ++ Decimal.whole length ++ ", expected " ++ expected
  | .refused reason => reason

end Compositor.Json
