import Compositor.Decimal.Reading
import Compositor.Text.Utf8

/-!
# Quoted text as it is read

A quoted text is kept as the pieces between its quotation marks, together with
the way it ended.  Whether the pieces spell a text is asked only where the text
is wanted: a skipped text may hold escapes that pair up to no character.
-/

namespace Compositor.Json

/-- A character of the input, or a byte that belongs to none. -/
abbrev Symbol := Option Char

def pieceSymbols : Text.Utf8Piece → List Symbol
  | .scalar char => [some char]
  | .malformed width => List.replicate width none

def byteSymbols (bytes : List UInt8) : List Symbol :=
  (Text.utf8Pieces bytes).flatMap pieceSymbols

inductive Piece where
  | scalar (char : Char)
  | unit (code : Nat)
  | undecodable
deriving DecidableEq

inductive QuoteEnd where
  | closed
  | cut
  | control
  | unknownEscape
  | badDigits
deriving DecidableEq

structure Quoted where
  pieces : List Piece
  ending : QuoteEnd
deriving DecidableEq

def Quoted.ended (ending : QuoteEnd) : Quoted := ⟨[], ending⟩

def Quoted.add (piece : Piece) (quoted : Quoted) : Quoted :=
  { quoted with pieces := piece :: quoted.pieces }

def Symbol.width : Symbol → Nat
  | none => 1
  | some char => char.utf8Size

def escapedChar? (char : Char) : Option Char :=
  match char with
  | '"' => some '"'
  | '\\' => some '\\'
  | '/' => some '/'
  | 'b' => some '\x08'
  | 'f' => some '\x0c'
  | 'n' => some '\n'
  | 'r' => some '\r'
  | 't' => some '\t'
  | _ => none

def fourDigits? (first second third fourth : Symbol) : Option Nat := do
  let first ← Decimal.hexValue? (← first)
  let second ← Decimal.hexValue? (← second)
  let third ← Decimal.hexValue? (← third)
  let fourth ← Decimal.hexValue? (← fourth)
  some (((16 * first + second) * 16 + third) * 16 + fourth)

def shortEscape (symbols : List Symbol) : Quoted :=
  if (symbols.map Symbol.width).foldr (· + ·) 0 < 4 then .ended .cut else .ended .badDigits

def scanQuoted : List Symbol → Quoted × List Symbol
  | [] => (.ended .cut, [])
  | none :: rest =>
    let (quoted, rest) := scanQuoted rest
    (quoted.add .undecodable, rest)
  | [some '\\'] => (.ended .cut, [])
  | some '\\' :: some 'u' :: first :: second :: third :: fourth :: rest =>
    match fourDigits? first second third fourth with
    | none => (.ended .badDigits, [])
    | some code =>
      let (quoted, rest) := scanQuoted rest
      (quoted.add (.unit code), rest)
  | some '\\' :: some 'u' :: rest => (shortEscape rest, [])
  | some '\\' :: none :: _ => (.ended .unknownEscape, [])
  | some '\\' :: some char :: rest =>
    match escapedChar? char with
    | none => (.ended .unknownEscape, [])
    | some char =>
      let (quoted, rest) := scanQuoted rest
      (quoted.add (.scalar char), rest)
  | some char :: rest =>
    if char = '"' then (.ended .closed, rest)
    else if char.toNat < 0x20 then (.ended .control, [])
    else
      let (quoted, rest) := scanQuoted rest
      (quoted.add (.scalar char), rest)

theorem length_scanQuoted_le (symbols : List Symbol) :
    (scanQuoted symbols).2.length ≤ symbols.length := by
  fun_induction scanQuoted symbols <;> simp_all <;> omega

end Compositor.Json
