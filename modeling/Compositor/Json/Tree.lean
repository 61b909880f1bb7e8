import Compositor.Decimal.Layout

/-!
# JSON values and their text

Values to be written, and the two ways of writing them: compact, and spread
over lines with two blanks per level.  Both are one printer with a style that
says what stands between the parts.
-/

namespace Compositor.Json

inductive Tree where
  | null
  | boolean (value : Bool)
  | whole (value : Nat)
  | number (value : Float)
  | text (value : String)
  | list (items : List Tree)
  | record (members : List (String × Tree))

def Tree.ofOption {α : Type} (write : α → Tree) : Option α → Tree
  | none => .null
  | some value => write value

def escapeControl (char : Char) : List Char :=
  if char = '\x08' then ['\\', 'b']
  else if char = '\t' then ['\\', 't']
  else if char = '\n' then ['\\', 'n']
  else if char = '\x0c' then ['\\', 'f']
  else if char = '\r' then ['\\', 'r']
  else '\\' :: 'u' :: Decimal.hexDigits 4 char.toNat

def escapeChar (char : Char) : List Char :=
  if char = '"' then ['\\', '"']
  else if char = '\\' then ['\\', '\\']
  else if char.toNat < 0x20 then escapeControl char
  else [char]

def quote (text : String) : List Char :=
  '"' :: text.toList.flatMap escapeChar ++ ['"']

/-- Numbers that are not finite have no JSON form and are written as null. -/
def numberChars (value : Float) : List Char :=
  if value.isFinite then Decimal.jsonLayout.chars value else "null".toList

/-- What stands before each part at a depth, and between a name and its value. -/
structure Style where
  gap : Nat → List Char
  afterName : List Char

def compactStyle : Style where
  gap _ := []
  afterName := [':']

def spreadStyle : Style where
  gap depth := '\n' :: List.replicate (2 * depth) ' '
  afterName := [':', ' ']

mutual

def Tree.chars (style : Style) (depth : Nat) : Tree → List Char
  | .null => "null".toList
  | .boolean true => "true".toList
  | .boolean false => "false".toList
  | .whole value => Decimal.wholeDigits value
  | .number value => numberChars value
  | .text value => quote value
  | .list [] => ['[', ']']
  | .list (item :: items) =>
    '[' :: style.gap (depth + 1) ++ item.chars style (depth + 1) ++
      itemsChars style depth items
  | .record [] => ['{', '}']
  | .record ((name, value) :: members) =>
    '{' :: style.gap (depth + 1) ++ quote name ++ style.afterName ++
      value.chars style (depth + 1) ++ membersChars style depth members

def itemsChars (style : Style) (depth : Nat) : List Tree → List Char
  | [] => style.gap depth ++ [']']
  | item :: items =>
    ',' :: style.gap (depth + 1) ++ item.chars style (depth + 1) ++
      itemsChars style depth items

def membersChars (style : Style) (depth : Nat) : List (String × Tree) → List Char
  | [] => style.gap depth ++ ['}']
  | (name, value) :: members =>
    ',' :: style.gap (depth + 1) ++ quote name ++ style.afterName ++
      value.chars style (depth + 1) ++ membersChars style depth members

end

def Tree.compact (tree : Tree) : String := String.ofList (tree.chars compactStyle 0)

def Tree.spread (tree : Tree) : String := String.ofList (tree.chars spreadStyle 0)

end Compositor.Json
