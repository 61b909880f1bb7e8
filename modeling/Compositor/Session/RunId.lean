import Compositor.Decimal.Reading
import Compositor.Text.Utf8

/-!
# Run identifiers

Every run has an identifier of 128 bits, written in five groups of hexadecimal
digits.  It may be read with or without the hyphens, in braces, or as a name.
-/

namespace Compositor

structure RunId where
  value : BitVec 128
deriving DecidableEq

namespace RunId

def digits (id : RunId) : List Char := Decimal.hexDigits 32 id.value.toNat

def short (id : RunId) : String := String.ofList (id.digits.take 8)

def group (id : RunId) (start width : Nat) : List Char := (id.digits.drop start).take width

def text (id : RunId) : String :=
  String.ofList <|
    id.group 0 8 ++ '-' :: id.group 8 4 ++ '-' :: id.group 12 4 ++ '-' :: id.group 16 4 ++
      '-' :: id.group 20 12

def nameHead : List Char := "urn:uuid:".toList

/-- The text inside of a brace or after a name, with the width of what came before. -/
def unwrapped (chars : List Char) : List Char × Nat × Bool :=
  match chars with
  | '\x7b' :: rest =>
    if rest.getLast? = some '\x7d' then (rest.dropLast, 1, true) else (chars, 0, false)
  | _ =>
    if nameHead.isPrefixOf chars then
      (chars.drop nameHead.length, nameHead.length, true)
    else (chars, 0, false)

def hexNumber? (chars : List Char) : Option Nat :=
  chars.foldlM (fun value char => do
    let digit ← Decimal.hexValue? char
    some (16 * value + digit)) 0

def groupStarts : List Nat := [0, 9, 14, 19, 24]

def groupWidths : List Nat := [8, 4, 4, 4, 12]

def grouped? (chars : List Char) : Option Nat :=
  let groups := List.zipWith (fun start width => (chars.drop start).take width)
    groupStarts groupWidths
  let between := [8, 13, 18, 23].map fun position => chars[position]?
  if chars.length = 36 ∧ between.all (· == some '-') then hexNumber? groups.flatten else none

def ofNat (number : Nat) : RunId := ⟨BitVec.ofNat 128 number⟩

/-- A drawn identifier; two of its digits say that it was drawn. -/
def ofDraw (number : Nat) : RunId :=
  let value := BitVec.ofNat 128 number
  let value := (value &&& ~~~(0xf#128 <<< 76)) ||| (0x4#128 <<< 76)
  ⟨(value &&& ~~~(0x3#128 <<< 62)) ||| (0x2#128 <<< 62)⟩

def parse? (chars : List Char) : Option RunId :=
  let (inner, _, _) := unwrapped chars
  if chars.length = 32 then ofNat <$> hexNumber? chars else ofNat <$> grouped? inner

def strangeChar? (offset : Nat) : List Char → Option (Char × Nat)
  | [] => none
  | char :: chars =>
    if char = '-' ∨ (Decimal.hexValue? char).isSome then
      strangeChar? (offset + char.utf8Size) chars
    else some (char, offset + 1)

def wrongGroup (length : Nat) (inner : List Char) : Nat × Nat :=
  let bounds := (inner.zipIdx.filter fun item => item.1 == '-').map Prod.snd
  let widths := List.zipWith (fun bound start => bound - start) bounds groupStarts
  let wrong := (widths.zip groupWidths).findIdx fun pair => pair.1 != pair.2
  match widths[wrong]? with
  | some width => (wrong, width)
  | none => (4, length - 24)

def fault (chars : List Char) : String :=
  let (inner, offset, isWrapped) := unwrapped chars
  let length := (chars.map Char.utf8Size).foldr (· + ·) 0
  match strangeChar? offset inner with
  | some (char, position) =>
    "invalid character: expected an optional prefix of \x60urn:uuid:\x60 followed by " ++
      "[0-9a-fA-F-], found \x60" ++ String.singleton char ++ "\x60 at " ++
      Decimal.whole position
  | none =>
    let count := inner.count '-'
    if count = 0 ∧ !isWrapped then
      "invalid length: expected length 32 for simple format, found " ++ Decimal.whole length
    else if count ≠ 4 then
      "invalid group count: expected 5, found " ++ Decimal.whole (count + 1)
    else
      let (group, width) := wrongGroup length inner
      "invalid group length in group " ++ Decimal.whole group ++ ": expected " ++
        Decimal.whole (groupWidths[group]?.getD 12) ++ ", found " ++ Decimal.whole width

def ofText (text : String) : Except String RunId :=
  match parse? text.toList with
  | some id => .ok id
  | none => .error ("UUID parsing failed: " ++ fault text.toList)

end RunId

end Compositor
