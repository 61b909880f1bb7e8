/-!
# Blanks and separators

The white space of Unicode, trimming, and splitting a sequence at separators.
-/

namespace Compositor.Text

/-- The characters of the Unicode property `White_Space`. -/
def isBlank (char : Char) : Bool :=
  let code := char.toNat
  decide (9 ≤ code ∧ code ≤ 13) || code == 0x20 || code == 0x85 || code == 0xa0 ||
    code == 0x1680 || decide (0x2000 ≤ code ∧ code ≤ 0x200a) || code == 0x2028 ||
    code == 0x2029 || code == 0x202f || code == 0x205f || code == 0x3000

def trimEnd (isDropped : Char → Bool) (chars : List Char) : List Char :=
  (chars.reverse.dropWhile isDropped).reverse

def trim (chars : List Char) : List Char :=
  trimEnd isBlank (chars.dropWhile isBlank)

def trimText (text : String) : String := String.ofList (trim text.toList)

def split {α : Type} (isSeparator : α → Bool) (items : List α) : List (List α) :=
  items.foldr (fun item pieces =>
    if isSeparator item then [] :: pieces
    else match pieces with
      | [] => [[item]]
      | piece :: pieces => (item :: piece) :: pieces) [[]]

@[simp] theorem split_nil {α : Type} (isSeparator : α → Bool) :
    split isSeparator [] = [[]] := rfl

theorem split_ne_nil {α : Type} (isSeparator : α → Bool) (items : List α) :
    split isSeparator items ≠ [] := by
  cases items with
  | nil => simp
  | cons item items =>
      simp only [split, List.foldr_cons]
      split
      · simp
      · split <;> simp

def splitFirst? {α : Type} (isSeparator : α → Bool) : List α → Option (List α × List α)
  | [] => none
  | item :: items =>
    if isSeparator item then some ([], items)
    else (splitFirst? isSeparator items).map fun (before, after) => (item :: before, after)

def join (separator : List Char) : List (List Char) → List Char
  | [] => []
  | [piece] => piece
  | piece :: pieces => piece ++ separator ++ join separator pieces

def occurs (pattern : List Char) : List Char → Bool
  | [] => pattern.isEmpty
  | char :: chars => pattern.isPrefixOf (char :: chars) || occurs pattern chars

end Compositor.Text
