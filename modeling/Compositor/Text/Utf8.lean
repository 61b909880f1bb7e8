/-!
# Reading UTF-8

Bytes are cut into characters and malformed stretches.  A malformed stretch is
the longest beginning of a well-formed sequence, or a single byte that begins
none; each one counts as a single replacement character where text is wanted
at any price.
-/

namespace Compositor.Text

inductive Utf8Piece where
  | scalar (char : Char)
  | malformed (width : Nat)
deriving DecidableEq

/-- What may follow a leading byte: how many bytes, and the range of the first of them. -/
structure Continuation where
  count : Nat
  low : Nat
  high : Nat

def continuation? (lead : Nat) : Option Continuation :=
  if 0xc2 ≤ lead ∧ lead ≤ 0xdf then some ⟨1, 0x80, 0xbf⟩
  else if lead = 0xe0 then some ⟨2, 0xa0, 0xbf⟩
  else if lead = 0xed then some ⟨2, 0x80, 0x9f⟩
  else if 0xe1 ≤ lead ∧ lead ≤ 0xef then some ⟨2, 0x80, 0xbf⟩
  else if lead = 0xf0 then some ⟨3, 0x90, 0xbf⟩
  else if 0xf1 ≤ lead ∧ lead ≤ 0xf3 then some ⟨3, 0x80, 0xbf⟩
  else if lead = 0xf4 then some ⟨3, 0x80, 0x8f⟩
  else none

def fittingBytes (low high : Nat) : Nat → List UInt8 → List Nat
  | 0, _ => []
  | _ + 1, [] => []
  | count + 1, byte :: bytes =>
    if low ≤ byte.toNat ∧ byte.toNat ≤ high then
      byte.toNat :: fittingBytes 0x80 0xbf count bytes
    else []

/-- The piece that a leading byte begins, and the number of further bytes it takes. -/
def firstPiece (lead : UInt8) (bytes : List UInt8) : Utf8Piece × Nat :=
  if lead.toNat < 0x80 then (.scalar (Char.ofNat lead.toNat), 0)
  else match continuation? lead.toNat with
    | none => (.malformed 1, 0)
    | some following =>
      let fitting := fittingBytes following.low following.high following.count bytes
      if fitting.length = following.count then
        let code := fitting.foldl (fun code byte => 64 * code + byte % 64)
          (lead.toNat % Nat.pow 2 (6 - following.count))
        (.scalar (Char.ofNat code), fitting.length)
      else (.malformed (fitting.length + 1), fitting.length)

def utf8Pieces : List UInt8 → List Utf8Piece
  | [] => []
  | lead :: bytes =>
    let (piece, used) := firstPiece lead bytes
    piece :: utf8Pieces (bytes.drop used)
termination_by bytes => bytes.length
decreasing_by simp only [List.length_drop, List.length_cons]; omega

def Utf8Piece.replaced : Utf8Piece → Char
  | .scalar char => char
  | .malformed _ => '\uFFFD'

def lossyText (bytes : List UInt8) : String :=
  String.ofList ((utf8Pieces bytes).map Utf8Piece.replaced)

def utf8Bytes (text : String) : List UInt8 := text.toUTF8.data.toList

end Compositor.Text
