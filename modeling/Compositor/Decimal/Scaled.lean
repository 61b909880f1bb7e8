import Compositor.Decimal.Reading

/-!
# Decimals scaled by powers of ten

Numbers of JSON text are rounded twice.  The leading digits that fit 64 bits are
kept and rounded; the result is multiplied or divided by the double of a power of
ten and rounded again, which may miss the nearest double in the last place.
-/

namespace Compositor.Decimal

structure Scaled where
  significand : UInt64
  scale : Int

def appendDigit (value : Nat) (digit : Char) : Nat := 10 * value + digitValue digit

def hasRoom (significand : UInt64) (digit : Char) : Bool :=
  decide (appendDigit significand.toNat digit < Nat.pow 2 64)

def push (significand : UInt64) (digit : Char) : UInt64 :=
  (appendDigit significand.toNat digit).toUInt64

/-- From the first digit without room on, every digit counts as a power of ten. -/
def keepWhole (significand : UInt64) : List Char → Scaled
  | [] => ⟨significand, 0⟩
  | digit :: digits =>
    if hasRoom significand digit then keepWhole (push significand digit) digits
    else ⟨significand, digits.length + 1⟩

def Scaled.keepFraction (kept : Scaled) : List Char → Scaled
  | [] => kept
  | digit :: digits =>
    if hasRoom kept.significand digit then
      Scaled.keepFraction ⟨push kept.significand digit, kept.scale - 1⟩ digits
    else kept

def tenTo (power : Nat) : Float := Float.ofScientific 1 false power

def largestPower : Nat := 308

def shrink (value : Float) : Nat → Float
  | 0 => value
  | count + 1 => if value == 0.0 then value else shrink (value / tenTo largestPower) count

/-- The double of the digits at their scale; an infinity where it lies beyond the largest one. -/
def Scaled.double (scaled : Scaled) : Float :=
  let value := scaled.significand.toFloat
  match scaled.scale with
  | .ofNat power =>
    if power ≤ largestPower then value * tenTo power
    else if value == 0.0 then value
    else infinity false
  | .negSucc power => shrink value (power / largestPower) / tenTo (power % largestPower + 1)

end Compositor.Decimal
