/-!
# Binary numbers read exactly

A double is a sign with a magnitude `mantissa * 2 ^ exponent`, an infinity, or
not a number.  The decoded form carries the bounds between which every real
number rounds to the same double: the bounds are counted in quarters of the
unit of the last place, because the lower gap of a power of two is half as
wide as the upper one.
-/

namespace Compositor.Decimal

/-- A positive magnitude `mantissa * 2 ^ exponent`, with the width of the gap below it. -/
structure Magnitude where
  mantissa : Nat
  exponent : Int
  narrowBelow : Bool
deriving DecidableEq

inductive Decoded where
  | notANumber
  | infinite (negative : Bool)
  | zero (negative : Bool)
  | finite (negative : Bool) (magnitude : Magnitude)
deriving DecidableEq

def signBit (bits : Nat) : Bool := bits / Nat.pow 2 63 % 2 = 1

def exponentField (bits : Nat) : Nat := bits / Nat.pow 2 52 % Nat.pow 2 11

def fractionField (bits : Nat) : Nat := bits % Nat.pow 2 52

def decodeBits (bits : Nat) : Decoded :=
  let negative := signBit bits
  let fraction := fractionField bits
  match exponentField bits with
  | 2047 => if fraction = 0 then .infinite negative else .notANumber
  | 0 =>
    if fraction = 0 then .zero negative
    else .finite negative ⟨fraction, -1074, false⟩
  | field + 1 =>
    .finite negative
      ⟨Nat.pow 2 52 + fraction, (field : Int) - 1074, decide (fraction = 0 ∧ 0 < field)⟩

def decode (value : Float) : Decoded := decodeBits value.toBits.toNat

/-- The nearest whole number to `mantissa * 2 ^ exponent`; a half goes up. -/
def Magnitude.nearestWhole (magnitude : Magnitude) : Nat :=
  match magnitude.exponent with
  | .ofNat shift => magnitude.mantissa * Nat.pow 2 shift
  | .negSucc shift =>
    let unit := Nat.pow 2 (shift + 1)
    (2 * magnitude.mantissa + unit) / (2 * unit)

end Compositor.Decimal
