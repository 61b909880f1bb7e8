import Compositor.Decimal.Binary

/-!
# The shortest decimal that reads back

A magnitude is written with as few digits as possible such that the decimal
still lies between the bounds that round to the same double.  For each digit
count the two neighbours of the value on that decimal grid are tried; the
first count with a neighbour inside the bounds wins, and of two neighbours
the nearer one.  How an exact tie goes is the caller's choice.
-/

namespace Compositor.Decimal

structure Digits where
  significand : Nat
  scale : Int
deriving DecidableEq

/-- Which neighbour is taken when the value lies in the middle of two. -/
inductive Tie where
  | toEven
  | up
deriving DecidableEq

def wholeDigitsOnto (fuel number : Nat) (rest : List Char) : List Char :=
  match fuel with
  | 0 => rest
  | fuel + 1 =>
    let rest := Char.ofNat (48 + number % 10) :: rest
    if number < 10 then rest else wholeDigitsOnto fuel (number / 10) rest

def wholeDigits (number : Nat) : List Char :=
  wholeDigitsOnto (number.log2 + 1) number []

def digitCount (number : Nat) : Nat := (wholeDigits number).length

structure Ratio where
  numerator : Nat
  denominator : Nat
deriving DecidableEq

/-- The value and its rounding bounds as fractions over one denominator. -/
structure Bounds where
  low : Nat
  value : Nat
  high : Nat
  denominator : Nat
  closed : Bool
deriving DecidableEq

def Magnitude.bounds (magnitude : Magnitude) : Bounds :=
  let low := 4 * magnitude.mantissa - (if magnitude.narrowBelow then 1 else 2)
  let value := 4 * magnitude.mantissa
  let high := 4 * magnitude.mantissa + 2
  let closed := decide (magnitude.mantissa % 2 = 0)
  match magnitude.exponent with
  | .ofNat shift =>
    let unit := Nat.pow 2 shift
    ⟨low * unit, value * unit, high * unit, 4, closed⟩
  | .negSucc shift => ⟨low, value, high, 4 * Nat.pow 2 (shift + 1), closed⟩

def tenPower : Int → Ratio
  | .ofNat exponent => ⟨Nat.pow 10 exponent, 1⟩
  | .negSucc exponent => ⟨1, Nat.pow 10 (exponent + 1)⟩

/-- Whether `point * 10 ^ scale` rounds back to the value. -/
def Bounds.contains (bounds : Bounds) (unit : Ratio) (point : Nat) : Bool :=
  let scaled := point * unit.numerator * bounds.denominator
  let low := bounds.low * unit.denominator
  let high := bounds.high * unit.denominator
  if bounds.closed then decide (low ≤ scaled ∧ scaled ≤ high)
  else decide (low < scaled ∧ scaled < high)

def Bounds.prefersUpper (bounds : Bounds) (tie : Tie) (unit : Ratio) (below : Nat) : Bool :=
  let doubled := 2 * bounds.value * unit.denominator
  let middle := (2 * below + 1) * unit.numerator * bounds.denominator
  if doubled = middle then
    match tie with
    | .toEven => decide (below % 2 = 1)
    | .up => true
  else decide (middle < doubled)

def Bounds.neighbour? (bounds : Bounds) (tie : Tie) (scale : Int) : Option Nat :=
  let unit := tenPower scale
  let below := bounds.value * unit.denominator / (unit.numerator * bounds.denominator)
  match bounds.contains unit below, bounds.contains unit (below + 1) with
  | true, true => some (if bounds.prefersUpper tie unit below then below + 1 else below)
  | true, false => some below
  | false, true => some (below + 1)
  | false, false => none

def Bounds.position (bounds : Bounds) : Int :=
  (digitCount (bounds.value * Nat.pow 10 330 / bounds.denominator) : Int) - 330

def dropTrailingZeros (fuel : Nat) (digits : Digits) : Digits :=
  match fuel with
  | 0 => digits
  | fuel + 1 =>
    if digits.significand % 10 = 0 ∧ 0 < digits.significand then
      dropTrailingZeros fuel ⟨digits.significand / 10, digits.scale + 1⟩
    else digits

/-- Tries `count`, `count + 1`, … digits until a neighbour rounds back. -/
def Bounds.search (bounds : Bounds) (tie : Tie) (position : Int) : Nat → Nat → Digits
  | 0, _ => ⟨bounds.value / bounds.denominator, 0⟩
  | fuel + 1, count =>
    let scale := position - count
    match bounds.neighbour? tie scale with
    | some point => dropTrailingZeros 20 ⟨point, scale⟩
    | none => bounds.search tie position fuel (count + 1)

/-- Seventeen digits always suffice for a double. -/
def Magnitude.shortest (magnitude : Magnitude) (tie : Tie) : Digits :=
  let bounds := magnitude.bounds
  bounds.search tie bounds.position 17 1

end Compositor.Decimal
