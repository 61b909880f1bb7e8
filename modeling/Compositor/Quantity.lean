import Compositor.Decimal.Binary

/-!
# Quantities of an edit

Times and gains are doubles when the program runs.  What is computed with them
is written for any quantity, so that the same computation can be read with
exact numbers.
-/

namespace Compositor

class Quantity (S : Type) extends Add S, Sub S, Mul S where
  zero : S
  half : S
  halve : S → S
  /-- The smaller one; what is not a number is passed over. -/
  least : S → S → S
  isFinite : S → Bool
  isBelow : S → S → Bool
  isAtMost : S → S → Bool
  wholeMillis : S → Nat

def nearestWord (value : Float) : Nat :=
  match Decimal.decode value with
  | .notANumber => 0
  | .infinite negative => if negative then 0 else Nat.pow 2 64 - 1
  | .zero _ => 0
  | .finite negative magnitude =>
    if negative then 0 else min magnitude.nearestWhole (Nat.pow 2 64 - 1)

def leastFloat (first second : Float) : Float :=
  if first.isNaN then second
  else if second.isNaN then first
  else if second < first then second
  else first

instance : Quantity Float where
  zero := 0.0
  half := 0.5
  halve value := value / 2.0
  least := leastFloat
  isFinite := Float.isFinite
  isBelow first second := decide (first < second)
  isAtMost first second := decide (first ≤ second)
  wholeMillis value := nearestWord (value * 1000.0)

end Compositor
