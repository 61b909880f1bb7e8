import Compositor.Decimal.Layout

/-!
# Reading numbers

Decimal numerals are read to the nearest double.  Free-standing numbers, as a
progress report holds them, allow a sign, a missing part on one side of the
point, and the names of the infinities and of not-a-number in any case.
-/

namespace Compositor.Decimal

def isDigit (char : Char) : Bool := decide ('0' ≤ char ∧ char ≤ '9')

def digitValue (char : Char) : Nat := char.toNat - 48

def wholeValue (digits : List Char) : Nat :=
  digits.foldl (fun value digit => 10 * value + digitValue digit) 0

def hexValue? (char : Char) : Option Nat :=
  if '0' ≤ char ∧ char ≤ '9' then some (char.toNat - 48)
  else if 'a' ≤ char ∧ char ≤ 'f' then some (char.toNat - 87)
  else if 'A' ≤ char ∧ char ≤ 'F' then some (char.toNat - 55)
  else none

def infinity (negative : Bool) : Float :=
  if negative then Float.ofBits 0xfff0000000000000 else Float.ofBits 0x7ff0000000000000

def nearestMagnitude (significand : Nat) (scale : Int) : Float :=
  match scale with
  | .ofNat exponent => Float.ofScientific significand false exponent
  | .negSucc exponent => Float.ofScientific significand true (exponent + 1)

/-- The double nearest to a signed decimal.  Numbers far out of range need no arithmetic. -/
def nearest (negative : Bool) (significand : Nat) (scale : Int) : Float :=
  let position := scale + digitCount significand
  let magnitude :=
    if significand = 0 ∨ position < -400 then 0.0
    else if 400 < position then infinity false
    else nearestMagnitude significand scale
  if negative then -magnitude else magnitude

def notANumber : Float := Float.ofBits 0x7ff8000000000000

def splitSign : List Char → Bool × List Char
  | '-' :: rest => (true, rest)
  | '+' :: rest => (false, rest)
  | rest => (false, rest)

def digits? (chars : List Char) : Option Nat :=
  if chars.isEmpty then none
  else if chars.all isDigit then some (wholeValue chars)
  else none

def natural? (chars : List Char) : Option Nat := do
  let digits := match chars with
    | '+' :: rest => rest
    | rest => rest
  let value ← digits? digits
  if value < Nat.pow 2 64 then some value else none

def integer? (chars : List Char) : Option Int := do
  let (negative, digits) := splitSign chars
  let value ← digits? digits
  let number : Int := if negative then -value else value
  let limit : Int := Nat.pow 2 63
  if -limit ≤ number ∧ number < limit then some number else none

def exponent? : List Char → Option Int
  | [] => some 0
  | mark :: rest =>
    if mark = 'e' ∨ mark = 'E' then do
      let (negative, digits) := splitSign rest
      let value ← digits? digits
      some (if negative then -value else value)
    else none

def unsigned? (negative : Bool) (chars : List Char) : Option Float := do
  let whole := chars.takeWhile isDigit
  let rest := chars.dropWhile isDigit
  let fraction := match rest with
    | '.' :: rest => rest.takeWhile isDigit
    | _ => []
  let rest := match rest with
    | '.' :: rest => rest.dropWhile isDigit
    | rest => rest
  if whole.isEmpty && fraction.isEmpty then none
  else
    let exponent ← exponent? rest
    some (nearest negative (wholeValue (whole ++ fraction)) (exponent - fraction.length))

def asciiLower (char : Char) : Char :=
  if 'A' ≤ char ∧ char ≤ 'Z' then Char.ofNat (char.toNat + 32) else char

def float? (chars : List Char) : Option Float :=
  let (negative, rest) := splitSign chars
  let name := String.ofList (rest.map asciiLower)
  if name = "inf" ∨ name = "infinity" then some (infinity negative)
  else if name = "nan" then some notANumber
  else unsigned? negative rest

end Compositor.Decimal
