import Compositor.Decimal.Shortest

/-!
# Layouts of decimal text

A layout says how the shortest digits of a double become text: for which
positions of the first digit the number is written without an exponent, and
what follows a whole number.  The two layouts of this library are the one of
JSON values and the one of messages and engine text.
-/

namespace Compositor.Decimal

structure Layout where
  tie : Tie
  /-- Whether a number whose first digit counts `10 ^ exponent` has no exponent mark. -/
  positional : Int → Bool
  wholeTail : List Char

def zeros (count : Nat) : List Char := List.replicate count '0'

def wholeText (number : Int) : List Char :=
  match number with
  | .ofNat magnitude => wholeDigits magnitude
  | .negSucc magnitude => '-' :: wholeDigits (magnitude + 1)

def positionalText (wholeTail digits : List Char) (position : Int) : List Char :=
  match position with
  | .negSucc gap => '0' :: '.' :: zeros (gap + 1) ++ digits
  | .ofNat 0 => '0' :: '.' :: digits
  | .ofNat (position + 1) =>
    let whole := digits.take (position + 1)
    let fraction := digits.drop (position + 1)
    if fraction.isEmpty then whole ++ zeros (position + 1 - whole.length) ++ wholeTail
    else whole ++ '.' :: fraction

def exponentText (digits : List Char) (exponent : Int) : List Char :=
  let mantissa :=
    match digits with
    | [] => []
    | [digit] => [digit]
    | digit :: fraction => digit :: '.' :: fraction
  let sign := if exponent < 0 then [] else ['+']
  mantissa ++ 'e' :: sign ++ wholeText exponent

def Layout.digitsText (layout : Layout) (decimal : Digits) : List Char :=
  let digits := wholeDigits decimal.significand
  let position := decimal.scale + digits.length
  if layout.positional (position - 1) then positionalText layout.wholeTail digits position
  else exponentText digits (position - 1)

def signText (negative : Bool) : List Char := if negative then ['-'] else []

def Layout.chars (layout : Layout) (value : Float) : List Char :=
  match decode value with
  | .notANumber => ['N', 'a', 'N']
  | .infinite negative => signText negative ++ ['i', 'n', 'f']
  | .zero negative => signText negative ++ '0' :: layout.wholeTail
  | .finite negative magnitude =>
    signText negative ++ layout.digitsText (magnitude.shortest layout.tie)

def Layout.text (layout : Layout) (value : Float) : String :=
  String.ofList (layout.chars value)

/-- JSON numbers keep a fraction, and switch to an exponent below `10 ^ -5` and from `10 ^ 16`
on. -/
def jsonLayout : Layout where
  tie := .toEven
  positional exponent := decide (-5 ≤ exponent ∧ exponent < 16)
  wholeTail := ['.', '0']

def plainLayout : Layout where
  tie := .up
  positional _ := true
  wholeTail := []

def plain (value : Float) : String := plainLayout.text value

/-- Seconds as the engine reads them: both zeros are written `0`. -/
def seconds (value : Float) : String :=
  if value == 0.0 then "0" else plain value

def whole (number : Nat) : String := String.ofList (wholeDigits number)

def paddedWhole (width number : Nat) : String :=
  let digits := wholeDigits number
  String.ofList (zeros (width - digits.length) ++ digits)

def hexDigit (digit : Nat) : Char :=
  if digit < 10 then Char.ofNat (48 + digit) else Char.ofNat (87 + digit)

def hexDigits : Nat → Nat → List Char
  | 0, _ => []
  | width + 1, number => hexDigits width (number / 16) ++ [hexDigit (number % 16)]

def hex (width number : Nat) : String := String.ofList (hexDigits width number)

end Compositor.Decimal
