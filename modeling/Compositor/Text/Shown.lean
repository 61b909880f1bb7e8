import Compositor.Decimal.Layout
import Compositor.Text.Printable

/-!
# Text shown in a message

A text between quotation marks in which every character can be told apart.
-/

namespace Compositor.Text

def codeDigits (code : Nat) : List Char :=
  Decimal.hexDigits (code.log2 / 4 + 1) code

def shownChar (char : Char) : List Char :=
  match char with
  | '\x00' => ['\\', '0']
  | '\t' => ['\\', 't']
  | '\r' => ['\\', 'r']
  | '\n' => ['\\', 'n']
  | '"' => ['\\', '"']
  | '\\' => ['\\', '\\']
  | char =>
    if isPrintable char then [char]
    else ['\\', 'u', '\x7b'] ++ codeDigits char.toNat ++ ['\x7d']

def shown (text : String) : String :=
  String.ofList ('"' :: text.toList.flatMap shownChar ++ ['"'])

end Compositor.Text
