import Compositor.Text.Blank
import Compositor.Text.Utf8

/-!
# Diagnostics of an engine

Of what the engine says only the last lines are kept, as many as fit a limit.
-/

namespace Compositor

def dropEnding (ending : UInt8) (bytes : List UInt8) : List UInt8 :=
  if bytes.getLast? = some ending then bytes.dropLast else bytes

/-- The lines of a byte stream; what follows the last line break counts unless it is empty. -/
def byteLines (bytes : List UInt8) : List (List UInt8) :=
  let pieces := Text.split (· == 10) bytes
  if pieces.getLast? = some [] then pieces.dropLast else pieces

def lineText (line : List UInt8) : String := Text.lossyText (dropEnding 13 line)

def textLines (bytes : List UInt8) : List String := (byteLines bytes).map lineText

def lineCost (line : String) : Nat := line.utf8ByteSize + 1

structure DiagnosticsTail where
  lines : List String
  cost : Nat

namespace DiagnosticsTail

def empty : DiagnosticsTail := ⟨[], 0⟩

/-- Drops lines from the front until the rest fits. -/
def shrink (limit : Nat) : List String → Nat → DiagnosticsTail
  | [], cost => ⟨[], cost⟩
  | line :: lines, cost =>
    if limit < cost then shrink limit lines (cost - lineCost line) else ⟨line :: lines, cost⟩

def push (limit : Nat) (tail : DiagnosticsTail) (line : String) : DiagnosticsTail :=
  shrink limit (tail.lines ++ [line]) (tail.cost + lineCost line)

def ofLines (limit : Nat) (lines : List String) : DiagnosticsTail :=
  lines.foldl (push limit) empty

def text (tail : DiagnosticsTail) : String :=
  String.join (tail.lines.map fun line => line ++ "\n")

end DiagnosticsTail

def diagnosticsText (limit : Nat) (bytes : List UInt8) : String :=
  (DiagnosticsTail.ofLines limit (textLines bytes)).text

end Compositor
