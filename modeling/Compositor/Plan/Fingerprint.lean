import Compositor.Plan.Text
import Compositor.Text.Utf8

/-!
# Fingerprints

A 64-bit hash of everything that the engine is told except where to write.
Each argument is preceded by its length, so that no two lists of arguments feed
the same bytes.
-/

namespace Compositor.Fingerprint

def basis : UInt64 := 0xcbf29ce484222325

def multiplier : UInt64 := 0x100000001b3

def step (hash : UInt64) (byte : UInt8) : UInt64 := (hash ^^^ byte.toUInt64) * multiplier

def feed (hash : UInt64) (bytes : List UInt8) : UInt64 := bytes.foldl step hash

def lowBytes : Nat → Nat → List UInt8
  | 0, _ => []
  | width + 1, number => UInt8.ofNat number :: lowBytes width (number / 256)

def framed (text : String) : List UInt8 :=
  let bytes := Text.utf8Bytes text
  lowBytes 8 bytes.length ++ bytes

def ofTexts (texts : List String) : UInt64 := feed basis (texts.flatMap framed)

end Compositor.Fingerprint

namespace Compositor

def Plan.fingerprint (plan : Plan) : UInt64 := Fingerprint.ofTexts (plan.arguments "")

end Compositor
