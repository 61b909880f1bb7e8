import Compositor.Json.Variant
import Compositor.Media.Basic

/-!
# Names of media settings

How kinds, resolutions and frame rates are spelled in JSON text.
-/

namespace Compositor

open Json

def MediaKind.format : VariantFormat MediaKind where
  values := [.video, .image, .audio]
  name := MediaKind.name
  otherNames _ := []

def Resolution.format : VariantFormat Resolution where
  values := [.hd720, .hd1080, .uhd4k]
  name
    | .hd720 => "720p"
    | .hd1080 => "1080p"
    | .uhd4k => "4K"
  otherNames
    | .uhd4k => ["4k"]
    | _ => []

def FrameRate.unsupported (rate : Nat) : String :=
  "unsupported frame rate " ++ Decimal.whole rate ++ " (expected 30 or 60)"

def FrameRate.ofPerSecond (rate : Nat) : Except String FrameRate :=
  match FrameRate.ofPerSecond? rate with
  | some rate => .ok rate
  | none => .error (FrameRate.unsupported rate)

def readWord : Reader Nat := readNatural (Nat.pow 2 32) "u32"

def FrameRate.read : Reader FrameRate := fun document => do
  let rate ← readWord document
  match FrameRate.ofPerSecond rate with
  | .ok rate => return rate
  | .error reason => throw (.refused reason)

def FrameRate.write (rate : FrameRate) : Tree := .whole rate.perSecond

def Canvas.toTree (canvas : Canvas) : Tree :=
  .record [("width", .whole canvas.width), ("height", .whole canvas.height)]

end Compositor
