import Compositor.Decimal.Layout
import Compositor.Json.Tree
import Compositor.Media.Names
import Compositor.Quantity

/-!
# Filters

The operations of which filter chains are made, with their text in the engine's
notation and their JSON form.
-/

namespace Compositor

open Json

/-- The half-open stretch of time `[start, stop)` in which a layer shows. -/
structure Window (S : Type) where
  start : S
  stop : S
deriving BEq

namespace Window

variable {S : Type} [Quantity S]

def ofDuration (start duration : S) : Window S := ⟨start, start + duration⟩

def length (window : Window S) : S := window.stop - window.start

def isEmpty (window : Window S) : Bool := Quantity.isAtMost window.stop window.start

end Window

inductive FadeDirection where
  | into
  | out
deriving DecidableEq, Repr

def FadeDirection.name : FadeDirection → String
  | .into => "in"
  | .out => "out"

inductive Slide (S : Type) where
  | fixed
  | slideIn (start duration : S)
deriving BEq

inductive Filter (S : Type) where
  | color (tint : String) (canvas : Canvas) (duration : S) (rate : Nat)
  | scaleCover (canvas : Canvas)
  | centerCrop (canvas : Canvas)
  | squarePixels
  | format (pixels : String)
  | fade (direction : FadeDirection) (start duration : S)
  | overlay (slide : Slide S) (window : Window S)
  | split (outputs : Nat)
  | audioSplit (outputs : Nat)
  | audioTrim (stop : S)
  | audioRestart
  | audioFade (direction : FadeDirection) (start duration : S)
  | audioDelay (millis : Nat)
  | gain (factor : S)
  | audioMix (inputs : Nat)
deriving BEq

def Canvas.spelled (separator : String) (canvas : Canvas) : String :=
  Decimal.whole canvas.width ++ separator ++ Decimal.whole canvas.height

def Window.condition (window : Window Float) : String :=
  "gte(t," ++ Decimal.seconds window.start ++ ")*lt(t," ++ Decimal.seconds window.stop ++ ")"

def Slide.text : Slide Float → String
  | .fixed => "0"
  | .slideIn start duration =>
    "'min(0,(t-" ++ Decimal.seconds start ++ ")/" ++ Decimal.seconds duration ++ "*W-W)'"

def Filter.text : Filter Float → String
  | .color tint canvas duration rate =>
    "color=c=" ++ tint ++ ":s=" ++ canvas.spelled "x" ++ ":d=" ++ Decimal.seconds duration ++
      ":r=" ++ Decimal.whole rate
  | .scaleCover canvas =>
    "scale=" ++ canvas.spelled ":" ++ ":force_original_aspect_ratio=increase"
  | .centerCrop canvas => "crop=" ++ canvas.spelled ":"
  | .squarePixels => "setsar=1"
  | .format pixels => "format=" ++ pixels
  | .fade direction start duration =>
    "fade=t=" ++ direction.name ++ ":st=" ++ Decimal.seconds start ++ ":d=" ++
      Decimal.seconds duration ++ ":alpha=1"
  | .overlay slide window =>
    "overlay=x=" ++ slide.text ++ ":y=0:enable='" ++ window.condition ++ "'"
  | .split outputs => "split=" ++ Decimal.whole outputs
  | .audioSplit outputs => "asplit=" ++ Decimal.whole outputs
  | .audioTrim stop => "atrim=start=0:end=" ++ Decimal.seconds stop
  | .audioRestart => "asetpts=PTS-STARTPTS"
  | .audioFade direction start duration =>
    "afade=t=" ++ direction.name ++ ":st=" ++ Decimal.seconds start ++ ":d=" ++
      Decimal.seconds duration
  | .audioDelay millis => "adelay=delays=" ++ Decimal.whole millis ++ ":all=1"
  | .gain factor => "volume=" ++ Decimal.plain factor
  | .audioMix inputs =>
    "amix=inputs=" ++ Decimal.whole inputs ++
      ":duration=longest:dropout_transition=0:normalize=0"

def Window.toTree (window : Window Float) : Tree :=
  .record [("start", .number window.start), ("end", .number window.stop)]

def Slide.toTree : Slide Float → Tree
  | .fixed => .text "fixed"
  | .slideIn start duration =>
    .record [("slide_in", .record [("start", .number start), ("duration", .number duration)])]

def operation (name : String) (parameters : List (String × Tree)) : Tree :=
  .record (("op", .text name) :: parameters)

def fadeParameters (direction : FadeDirection) (start duration : Float) :
    List (String × Tree) :=
  [("dir", .text direction.name), ("start", .number start), ("duration", .number duration)]

def colorParameters (tint : String) (canvas : Canvas) (duration : Float) (rate : Nat) :
    List (String × Tree) :=
  [("color", .text tint), ("canvas", canvas.toTree), ("duration", .number duration),
    ("rate", .whole rate)]

def Filter.toTree : Filter Float → Tree
  | .color tint canvas duration rate =>
    operation "color" (colorParameters tint canvas duration rate)
  | .scaleCover canvas => operation "scale_cover" [("canvas", canvas.toTree)]
  | .centerCrop canvas => operation "center_crop" [("canvas", canvas.toTree)]
  | .squarePixels => operation "set_sar" []
  | .format pixels => operation "format" [("pix_fmt", .text pixels)]
  | .fade direction start duration =>
    operation "fade" (fadeParameters direction start duration)
  | .overlay slide window =>
    operation "overlay" [("x", slide.toTree), ("window", window.toTree)]
  | .split outputs => operation "split" [("outputs", .whole outputs)]
  | .audioSplit outputs => operation "a_split" [("outputs", .whole outputs)]
  | .audioTrim stop => operation "a_trim" [("end", .number stop)]
  | .audioRestart => operation "a_set_pts_zero" []
  | .audioFade direction start duration =>
    operation "a_fade" (fadeParameters direction start duration)
  | .audioDelay millis => operation "a_delay" [("millis", .whole millis)]
  | .gain factor => operation "volume" [("gain", .number factor)]
  | .audioMix inputs => operation "a_mix" [("inputs", .whole inputs)]

end Compositor
