/-!
# Media

The kinds of media, the sizes and rates at which they are put out, and which
kinds a track takes.
-/

namespace Compositor

structure Canvas where
  width : Nat
  height : Nat
deriving DecidableEq, Repr

inductive Resolution where
  | hd720
  | hd1080
  | uhd4k
deriving DecidableEq, Repr

def Resolution.canvas : Resolution → Canvas
  | .hd720 => ⟨1280, 720⟩
  | .hd1080 => ⟨1920, 1080⟩
  | .uhd4k => ⟨3840, 2160⟩

inductive FrameRate where
  | fps30
  | fps60
deriving DecidableEq, Repr

def FrameRate.perSecond : FrameRate → Nat
  | .fps30 => 30
  | .fps60 => 60

def FrameRate.ofPerSecond? : Nat → Option FrameRate
  | 30 => some .fps30
  | 60 => some .fps60
  | _ => none

@[simp] theorem FrameRate.ofPerSecond?_perSecond (rate : FrameRate) :
    FrameRate.ofPerSecond? rate.perSecond = some rate := by cases rate <;> rfl

inductive MediaKind where
  | video
  | image
  | audio
deriving DecidableEq, Repr

namespace MediaKind

def name : MediaKind → String
  | video => "video"
  | image => "image"
  | audio => "audio"

def isVisual : MediaKind → Bool
  | video | image => true
  | audio => false

def extension : MediaKind → String
  | video => "mp4"
  | image => "jpg"
  | audio => "mp3"

/-- Visual tracks take anything with pictures, audio tracks anything that can carry sound. -/
def accepts (track asset : MediaKind) : Bool :=
  match track with
  | video | image => asset.isVisual
  | audio =>
    match asset with
    | audio | video => true
    | image => false

end MediaKind

end Compositor
