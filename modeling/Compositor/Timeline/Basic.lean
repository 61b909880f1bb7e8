import Compositor.Media.Basic
import Compositor.Quantity
import Compositor.Table

/-!
# Timelines

An edit in tracks: each track is a lane of clips, and a clip places an asset on
the project's time axis.  Times are in seconds.
-/

namespace Compositor

inductive Transition where
  | cut
  | fade
  | dissolve
  | wipe
deriving DecidableEq, Repr

inductive Style where
  | slideshow
  | kenBurns
  | glitch
  | fade
  | cinematic
deriving DecidableEq, Repr

structure Settings where
  title : String
  duration : Float
  resolution : Resolution
  frameRate : FrameRate
  style : Style
  upload : Bool
deriving BEq

def Settings.canvas (settings : Settings) : Canvas := settings.resolution.canvas

def Settings.default (title : String) (duration : Float) : Settings :=
  ⟨title, duration, .hd1080, .fps30, .slideshow, false⟩

/-- A piece of media, known by its key in the asset table. -/
structure Asset where
  kind : MediaKind
  location : String
  name : Option String
  nativeDuration : Option Float
  bucket : Option String
deriving BEq

def Asset.plain (kind : MediaKind) (location : String) : Asset :=
  ⟨kind, location, none, none, none⟩

structure Clip (S : Type) where
  id : String
  assetId : String
  trackId : String
  start : S
  /-- How long it lasts, from the head of its source. -/
  duration : S
  volume : S
  fadeIn : S
  fadeOut : S
  transition : Transition
deriving BEq

structure Track where
  id : String
  kind : MediaKind
  name : String
  clips : List (Clip Float)
  muted : Bool
  volume : Float
deriving BEq

structure Timeline where
  tracks : List Track
  settings : Settings
  assets : Table Asset
deriving BEq

namespace Timeline

def placements (timeline : Timeline) : List (Track × Clip Float) :=
  timeline.tracks.flatMap fun track => track.clips.map (track, ·)

def clipCount (timeline : Timeline) : Nat :=
  (timeline.tracks.map fun track => track.clips.length).foldr (· + ·) 0

/-- The assets that clips use, in order of their first use. -/
def referencedIds (timeline : Timeline) : List String :=
  (timeline.placements.map fun placement => placement.2.assetId).eraseDups

@[simp] theorem length_placements (timeline : Timeline) :
    timeline.placements.length = timeline.clipCount := by
  obtain ⟨tracks, settings, assets⟩ := timeline
  simp only [placements, clipCount]
  induction tracks with
  | nil => rfl
  | cons track tracks ih => simp [ih]

end Timeline

end Compositor
