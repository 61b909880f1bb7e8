import Compositor.Decimal.Layout
import Compositor.Timeline.Basic

/-!
# Checking a timeline

A timeline is checked before anything is looked up or written: its length and
gains, and for each clip the asset and track it names, its numbers, and whether
its track takes that kind of asset.  Overlapping clips and clips that run past
the end are fine.
-/

namespace Compositor

inductive Reference where
  | asset
  | track
deriving DecidableEq, Repr

def Reference.name : Reference → String
  | .asset => "asset"
  | .track => "track"

inductive Problem where
  | missingReference (clip : String) (target : Reference) (id : String)
  | invalidRange (subject field expected : String) (value : Float)
  | kindMismatch (clip asset : String) (assetKind : MediaKind) (track : String)
      (trackKind : MediaKind)
  | malformed (reason : String)

def quoted (text : String) : String := "'" ++ text ++ "'"

def Problem.message : Problem → String
  | .missingReference clip target id =>
    "clip " ++ quoted clip ++ " references missing " ++ target.name ++ " " ++ quoted id
  | .invalidRange subject field expected value =>
    subject ++ ": " ++ field ++ " must be " ++ expected ++ " (got " ++ Decimal.plain value ++ ")"
  | .kindMismatch clip asset assetKind track trackKind =>
    "clip " ++ quoted clip ++ " places " ++ assetKind.name ++ " asset " ++ quoted asset ++
      " on " ++ trackKind.name ++ " track " ++ quoted track
  | .malformed reason => "malformed timeline: " ++ reason

inductive Bound where
  | positive
  | notNegative
deriving DecidableEq, Repr

def Bound.text : Bound → String
  | .positive => "> 0"
  | .notNegative => ">= 0"

def Bound.admits {S : Type} [Quantity S] (bound : Bound) (value : S) : Bool :=
  Quantity.isFinite value &&
    match bound with
    | .positive => !Quantity.isAtMost value Quantity.zero
    | .notNegative => !Quantity.isBelow value Quantity.zero

structure Measure (S : Type) where
  field : String
  bound : Bound
  value : S

def Measure.isAdmitted {S : Type} [Quantity S] (measure : Measure S) : Bool :=
  measure.bound.admits measure.value

def Clip.measures {S : Type} (clip : Clip S) : List (Measure S) :=
  [⟨"startTime", .notNegative, clip.start⟩, ⟨"duration", .positive, clip.duration⟩,
    ⟨"volume", .notNegative, clip.volume⟩, ⟨"fadeIn", .notNegative, clip.fadeIn⟩,
    ⟨"fadeOut", .notNegative, clip.fadeOut⟩]

def Measure.problem? (subject : String) (measure : Measure Float) : Option Problem :=
  if measure.isAdmitted then none
  else some (.invalidRange subject measure.field measure.bound.text measure.value)

namespace Timeline

variable (timeline : Timeline)

def hasTrack (id : String) : Bool := timeline.tracks.any fun track => track.id == id

def referenceProblem? (clip : Clip Float) : Option Problem :=
  if !timeline.hasTrack clip.trackId then
    some (.missingReference clip.id .track clip.trackId)
  else none

def rangeProblem? (clip : Clip Float) : Option Problem :=
  clip.measures.findSome? (Measure.problem? ("clip " ++ quoted clip.id))

def kindProblem? (track : Track) (clip : Clip Float) (asset : Asset) : Option Problem :=
  if track.kind.accepts asset.kind then none
  else some (.kindMismatch clip.id clip.assetId asset.kind track.id track.kind)

def clipProblem? (track : Track) (clip : Clip Float) : Option Problem :=
  match timeline.assets.get? clip.assetId with
  | none => some (.missingReference clip.id .asset clip.assetId)
  | some asset =>
    (timeline.referenceProblem? clip).or
      ((rangeProblem? clip).or (kindProblem? track clip asset))

def trackProblem? (track : Track) : Option Problem :=
  (Measure.problem? ("track " ++ quoted track.id) ⟨"volume", .notNegative, track.volume⟩).or
    (track.clips.findSome? (timeline.clipProblem? track))

def durationProblem? : Option Problem :=
  Measure.problem? "projectSettings" ⟨"duration", .positive, timeline.settings.duration⟩

/-- The first problem, in the order in which the parts are declared. -/
def problem? : Option Problem :=
  timeline.durationProblem?.or (timeline.tracks.findSome? timeline.trackProblem?)

def validate : Except Problem Unit :=
  match timeline.problem? with
  | none => .ok ()
  | some problem => .error problem

end Timeline

end Compositor
