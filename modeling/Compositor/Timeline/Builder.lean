import Compositor.Timeline.Check

/-!
# Building a timeline

A draft collects settings, assets and tracks in any order.  Asset keys have to
differ; everything else is checked when the draft is finished.
-/

namespace Compositor

/-- A clip that belongs to the track around it, unless it names another one. -/
structure ClipDraft where
  id : String
  assetId : String
  trackId : Option String
  start : Float
  duration : Float
  volume : Float
  fadeIn : Float
  fadeOut : Float
  transition : Transition

def ClipDraft.plain (id assetId : String) (start duration : Float) : ClipDraft :=
  ⟨id, assetId, none, start, duration, 1.0, 0.0, 0.0, .cut⟩

def ClipDraft.setVolume (draft : ClipDraft) (volume : Float) : ClipDraft :=
  { draft with volume }

def ClipDraft.setFades (draft : ClipDraft) (fadeIn fadeOut : Float) : ClipDraft :=
  { draft with fadeIn, fadeOut }

def ClipDraft.setTransition (draft : ClipDraft) (transition : Transition) : ClipDraft :=
  { draft with transition }

def ClipDraft.setTrackId (draft : ClipDraft) (trackId : String) : ClipDraft :=
  { draft with trackId := some trackId }

def ClipDraft.finish (draft : ClipDraft) (enclosing : String) : Clip Float :=
  ⟨draft.id, draft.assetId, draft.trackId.getD enclosing, draft.start, draft.duration,
    draft.volume, draft.fadeIn, draft.fadeOut, draft.transition⟩

structure TrackDraft where
  id : String
  kind : MediaKind
  name : String
  muted : Bool
  volume : Float
  clips : List ClipDraft

def TrackDraft.plain (id : String) (kind : MediaKind) : TrackDraft :=
  ⟨id, kind, id, false, 1.0, []⟩

def TrackDraft.setName (draft : TrackDraft) (name : String) : TrackDraft :=
  { draft with name }

def TrackDraft.setMuted (draft : TrackDraft) (muted : Bool) : TrackDraft :=
  { draft with muted }

def TrackDraft.setVolume (draft : TrackDraft) (volume : Float) : TrackDraft :=
  { draft with volume }

def TrackDraft.add (draft : TrackDraft) (clip : ClipDraft) : TrackDraft :=
  { draft with clips := draft.clips ++ [clip] }

def TrackDraft.finish (draft : TrackDraft) : Track :=
  ⟨draft.id, draft.kind, draft.name, draft.clips.map (·.finish draft.id), draft.muted,
    draft.volume⟩

structure Draft where
  settings : Settings
  assets : Table Asset
  tracks : List Track

namespace Draft

def new (title : String) (duration : Float) : Draft :=
  ⟨.default title duration, .empty, []⟩

def setResolution (draft : Draft) (resolution : Resolution) : Draft :=
  { draft with settings := { draft.settings with resolution } }

def setFrameRate (draft : Draft) (frameRate : FrameRate) : Draft :=
  { draft with settings := { draft.settings with frameRate } }

def setStyle (draft : Draft) (style : Style) : Draft :=
  { draft with settings := { draft.settings with style } }

def addAsset (draft : Draft) (id : String) (asset : Asset) : Except Problem Draft :=
  if draft.assets.contains id then .error (.malformed ("duplicate asset id " ++ quoted id))
  else .ok { draft with assets := draft.assets.insert id asset }

def addPlainAsset (draft : Draft) (id : String) (kind : MediaKind) (location : String) :
    Except Problem Draft :=
  draft.addAsset id (.plain kind location)

def addTrack (draft : Draft) (track : TrackDraft) : Draft :=
  { draft with tracks := draft.tracks ++ [track.finish] }

def timeline (draft : Draft) : Timeline := ⟨draft.tracks, draft.settings, draft.assets⟩

def finish (draft : Draft) : Except Problem Timeline := do
  draft.timeline.validate
  return draft.timeline

end Draft

end Compositor
