import Compositor.Json.Record
import Compositor.Media.Names
import Compositor.Text.Utf8
import Compositor.Timeline.Basic

/-!
# The payload of a timeline

The JSON form of timelines: one table of fields for each kind of record.
-/

namespace Compositor

open Json

def Transition.format : VariantFormat Transition where
  values := [.cut, .fade, .dissolve, .wipe]
  name
    | .cut => "cut"
    | .fade => "fade"
    | .dissolve => "dissolve"
    | .wipe => "wipe"
  otherNames _ := []

def Style.format : VariantFormat Style where
  values := [.slideshow, .kenBurns, .glitch, .fade, .cinematic]
  name
    | .slideshow => "slideshow"
    | .kenBurns => "ken-burns"
    | .glitch => "glitch"
    | .fade => "fade"
    | .cinematic => "cinematic"
  otherNames _ := []

inductive Settings.Field where
  | title
  | duration
  | resolution
  | frameRate
  | style
  | upload
deriving DecidableEq

def Settings.Content : Settings.Field → Type
  | .title => String
  | .duration => Float
  | .resolution => Resolution
  | .frameRate => FrameRate
  | .style => Style
  | .upload => Bool

def Settings.format : RecordFormat Settings where
  title := "ProjectSettings"
  Field := Settings.Field
  decideField := inferInstance
  fields := [.title, .duration, .resolution, .frameRate, .style, .upload]
  mem_fields field := by cases field <;> decide
  name
    | .title => "title"
    | .duration => "duration"
    | .resolution => "resolution"
    | .frameRate => "frameRate"
    | .style => "style"
    | .upload => "uploadTarget"
  otherNames
    | .frameRate => ["framerate"]
    | .upload => ["uploadToYouTube"]
    | _ => []
  Content := Settings.Content
  read
    | .title => readText
    | .duration => readReal
    | .resolution => Resolution.format.read
    | .frameRate => FrameRate.read
    | .style => Style.format.read
    | .upload => readBoolean
  absent
    | .title => some ""
    | .duration => none
    | .resolution => some Resolution.hd1080
    | .frameRate => some FrameRate.fps30
    | .style => some Style.slideshow
    | .upload => some false
  write
    | .title => fun title => some (.text title)
    | .duration => fun duration => some (.number duration)
    | .resolution => fun resolution => some (Resolution.format.write resolution)
    | .frameRate => fun rate => some rate.write
    | .style => fun style => some (Style.format.write style)
    | .upload => fun upload => some (.boolean upload)
  build content :=
    ⟨content .title, content .duration, content .resolution, content .frameRate,
      content .style, content .upload⟩
  part settings
    | .title => settings.title
    | .duration => settings.duration
    | .resolution => settings.resolution
    | .frameRate => settings.frameRate
    | .style => settings.style
    | .upload => settings.upload

inductive Asset.Field where
  | kind
  | location
  | name
  | nativeDuration
  | bucket
deriving DecidableEq

def Asset.Content : Asset.Field → Type
  | .kind => MediaKind
  | .location => String
  | .name => Option String
  | .nativeDuration => Option Float
  | .bucket => Option String

def Asset.format : RecordFormat Asset where
  title := "Asset"
  Field := Asset.Field
  decideField := inferInstance
  fields := [.kind, .location, .name, .nativeDuration, .bucket]
  mem_fields field := by cases field <;> decide
  name
    | .kind => "type"
    | .location => "location"
    | .name => "name"
    | .nativeDuration => "nativeDuration"
    | .bucket => "bucket"
  otherNames
    | .kind => ["kind"]
    | .location => ["url", "locationHint"]
    | .nativeDuration => ["duration"]
    | _ => []
  Content := Asset.Content
  read
    | .kind => MediaKind.format.read
    | .location => readText
    | .name => readOption readText
    | .nativeDuration => readOption readReal
    | .bucket => readOption readText
  absent
    | .kind => none
    | .location => none
    | .name => some (none : Option String)
    | .nativeDuration => some (none : Option Float)
    | .bucket => some (none : Option String)
  write
    | .kind => fun kind => some (MediaKind.format.write kind)
    | .location => fun location => some (.text location)
    | .name => fun name => Option.map Tree.text name
    | .nativeDuration => fun duration => Option.map Tree.number duration
    | .bucket => fun bucket => Option.map Tree.text bucket
  build content :=
    ⟨content .kind, content .location, content .name, content .nativeDuration, content .bucket⟩
  part asset
    | .kind => asset.kind
    | .location => asset.location
    | .name => asset.name
    | .nativeDuration => asset.nativeDuration
    | .bucket => asset.bucket

/-! ## Clips -/

inductive Clip.Field where
  | id
  | assetId
  | trackId
  | start
  | duration
  | volume
  | fadeIn
  | fadeOut
  | transition
deriving DecidableEq

def Clip.Content : Clip.Field → Type
  | .id | .assetId | .trackId => String
  | .start | .duration | .volume | .fadeIn | .fadeOut => Float
  | .transition => Transition

def Clip.format : RecordFormat (Clip Float) where
  title := "Clip"
  Field := Clip.Field
  decideField := inferInstance
  fields :=
    [.id, .assetId, .trackId, .start, .duration, .volume, .fadeIn, .fadeOut, .transition]
  mem_fields field := by cases field <;> decide
  name
    | .id => "id"
    | .assetId => "assetId"
    | .trackId => "trackId"
    | .start => "startTime"
    | .duration => "duration"
    | .volume => "volume"
    | .fadeIn => "fadeIn"
    | .fadeOut => "fadeOut"
    | .transition => "transition"
  otherNames _ := []
  Content := Clip.Content
  read
    | .id | .assetId | .trackId => readText
    | .start | .duration | .volume | .fadeIn | .fadeOut => readReal
    | .transition => Transition.format.read
  absent
    | .id | .assetId | .trackId | .start | .duration => none
    | .volume => some (1.0 : Float)
    | .fadeIn | .fadeOut => some (0.0 : Float)
    | .transition => some Transition.cut
  write
    | .id | .assetId | .trackId => fun text => some (.text text)
    | .start | .duration | .volume | .fadeIn | .fadeOut => fun number => some (.number number)
    | .transition => fun transition => some (Transition.format.write transition)
  build content :=
    ⟨content .id, content .assetId, content .trackId, content .start, content .duration,
      content .volume, content .fadeIn, content .fadeOut, content .transition⟩
  part clip
    | .id => clip.id
    | .assetId => clip.assetId
    | .trackId => clip.trackId
    | .start => clip.start
    | .duration => clip.duration
    | .volume => clip.volume
    | .fadeIn => clip.fadeIn
    | .fadeOut => clip.fadeOut
    | .transition => clip.transition

inductive Track.Field where
  | id
  | kind
  | name
  | clips
  | muted
  | volume
deriving DecidableEq

def Track.Content : Track.Field → Type
  | .id => String
  | .kind => MediaKind
  | .name => String
  | .clips => List (Clip Float)
  | .muted => Bool
  | .volume => Float

def Track.format : RecordFormat Track where
  title := "Track"
  Field := Track.Field
  decideField := inferInstance
  fields := [.id, .kind, .name, .clips, .muted, .volume]
  mem_fields field := by cases field <;> decide
  name
    | .id => "id"
    | .kind => "type"
    | .name => "name"
    | .clips => "clips"
    | .muted => "muted"
    | .volume => "volume"
  otherNames
    | .kind => ["kind"]
    | _ => []
  Content := Track.Content
  read
    | .id => readText
    | .kind => MediaKind.format.read
    | .name => readText
    | .clips => readList Clip.format.reader
    | .muted => readBoolean
    | .volume => readReal
  absent
    | .id | .kind | .clips => none
    | .name => some ""
    | .muted => some false
    | .volume => some (1.0 : Float)
  write
    | .id => fun id => some (.text id)
    | .kind => fun kind => some (MediaKind.format.write kind)
    | .name => fun name => some (.text name)
    | .clips => fun clips => some (.list (List.map Clip.format.toTree clips))
    | .muted => fun muted => some (.boolean muted)
    | .volume => fun volume => some (.number volume)
  build content :=
    ⟨content .id, content .kind, content .name, content .clips, content .muted,
      content .volume⟩
  part track
    | .id => track.id
    | .kind => track.kind
    | .name => track.name
    | .clips => track.clips
    | .muted => track.muted
    | .volume => track.volume

inductive Timeline.Field where
  | tracks
  | settings
  | assets
deriving DecidableEq

def Timeline.Content : Timeline.Field → Type
  | .tracks => List Track
  | .settings => Settings
  | .assets => Table Asset

def readAssets : Reader (Table Asset) := fun document => do
  let members ← readMap Asset.format.reader document
  return Table.ofList members

def writeAssets (assets : Table Asset) : Tree :=
  .record (assets.entries.map fun entry => (entry.1, Asset.format.toTree entry.2))

def Timeline.format : RecordFormat Timeline where
  title := "Timeline"
  Field := Timeline.Field
  decideField := inferInstance
  fields := [.tracks, .settings, .assets]
  mem_fields field := by cases field <;> decide
  name
    | .tracks => "tracks"
    | .settings => "projectSettings"
    | .assets => "assets"
  otherNames _ := []
  Content := Timeline.Content
  read
    | .tracks => readList Track.format.reader
    | .settings => Settings.format.reader
    | .assets => readAssets
  absent
    | .tracks => none
    | .settings => none
    | .assets => some (Table.empty : Table Asset)
  write
    | .tracks => fun tracks => some (.list (List.map Track.format.toTree tracks))
    | .settings => fun settings => some (Settings.format.toTree settings)
    | .assets => fun assets => some (writeAssets assets)
  build content := ⟨content .tracks, content .settings, content .assets⟩
  part timeline
    | .tracks => timeline.tracks
    | .settings => timeline.settings
    | .assets => timeline.assets

namespace Timeline

def toJson (timeline : Timeline) : String := (Timeline.format.toTree timeline).compact

def ofSymbols (symbols : List Symbol) : Except Fault Timeline :=
  Json.ofSymbols Timeline.format.reader symbols

def ofJson (text : String) : Except Fault Timeline := ofSymbols (text.toList.map some)

/-- Bytes that belong to no character are faults of the text around them. -/
def ofBytes (bytes : List UInt8) : Except Fault Timeline := ofSymbols (byteSymbols bytes)

end Timeline

end Compositor
