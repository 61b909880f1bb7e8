import Compositor.Plan.Basic
import Compositor.Timeline.Basic

/-!
# Compiling a timeline

A timeline and the places where its assets were found become a plan.  Each
asset that is used and was found gets one input.  Visual clips are laid over a
plain canvas one after the other; audible clips are prepared one by one and
mixed.  A stream of an input that several clips use is split first, so that
every edge of the graph has one reader.  Clips whose asset was not found are
left out.
-/

namespace Compositor

abbrev AssetPaths := Table String

section Chains

variable {S : Type} [Quantity S]

/-- The length of a transition: half a second, or half the clip if that is shorter. -/
def rampLength (duration : S) : S :=
  Quantity.least Quantity.half (Quantity.halve duration)

def Clip.window (clip : Clip S) : Window S := .ofDuration clip.start clip.duration

def Clip.slide (clip : Clip S) : Slide S :=
  match clip.transition with
  | .wipe => .slideIn clip.start (rampLength clip.duration)
  | .cut | .fade | .dissolve => .fixed

def alphaPixels : String := "yuva420p"

def outputPixels : String := "yuv420p"

def Clip.ramps (clip : Clip S) : List (Filter S) :=
  match clip.transition with
  | .fade | .dissolve =>
    let ramp := rampLength clip.duration
    [.format alphaPixels, .fade .into clip.start ramp,
      .fade .out (clip.start + clip.duration - ramp) ramp]
  | .cut | .wipe => []

def Clip.layerChain (canvas : Canvas) (clip : Clip S) : List (Filter S) :=
  [.scaleCover canvas, .centerCrop canvas, .squarePixels] ++ clip.ramps

def fadeFilter (direction : FadeDirection) (start length : S) : List (Filter S) :=
  if Quantity.isBelow Quantity.zero length then [.audioFade direction start length] else []

def Clip.audioChain (trackVolume : S) (clip : Clip S) : List (Filter S) :=
  let fadeIn := Quantity.least clip.fadeIn clip.duration
  let fadeOut := Quantity.least clip.fadeOut clip.duration
  [.audioTrim clip.duration, .audioRestart] ++ fadeFilter .into Quantity.zero fadeIn ++
    fadeFilter .out (clip.duration - fadeOut) fadeOut ++
    [.audioDelay (Quantity.wholeMillis clip.start), .gain (clip.volume * trackVolume)]

end Chains

/-- The edges of a compiled graph, by what they carry. -/
inductive Edge where
  | base
  | layer (index : Nat)
  | overlay (index : Nat)
  | voice (index : Nat)
  | mix
  | picture
  | branch (slot : Nat) (stream : Stream) (index : Nat)
deriving DecidableEq, Repr

def Edge.label : Edge → Label
  | .base => ⟨"base"⟩
  | .layer index => ⟨"v" ++ Decimal.whole index⟩
  | .overlay index => ⟨"ov" ++ Decimal.whole index⟩
  | .voice index => ⟨"a" ++ Decimal.whole index⟩
  | .mix => ⟨"aout"⟩
  | .picture => ⟨"vout"⟩
  | .branch slot stream index =>
    ⟨"s" ++ Decimal.whole slot ++ stream.letter ++ Decimal.whole index⟩

/-- An asset that is used, declared and found. -/
structure BoundAsset where
  id : String
  kind : MediaKind
  path : String
deriving DecidableEq

namespace Timeline

variable (timeline : Timeline)

def bound? (paths : AssetPaths) (id : String) : Option BoundAsset := do
  let path ← paths.get? id
  let asset ← timeline.assets.get? id
  some ⟨id, asset.kind, path⟩

def boundAssets (paths : AssetPaths) : List BoundAsset :=
  timeline.referencedIds.filterMap (timeline.bound? paths)

def bindings (paths : AssetPaths) : List Binding :=
  (timeline.boundAssets paths).mapIdx fun slot asset =>
    ⟨slot, some asset.id,
      .ofMedia asset.kind asset.path timeline.settings.duration
        timeline.settings.frameRate.perSecond⟩

def slot? (paths : AssetPaths) (id : String) : Option Nat :=
  (timeline.boundAssets paths).findIdx? fun asset => asset.id == id

end Timeline

/-! ## Placements -/

@[ext] structure InputStream where
  slot : Nat
  stream : Stream
deriving DecidableEq, Repr

structure Placement where
  track : Track
  clip : Clip Float
  slot : Nat

/-- The clips of a timeline by what becomes of them; of some only the number is kept. -/
structure Sorting where
  visual : List Placement
  audible : List Placement
  unbound : Nat
  muted : Nat

namespace Sorting

def empty : Sorting := ⟨[], [], 0, 0⟩

def add (slot? : String → Option Nat) (sorting : Sorting) (item : Track × Clip Float) :
    Sorting :=
  let (track, clip) := item
  match slot? clip.assetId with
  | none => { sorting with unbound := sorting.unbound + 1 }
  | some slot =>
    match track.kind with
    | .video | .image => { sorting with visual := sorting.visual ++ [⟨track, clip, slot⟩] }
    | .audio =>
      if track.muted then { sorting with muted := sorting.muted + 1 }
      else { sorting with audible := sorting.audible ++ [⟨track, clip, slot⟩] }

/-- The streams that the clips read, in the order in which they are wired. -/
def uses (sorting : Sorting) : List InputStream :=
  sorting.visual.map (⟨·.slot, .video⟩) ++ sorting.audible.map (⟨·.slot, .audio⟩)

end Sorting

def Timeline.sort (timeline : Timeline) (paths : AssetPaths) : Sorting :=
  timeline.placements.foldl (Sorting.add (timeline.slot? paths)) .empty

namespace InputStream

def pad (source : InputStream) : Pad := .input source.slot source.stream

def branches (source : InputStream) (count : Nat) : List Label :=
  (List.range count).map fun index => (Edge.branch source.slot source.stream index).label

def splitNode (source : InputStream) (count : Nat) : Node :=
  let filter := match source.stream with
    | .video => .split count
    | .audio => .audioSplit count
  ⟨[source.pad], [filter], source.branches count⟩

end InputStream

def inputStreams (inputs : Nat) : List InputStream :=
  (List.range inputs).flatMap fun slot => [⟨slot, .video⟩, ⟨slot, .audio⟩]

/-- The streams that have several readers. -/
def sharedStreams (inputs : Nat) (uses : List InputStream) : List InputStream :=
  (inputStreams inputs).filter fun source => 2 ≤ uses.count source

def splitNodes (inputs : Nat) (uses : List InputStream) : List Node :=
  (sharedStreams inputs uses).map fun source => source.splitNode (uses.count source)

/-- The branches of each stream that have no reader yet, the next one first. -/
structure Fanout where
  pending : InputStream → List Label

namespace Fanout

def ofUses (uses : List InputStream) : Fanout where
  pending source :=
    if uses.count source < 2 then [] else source.branches (uses.count source)

def take (fanout : Fanout) (source : InputStream) : Pad × Fanout :=
  match fanout.pending source with
  | [] => (source.pad, fanout)
  | label :: labels =>
    (.link label, ⟨fun other => if other = source then labels else fanout.pending other⟩)

end Fanout

def baseColor : String := "black"

def baseNode (settings : Settings) : Node :=
  ⟨[], [.color baseColor settings.canvas settings.duration settings.frameRate.perSecond],
    [Edge.base.label]⟩

def layerNode (canvas : Canvas) (index : Nat) (clip : Clip Float) (pad : Pad) : Node :=
  ⟨[pad], clip.layerChain canvas, [(Edge.layer index).label]⟩

def overlayNode (index : Nat) (clip : Clip Float) (picture : Label) : Node :=
  ⟨[.link picture, .link (Edge.layer index).label], [.overlay clip.slide clip.window],
    [(Edge.overlay index).label]⟩

def voiceNode (index : Nat) (placement : Placement) (pad : Pad) : Node :=
  ⟨[pad], placement.clip.audioChain placement.track.volume, [(Edge.voice index).label]⟩

def mixNode (voices : List Label) : Node :=
  ⟨voices.map .link, [.audioMix voices.length], [Edge.mix.label]⟩

def finalNode (pad : Pad) : Node := ⟨[pad], [.format outputPixels], [Edge.picture.label]⟩

/-! ## Wiring -/

/-- A graph in the making: its nodes, the branches without a reader, and the edges that carry
the picture so far and the voices so far. -/
structure Wiring where
  nodes : List Node
  fanout : Fanout
  picture : Label
  voices : List Label

namespace Wiring

def start (settings : Settings) (inputs : Nat) (uses : List InputStream) : Wiring where
  nodes := splitNodes inputs uses ++ [baseNode settings]
  fanout := .ofUses uses
  picture := Edge.base.label
  voices := []

def addLayer (canvas : Canvas) (wiring : Wiring) (item : Placement × Nat) : Wiring :=
  let (placement, index) := item
  let (pad, fanout) := wiring.fanout.take ⟨placement.slot, .video⟩
  { wiring with
    nodes := wiring.nodes ++ [layerNode canvas index placement.clip pad,
      overlayNode index placement.clip wiring.picture]
    fanout
    picture := (Edge.overlay index).label }

def addVoice (wiring : Wiring) (item : Placement × Nat) : Wiring :=
  let (placement, index) := item
  let (pad, fanout) := wiring.fanout.take ⟨placement.slot, .audio⟩
  { wiring with
    nodes := wiring.nodes ++ [voiceNode index placement pad]
    fanout
    voices := wiring.voices ++ [(Edge.voice index).label] }

def addLayers (canvas : Canvas) (wiring : Wiring) (visual : List Placement) : Wiring :=
  visual.zipIdx.foldl (addLayer canvas) wiring

def addVoices (wiring : Wiring) (audible : List Placement) : Wiring :=
  audible.zipIdx.foldl addVoice wiring

def ofSorting (settings : Settings) (inputs : Nat) (sorting : Sorting) : Wiring :=
  ((start settings inputs sorting.uses).addLayers settings.canvas sorting.visual).addVoices
    sorting.audible

def mixNodes (wiring : Wiring) : List Node :=
  if wiring.voices.isEmpty then [] else [mixNode wiring.voices]

def graph (wiring : Wiring) : Graph :=
  ⟨wiring.nodes ++ wiring.mixNodes ++ [finalNode (.link wiring.picture)]⟩

def outputs (wiring : Wiring) : Outputs :=
  ⟨Edge.picture.label, if wiring.voices.isEmpty then none else some Edge.mix.label⟩

end Wiring

def Encoding.standard (settings : Settings) : Encoding where
  duration := settings.duration
  canvas := settings.canvas
  frameRate := settings.frameRate
  pixels := outputPixels
  videoCodec := "libx264"
  preset := "medium"
  quality := 23
  audioCodec := "aac"
  audioRate := "128k"

/-- A plain color for the whole duration, without sound. -/
def Timeline.emptyPlan (timeline : Timeline) : Plan where
  inputs :=
    [⟨0, none, .color baseColor timeline.settings.canvas timeline.settings.duration
      timeline.settings.frameRate.perSecond⟩]
  graph := ⟨[finalNode (.input 0 .video)]⟩
  outputs := ⟨Edge.picture.label, none⟩
  encoding := .standard timeline.settings
  counts := ⟨1, 0, 0, timeline.clipCount, 0⟩

def Timeline.filledPlan (timeline : Timeline) (paths : AssetPaths) : Plan :=
  let bindings := timeline.bindings paths
  let sorting := timeline.sort paths
  let wiring := Wiring.ofSorting timeline.settings bindings.length sorting
  { inputs := bindings
    graph := wiring.graph
    outputs := wiring.outputs
    encoding := .standard timeline.settings
    counts :=
      ⟨bindings.length, sorting.visual.length, wiring.voices.length, sorting.unbound,
        sorting.muted⟩ }

def Timeline.compile (timeline : Timeline) (paths : AssetPaths) : Plan :=
  if (timeline.bindings paths).isEmpty then timeline.emptyPlan else timeline.filledPlan paths

end Compositor
