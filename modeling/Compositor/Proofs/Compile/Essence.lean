import Compositor.Plan.Fingerprint
import Compositor.Proofs.Compile.Picture

/-!
# What a plan depends on

The essence of a timeline is what can be told from its plans: how long, how
large and how fast it is, and of each clip its asset, its place, and what its
track makes of it.  Timelines of the same essence have the same plans, as long
as the assets that clips use are found at the same places.
-/

namespace Compositor

/-- Dissolves are shown as fades. -/
def Transition.shown : Transition → Transition
  | .dissolve => .fade
  | transition => transition

/-- What a track makes of a clip. -/
inductive ClipRole where
  | visual (transition : Transition)
  | muted
  | audible (volume trackVolume fadeIn fadeOut : Float)

def ClipRole.of (track : Track) (clip : Clip Float) : ClipRole :=
  match track.kind with
  | .video | .image => .visual clip.transition.shown
  | .audio =>
    if track.muted then .muted
    else .audible clip.volume track.volume clip.fadeIn clip.fadeOut

structure ClipEssence where
  assetId : String
  isImage? : Option Bool
  start : Float
  duration : Float
  role : ClipRole

structure Essence where
  duration : Float
  resolution : Resolution
  frameRate : FrameRate
  clips : List ClipEssence

namespace Timeline

variable (timeline : Timeline)

def isImage? (id : String) : Option Bool :=
  (timeline.assets.get? id).map fun asset => decide (asset.kind = .image)

def clipEssence (item : Track × Clip Float) : ClipEssence :=
  ⟨item.2.assetId, timeline.isImage? item.2.assetId, item.2.start, item.2.duration,
    .of item.1 item.2⟩

def essence : Essence :=
  ⟨timeline.settings.duration, timeline.settings.resolution, timeline.settings.frameRate,
    timeline.placements.map timeline.clipEssence⟩

end Timeline

def ClipEssence.bare (clip : ClipEssence) : Track × Clip Float :=
  let place (volume fadeIn fadeOut : Float) (transition : Transition) : Clip Float :=
    ⟨"", clip.assetId, "", clip.start, clip.duration, volume, fadeIn, fadeOut, transition⟩
  match clip.role with
  | .visual transition => (⟨"", .video, "", [], false, 1.0⟩, place 1.0 0.0 0.0 transition)
  | .muted => (⟨"", .audio, "", [], true, 1.0⟩, place 1.0 0.0 0.0 .cut)
  | .audible volume trackVolume fadeIn fadeOut =>
    (⟨"", .audio, "", [], false, trackVolume⟩, place volume fadeIn fadeOut .cut)

def Placement.layer (canvas : Canvas) (placement : Placement) :
    Nat × List (Filter Float) × Filter Float :=
  (placement.slot, placement.clip.layerChain canvas,
    .overlay placement.clip.slide placement.clip.window)

def Placement.voice (placement : Placement) : Nat × List (Filter Float) :=
  (placement.slot, placement.clip.audioChain placement.track.volume)

theorem Sorting.uses_eq (sorting : Sorting) (canvas : Canvas) :
    sorting.uses =
      (sorting.visual.map (Placement.layer canvas)).map (⟨·.1, .video⟩) ++
        (sorting.audible.map Placement.voice).map (⟨·.1, .audio⟩) := by
  simp [uses, Placement.layer, Placement.voice, Function.comp_def]

theorem foldl_zipIdx_congr {α β γ : Type} {step : β → α × Nat → β} {view : α → γ}
    (hstep : ∀ state item item' index, view item = view item' →
      step state (item, index) = step state (item', index))
    {items items' : List α} (h : items.map view = items'.map view) (index : Nat) (state : β) :
    (items.zipIdx index).foldl step state = (items'.zipIdx index).foldl step state := by
  induction items generalizing items' index state with
  | nil => simp_all [List.map_eq_nil_iff]
  | cons item items ih =>
      obtain ⟨item', items', rfl⟩ : ∃ item' rest, items' = item' :: rest := by
        cases items' with
        | nil => simp at h
        | cons item' rest => exact ⟨item', rest, rfl⟩
      simp only [List.map_cons, List.cons.injEq] at h
      simp only [List.zipIdx_cons, List.foldl_cons]
      rw [hstep state item item' index h.1, ih h.2]

namespace Wiring

theorem addLayers_congr {canvas : Canvas} (wiring : Wiring) {visual visual' : List Placement}
    (h : visual.map (Placement.layer canvas) = visual'.map (Placement.layer canvas)) :
    wiring.addLayers canvas visual = wiring.addLayers canvas visual' := by
  refine foldl_zipIdx_congr (fun wiring placement placement' index hlayer => ?_) h 0 wiring
  simp only [Placement.layer, Prod.mk.injEq] at hlayer
  obtain ⟨hslot, hchain, hoverlay⟩ := hlayer
  simp only [addLayer, layerNode, overlayNode, hslot, hchain, hoverlay]

theorem addVoices_congr (wiring : Wiring) {audible audible' : List Placement}
    (h : audible.map Placement.voice = audible'.map Placement.voice) :
    wiring.addVoices audible = wiring.addVoices audible' := by
  refine foldl_zipIdx_congr (fun wiring placement placement' index hvoice => ?_) h 0 wiring
  simp only [Placement.voice, Prod.mk.injEq] at hvoice
  simp only [addVoice, voiceNode, hvoice]

end Wiring

section Clips

variable (timeline : Timeline) (slot? : String → Option Nat) (item : Track × Clip Float)

@[simp] theorem assetId_bare (clip : ClipEssence) : clip.bare.2.assetId = clip.assetId := by
  cases hrole : clip.role <;> simp [ClipEssence.bare, hrole]

theorem layer_bare (canvas : Canvas) :
    (Sorting.place? Track.isVisual slot? item).map (Placement.layer canvas) =
      (Sorting.place? Track.isVisual slot? (timeline.clipEssence item).bare).map
        (Placement.layer canvas) := by
  obtain ⟨track, clip⟩ := item
  cases hslot : slot? clip.assetId <;> cases hkind : track.kind <;>
    cases hmuted : track.muted <;> cases htransition : clip.transition <;>
    simp [Sorting.place?, Timeline.clipEssence, ClipEssence.bare, ClipRole.of, Track.isVisual,
      MediaKind.isVisual, Placement.layer, Clip.layerChain, Clip.ramps, Clip.slide, Clip.window,
      Transition.shown, hslot, hkind, hmuted, htransition]

theorem voice_bare :
    (Sorting.place? Track.isAudible slot? item).map Placement.voice =
      (Sorting.place? Track.isAudible slot? (timeline.clipEssence item).bare).map
        Placement.voice := by
  obtain ⟨track, clip⟩ := item
  cases hslot : slot? clip.assetId <;> cases hkind : track.kind <;>
    cases hmuted : track.muted <;>
    simp [Sorting.place?, Timeline.clipEssence, ClipEssence.bare, ClipRole.of, Track.isAudible,
      MediaKind.isVisual, Placement.voice, Clip.audioChain, hslot, hkind, hmuted]

theorem isMuted_bare :
    (timeline.clipEssence item).bare.1.isMuted = item.1.isMuted := by
  obtain ⟨track, clip⟩ := item
  cases hkind : track.kind <;> cases hmuted : track.muted <;>
    simp [Timeline.clipEssence, ClipEssence.bare, ClipRole.of, Track.isMuted,
      MediaKind.isVisual, hkind, hmuted]

end Clips

/-! ## Plans by their essence -/

namespace Timeline

variable {first second : Timeline} {paths paths' : AssetPaths}

theorem referencedIds_eq_essence (timeline : Timeline) :
    timeline.referencedIds = (timeline.essence.clips.map ClipEssence.assetId).eraseDups := by
  simp [referencedIds, essence, clipEssence, Function.comp_def]

theorem clipCount_eq_essence (timeline : Timeline) :
    timeline.clipCount = timeline.essence.clips.length := by
  simp [essence]

theorem isImage?_congr (h : first.essence.clips = second.essence.clips) {id : String}
    (hid : id ∈ first.referencedIds) : first.isImage? id = second.isImage? id := by
  obtain ⟨item, hitem, rfl⟩ := List.mem_map.mp (List.mem_eraseDups.mp hid)
  have hmem : first.clipEssence item ∈ second.essence.clips :=
    h ▸ List.mem_map_of_mem hitem
  obtain ⟨item', -, heq⟩ := List.mem_map.mp hmem
  simp only [clipEssence, ClipEssence.mk.injEq] at heq
  obtain ⟨hid, himage, -⟩ := heq
  rw [← himage, hid]

def boundSource (timeline : Timeline) (asset : BoundAsset) : String × Source :=
  (asset.id, .ofMedia asset.kind asset.path timeline.settings.duration
    timeline.settings.frameRate.perSecond)

theorem boundSource_bound? (timeline : Timeline) (paths : AssetPaths) (id : String) :
    (timeline.bound? paths id).map timeline.boundSource =
      (paths.get? id).bind fun path => (timeline.isImage? id).map fun isImage =>
        (id, if isImage then
            .still path timeline.settings.duration timeline.settings.frameRate.perSecond
          else .file path) := by
  simp only [bound?, isImage?, Option.bind_eq_bind]
  cases paths.get? id with
  | none => rfl
  | some path =>
      cases hasset : timeline.assets.get? id with
      | none => simp
      | some asset => cases hkind : asset.kind <;> simp [boundSource, Source.ofMedia, hkind]

theorem boundSources_congr (hessence : first.essence = second.essence)
    (hpaths : ∀ id ∈ first.referencedIds, paths.get? id = paths'.get? id) :
    (first.boundAssets paths).map first.boundSource =
      (second.boundAssets paths').map second.boundSource := by
  have hclips : first.essence.clips = second.essence.clips := by rw [hessence]
  have hduration : first.settings.duration = second.settings.duration :=
    congrArg Essence.duration hessence
  have hrate : first.settings.frameRate = second.settings.frameRate :=
    congrArg Essence.frameRate hessence
  have hids : first.referencedIds = second.referencedIds := by
    rw [referencedIds_eq_essence, referencedIds_eq_essence, hclips]
  rw [boundAssets, boundAssets, List.map_filterMap, List.map_filterMap, ← hids]
  refine List.filterMap_congr fun id hid => ?_
  rw [boundSource_bound?, boundSource_bound?, hpaths id hid, isImage?_congr hclips hid, hduration,
    hrate]

theorem bindings_eq_sources (timeline : Timeline) (paths : AssetPaths) :
    timeline.bindings paths =
      ((timeline.boundAssets paths).map timeline.boundSource).mapIdx fun slot source =>
        ⟨slot, some source.1, source.2⟩ := by
  refine List.mapIdx_eq_iff.mpr fun slot => ?_
  simp [boundSource, Function.comp_def]

theorem slot?_eq_sources (timeline : Timeline) (paths : AssetPaths) :
    timeline.slot? paths = fun id =>
      ((timeline.boundAssets paths).map timeline.boundSource).findIdx? fun source =>
        source.1 == id := by
  funext id
  simp [slot?, boundSource, List.findIdx?_map, Function.comp_def]

theorem layers_placed (timeline : Timeline) (paths : AssetPaths) (canvas : Canvas) :
    (timeline.placed paths Track.isVisual).map (Placement.layer canvas) =
      timeline.essence.clips.filterMap fun clip =>
        (Sorting.place? Track.isVisual (timeline.slot? paths) clip.bare).map
          (Placement.layer canvas) := by
  rw [placed, List.map_filterMap, essence, List.filterMap_map]
  exact List.filterMap_congr fun item _ => layer_bare timeline _ item canvas

theorem voices_placed (timeline : Timeline) (paths : AssetPaths) :
    (timeline.placed paths Track.isAudible).map Placement.voice =
      timeline.essence.clips.filterMap fun clip =>
        (Sorting.place? Track.isAudible (timeline.slot? paths) clip.bare).map
          Placement.voice := by
  rw [placed, List.map_filterMap, essence, List.filterMap_map]
  exact List.filterMap_congr fun item _ => voice_bare timeline _ item

theorem unbound_sort_eq_essence (timeline : Timeline) (paths : AssetPaths) :
    (timeline.sort paths).unbound =
      timeline.essence.clips.countP fun clip => (timeline.slot? paths clip.assetId).isNone := by
  rw [unbound_sort, essence, List.countP_map]
  rfl

theorem muted_sort_eq_essence (timeline : Timeline) (paths : AssetPaths) :
    (timeline.sort paths).muted =
      timeline.essence.clips.countP fun clip =>
        Sorting.isSilenced (timeline.slot? paths) clip.bare := by
  rw [muted_sort, essence, List.countP_map]
  refine List.countP_congr fun item _ => ?_
  simp only [Function.comp_apply, Sorting.isSilenced, isMuted_bare, assetId_bare]
  rfl

theorem ofSorting_congr {settings settings' : Settings} {sorting sorting' : Sorting}
    (hduration : settings.duration = settings'.duration)
    (hcanvas : settings.canvas = settings'.canvas)
    (hrate : settings.frameRate = settings'.frameRate)
    (hvisual : sorting.visual.map (Placement.layer settings.canvas) =
      sorting'.visual.map (Placement.layer settings.canvas))
    (haudible : sorting.audible.map Placement.voice = sorting'.audible.map Placement.voice)
    (inputs : Nat) :
    Wiring.ofSorting settings inputs sorting = Wiring.ofSorting settings' inputs sorting' := by
  have huses : sorting.uses = sorting'.uses := by
    rw [Sorting.uses_eq sorting settings.canvas, Sorting.uses_eq sorting' settings.canvas, hvisual,
      haudible]
  have hstart : Wiring.start settings inputs sorting.uses =
      Wiring.start settings' inputs sorting'.uses := by
    simp only [Wiring.start, baseNode, huses, hduration, hcanvas, hrate]
  rw [Wiring.ofSorting, Wiring.ofSorting, hstart, Wiring.addLayers_congr _ hvisual,
    Wiring.addVoices_congr _ haudible, hcanvas]

theorem emptyPlan_congr (hessence : first.essence = second.essence) :
    first.emptyPlan = second.emptyPlan := by
  have hduration : first.settings.duration = second.settings.duration :=
    congrArg Essence.duration hessence
  have hcanvas : first.settings.canvas = second.settings.canvas :=
    congrArg (fun essence => essence.resolution.canvas) hessence
  have hrate : first.settings.frameRate = second.settings.frameRate :=
    congrArg Essence.frameRate hessence
  simp only [emptyPlan, Encoding.standard, clipCount_eq_essence, hessence, hduration, hcanvas,
    hrate]

theorem filledPlan_congr (hessence : first.essence = second.essence)
    (hsources : (first.boundAssets paths).map first.boundSource =
      (second.boundAssets paths').map second.boundSource) :
    first.filledPlan paths = second.filledPlan paths' := by
  have hduration : first.settings.duration = second.settings.duration :=
    congrArg Essence.duration hessence
  have hcanvas : first.settings.canvas = second.settings.canvas :=
    congrArg (fun essence => essence.resolution.canvas) hessence
  have hrate : first.settings.frameRate = second.settings.frameRate :=
    congrArg Essence.frameRate hessence
  have hslot : first.slot? paths = second.slot? paths' := by
    rw [slot?_eq_sources, slot?_eq_sources, hsources]
  have hbindings : first.bindings paths = second.bindings paths' := by
    rw [bindings_eq_sources, bindings_eq_sources, hsources]
  have hvisual : (first.sort paths).visual.map (Placement.layer first.settings.canvas) =
      (second.sort paths').visual.map (Placement.layer first.settings.canvas) := by
    rw [visual_sort, visual_sort, layers_placed, layers_placed, hessence, hslot]
  have haudible : (first.sort paths).audible.map Placement.voice =
      (second.sort paths').audible.map Placement.voice := by
    rw [audible_sort, audible_sort, voices_placed, voices_placed, hessence, hslot]
  have hlayers : (first.sort paths).visual.length = (second.sort paths').visual.length := by
    simpa using congrArg List.length hvisual
  have hunbound : (first.sort paths).unbound = (second.sort paths').unbound := by
    rw [unbound_sort_eq_essence, unbound_sort_eq_essence, hessence, hslot]
  have hmuted : (first.sort paths).muted = (second.sort paths').muted := by
    rw [muted_sort_eq_essence, muted_sort_eq_essence, hessence, hslot]
  have hwiring := ofSorting_congr hduration hcanvas hrate hvisual haudible
    (second.bindings paths').length
  simp only [filledPlan, Encoding.standard, hbindings, hwiring, hlayers, hunbound, hmuted,
    hduration, hcanvas, hrate]

/-- Timelines of one essence have one plan, and with it one text, one list of arguments and one
fingerprint. -/
theorem compile_eq_of_essence_eq (hessence : first.essence = second.essence)
    (hpaths : ∀ id ∈ first.referencedIds, paths.get? id = paths'.get? id) :
    first.compile paths = second.compile paths' ∧
      (first.compile paths).graph.text = (second.compile paths').graph.text ∧
      (∀ output, (first.compile paths).arguments output =
        (second.compile paths').arguments output) ∧
      (first.compile paths).fingerprint = (second.compile paths').fingerprint := by
  have hsources := boundSources_congr hessence hpaths
  have hbindings : first.bindings paths = second.bindings paths' := by
    rw [bindings_eq_sources, bindings_eq_sources, hsources]
  have hplan : first.compile paths = second.compile paths' := by
    rw [compile, compile, hbindings, emptyPlan_congr hessence, filledPlan_congr hessence hsources]
  exact ⟨hplan, by rw [hplan], fun output => by rw [hplan], by rw [hplan]⟩

/-- The clips of `sharing` under other names, with other sound, on a track of another kind; an
asset more is declared, and found. -/
def disguised : Timeline where
  tracks :=
    [⟨"u", .image, "lane", [⟨"1", "a", "x", 0.0, 1.0, 0.5, 0.1, 0.2, .cut⟩,
      ⟨"2", "b", "y", 0.0, 1.0, 0.5, 0.1, 0.2, .cut⟩,
      ⟨"3", "a", "z", 1.0, 1.0, 0.5, 0.1, 0.2, .dissolve⟩], true, 0.25⟩]
  settings := ⟨"y", 2.0, .hd1080, .fps30, .glitch, true⟩
  assets := (Table.empty.insert "a" ⟨.video, "b.mov", some "A", some 9.0, some "c"⟩).insert "z"
    (.plain .audio "z.mp3")

theorem compile_eq_of_essence_eq_disguised :
    sharing.essence = disguised.essence ∧
    (∀ id ∈ sharing.referencedIds, (Table.empty.insert "a" "/a.mp4").get? id =
      ((Table.empty.insert "a" "/a.mp4").insert "z" "/z.mp3").get? id) ∧
    let plan := sharing.compile (Table.empty.insert "a" "/a.mp4")
    let other := disguised.compile ((Table.empty.insert "a" "/a.mp4").insert "z" "/z.mp3")
    plan = other ∧ plan.graph.text = other.graph.text ∧
      (∀ output, plan.arguments output = other.arguments output) ∧
      plan.fingerprint = other.fingerprint := by
  have hessence : sharing.essence = disguised.essence := rfl
  have hpaths : ∀ id ∈ sharing.referencedIds, (Table.empty.insert "a" "/a.mp4").get? id =
      ((Table.empty.insert "a" "/a.mp4").insert "z" "/z.mp3").get? id := by decide
  exact ⟨hessence, hpaths, compile_eq_of_essence_eq hessence hpaths⟩

end Timeline

end Compositor
