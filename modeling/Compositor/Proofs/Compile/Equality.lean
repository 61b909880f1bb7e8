import Compositor.Proofs.Compile.Inputs
import Compositor.Proofs.Compile.Sound
import Compositor.Proofs.Compile.Writing
import Compositor.Proofs.Plan.Arguments
import Compositor.Proofs.Timeline.Equality

/-!
# Plans of timelines that are compared equal

The texts of two such plans are the same but for the gains: a gain of zero is
written with its sign.
-/

namespace Compositor

open Decimal

theorem map_eq_of_forall₂ {α β γ : Type} {rel : α → β → Prop} {f : α → γ} {g : β → γ}
    {items : List α} {items' : List β} (h : List.Forall₂ rel items items')
    (hfg : ∀ item item', rel item item' → f item = g item') : items.map f = items'.map g := by
  induction h with
  | nil => rfl
  | cons hitem _ ih => rw [List.map_cons, List.map_cons, hfg _ _ hitem, ih]

theorem map_eq_iff_of_forall₂ {α β γ : Type} {rel : α → α → Prop} {f : α → β} {g : α → γ}
    {items items' : List α} (h : List.Forall₂ rel items items')
    (hfg : ∀ item item', rel item item' → (f item = f item' ↔ g item = g item')) :
    items.map f = items'.map f ↔ items.map g = items'.map g := by
  induction h with
  | nil => simp
  | cons hitem _ ih => simp only [List.map_cons, List.cons.injEq, hfg _ _ hitem, ih]

theorem text_fade_congr {start start' : Float} (h : SameNumber start start')
    (direction : FadeDirection) (duration : Float) :
    (Filter.fade direction start duration).text = (Filter.fade direction start' duration).text := by
  unfold Filter.text
  simp only [h.seconds_eq]

theorem text_overlay_congr {start start' : Float} (h : SameNumber start start') (stop : Float) :
    (Filter.overlay .fixed ⟨start, stop⟩).text = (Filter.overlay .fixed ⟨start', stop⟩).text := by
  unfold Filter.text Window.condition
  simp only [h.seconds_eq]

theorem text_slide_congr {start start' : Float} (h : SameNumber start start')
    (duration stop : Float) :
    (Filter.overlay (.slideIn start duration) ⟨start, stop⟩).text =
      (Filter.overlay (.slideIn start' duration) ⟨start', stop⟩).text := by
  unfold Filter.text Window.condition Slide.text
  simp only [h.seconds_eq]

theorem text_gain_eq_iff {factor factor' : Float} (h : SameNumber factor factor') :
    (Filter.gain factor).text = (Filter.gain factor').text ↔ factor = factor' := by
  rw [← h.plain_eq_iff]
  unfold Filter.text
  exact String.append_right_inj _

theorem fadeFilter_congr {length length' : Float} (h : SameNumber length length')
    (direction : FadeDirection) (start : Float → Float) :
    fadeFilter direction (start length) length = fadeFilter direction (start length') length' := by
  cases h with
  | refl => rfl
  | zeros hfirst hsecond =>
      simp [fadeFilter, Quantity.isBelow, Quantity.zero, hfirst.not_pos, hsecond.not_pos]

namespace Clip

variable {first second : Clip Float}

theorem Alike.stop_eq (h : first.Alike second) :
    first.start + first.duration = second.start + first.duration :=
  h.start.add_eq (Bound.not_isZero_of_admits_positive h.lasts)

theorem Alike.layerChain_eq (h : first.Alike second) (canvas : Canvas) :
    (first.layerChain canvas).map Filter.text = (second.layerChain canvas).map Filter.text := by
  have hfade := text_fade_congr h.start .into (rampLength first.duration)
  simp only [layerChain, ramps, ← h.transition, ← h.duration, h.stop_eq]
  cases first.transition <;> simp [hfade]

theorem Alike.overlay_eq (h : first.Alike second) :
    (Filter.overlay first.slide first.window).text =
      (Filter.overlay second.slide second.window).text := by
  simp only [slide, window, Window.ofDuration, ← h.transition, ← h.duration, h.stop_eq]
  cases first.transition with
  | wipe => exact text_slide_congr h.start _ _
  | cut | fade | dissolve => exact text_overlay_congr h.start _

theorem Alike.audioChain_eq_iff (h : first.Alike second) {volume volume' : Float}
    (hvolume : SameNumber volume volume') :
    (first.audioChain volume).map Filter.text = (second.audioChain volume').map Filter.text ↔
      first.volume * volume = second.volume * volume' := by
  have hin := fadeFilter_congr (h.fadeIn.leastFloat first.duration) .into fun _ => 0.0
  have hout := fadeFilter_congr (h.fadeOut.leastFloat first.duration) .out (first.duration - ·)
  simp only [audioChain, Quantity.least, Quantity.zero, Quantity.wholeMillis, ← h.duration,
    ← h.start.wholeMillis_eq, ← hin, ← hout, List.map_append, List.append_cancel_left_eq,
    List.map_cons, List.map_nil, List.cons.injEq, and_true, true_and]
  exact text_gain_eq_iff (h.volume.mul hvolume)

end Clip

namespace Timeline

variable {first second : Timeline} {paths paths' : AssetPaths}

theorem ids_boundAssets (timeline : Timeline) (paths : AssetPaths) :
    (timeline.boundAssets paths).map BoundAsset.id = timeline.boundIds paths := by
  have hids := timeline.map_assetId_bindings paths
  have hassets : (timeline.bindings paths).map Binding.assetId =
      ((timeline.boundAssets paths).map BoundAsset.id).map some := by
    refine List.ext_getElem? fun slot => ?_
    simp [bindings, Function.comp_def]
  exact List.map_injective_iff.mpr (fun _ _ => Option.some.inj) (hassets.symm.trans hids)

theorem slot?_eq_boundIds (timeline : Timeline) (paths : AssetPaths) :
    timeline.slot? paths = fun id => (timeline.boundIds paths).findIdx? (· == id) := by
  funext id
  rw [← ids_boundAssets, List.findIdx?_map]
  rfl

/-- Whether the same assets were found, wherever that was. -/
def SameFound (paths paths' : AssetPaths) : Prop :=
  ∀ id, (paths.get? id).isSome = (paths'.get? id).isSome

namespace Alike

theorem referencedIds_eq (h : first.Alike second) : first.referencedIds = second.referencedIds := by
  rw [referencedIds, referencedIds, map_eq_of_forall₂ h.placements fun _ _ hitem => hitem.2.assetId]

theorem isBound_eq (h : first.Alike second) (hfound : SameFound paths paths') (id : String) :
    first.isBound paths id = second.isBound paths' id := by
  have hdeclared := congrArg Option.isSome (h.kinds id)
  rw [Option.isSome_map, Option.isSome_map] at hdeclared
  rw [isBound, isBound, hdeclared, hfound id]

theorem boundIds_eq (h : first.Alike second) (hfound : SameFound paths paths') :
    first.boundIds paths = second.boundIds paths' := by
  rw [boundIds, boundIds, ← Timeline.referencedIds_eq, ← Timeline.referencedIds_eq,
    h.referencedIds_eq, funext (h.isBound_eq hfound)]

theorem slot?_eq (h : first.Alike second) (hfound : SameFound paths paths') :
    first.slot? paths = second.slot? paths' := by
  rw [slot?_eq_boundIds, slot?_eq_boundIds, h.boundIds_eq hfound]

end Alike

end Timeline

/-! ## Placements -/

structure Placement.Alike (first second : Placement) : Prop where
  slot : first.slot = second.slot
  track : first.track.Alike second.track
  clip : first.clip.Alike second.clip

theorem Placement.Alike.writtenLayer_eq {first second : Placement} (h : first.Alike second)
    (canvas : Canvas) : first.writtenLayer canvas = second.writtenLayer canvas := by
  rw [writtenLayer, writtenLayer, h.clip.layerChain_eq, h.clip.overlay_eq]

def Placement.gain (placement : Placement) : Float :=
  placement.clip.volume * placement.track.volume

theorem Placement.Alike.writtenVoice_eq_iff {first second : Placement} (h : first.Alike second) :
    first.writtenVoice = second.writtenVoice ↔ first.gain = second.gain :=
  h.clip.audioChain_eq_iff h.track.volume

namespace Timeline.Alike

variable {first second : Timeline} {paths paths' : AssetPaths}

theorem forall₂_placed (h : first.Alike second) (hfound : SameFound paths paths')
    (isKept : Track → Bool) (hkept : ∀ track track' : Track, track.Alike track' →
      isKept track = isKept track') :
    List.Forall₂ Placement.Alike (first.placed paths isKept) (second.placed paths' isKept) := by
  refine List.rel_filterMap (R := ItemsAlike) ?_ h.placements
  intro item item' hitem
  rw [Sorting.place?, Sorting.place?, hkept _ _ hitem.1, hitem.2.assetId, h.slot?_eq hfound]
  split
  · cases second.slot? paths' item'.2.assetId with
    | none => exact .none
    | some slot => exact .some ⟨rfl, hitem.1, hitem.2⟩
  · exact .none

end Timeline.Alike

theorem Source.alike_ofMedia_iff {kind : MediaKind} {path path' : String} {duration : Float}
    {rate : Nat} :
    (ofMedia kind path duration rate).Alike (ofMedia kind path' duration rate) ↔ path = path' := by
  constructor
  · cases kind <;> (intro h; cases h; rfl)
  · rintro rfl
    cases kind with
    | image => exact .still path rate rfl
    | video | audio => exact .file path

namespace Timeline

variable {first second : Timeline} {paths paths' : AssetPaths}

def gains (timeline : Timeline) (paths : AssetPaths) : List Float :=
  (timeline.boundClips paths Track.isAudible).map fun item => item.2.volume * item.1.volume

theorem gains_eq_placed (timeline : Timeline) (paths : AssetPaths) :
    timeline.gains paths = (timeline.placed paths Track.isAudible).map Placement.gain := by
  rw [gains, ← map_item_placed, List.map_map]
  rfl

def source? (timeline : Timeline) (paths : AssetPaths) (id : String) : Option Source :=
  (timeline.bound? paths id).map fun asset =>
    .ofMedia asset.kind asset.path timeline.settings.duration timeline.settings.frameRate.perSecond

theorem exists_of_isBound (timeline : Timeline) {id : String}
    (h : timeline.isBound paths id = true) :
    ∃ asset path, timeline.assets.get? id = some asset ∧ paths.get? id = some path := by
  rw [isBound, Bool.and_eq_true, Option.isSome_iff_exists, Option.isSome_iff_exists] at h
  obtain ⟨⟨asset, hasset⟩, path, hpath⟩ := h
  exact ⟨asset, path, hasset, hpath⟩

theorem sources_bindings (timeline : Timeline) (paths : AssetPaths) :
    ((timeline.bindings paths).map Binding.source).map some =
      (timeline.boundIds paths).map (timeline.source? paths) := by
  have hsources := congrArg (List.map (Option.map fun asset => Source.ofMedia asset.kind asset.path
    timeline.settings.duration timeline.settings.frameRate.perSecond))
    (timeline.map_boundAssets paths)
  rw [List.map_map, List.map_map] at hsources
  refine Eq.trans (List.ext_getElem? fun slot => ?_) hsources
  simp [bindings, Function.comp_def]

namespace Alike

theorem inputsAlike_iff (h : first.Alike second) (hfound : SameFound paths paths') :
    Plan.InputsAlike (first.bindings paths) (second.bindings paths') ↔
      ∀ id ∈ first.boundIds paths, paths.get? id = paths'.get? id := by
  have hsources : Plan.InputsAlike (first.bindings paths) (second.bindings paths') ↔
      List.Forall₂ (Option.Rel Source.Alike)
        (((first.bindings paths).map Binding.source).map some)
        (((second.bindings paths').map Binding.source).map some) := by
    simp [Plan.InputsAlike]
  rw [hsources, sources_bindings, sources_bindings, ← h.boundIds_eq hfound,
    List.forall₂_map_left_iff, List.forall₂_map_right_iff, List.forall₂_same]
  refine forall₂_congr fun id hid => ?_
  have hbound := (List.mem_filter.mp hid).2
  obtain ⟨asset, path, hasset, hpath⟩ := first.exists_of_isBound hbound
  obtain ⟨asset', path', hasset', hpath'⟩ :=
    second.exists_of_isBound ((h.isBound_eq hfound id).symm.trans hbound)
  have hkind := h.kinds id
  rw [hasset, hasset', Option.map_some, Option.map_some, Option.some.injEq] at hkind
  simp [source?, bound?, hasset, hasset', hpath, hpath', hkind, h.duration, h.frameRate,
    Source.alike_ofMedia_iff]

/-! ## Plans -/

theorem length_bindings_eq (h : first.Alike second) (hfound : SameFound paths paths') :
    (first.bindings paths).length = (second.bindings paths').length := by
  rw [length_bindings, length_bindings, length_boundAssets, length_boundAssets,
    h.boundIds_eq hfound]

theorem canvas_eq (h : first.Alike second) : first.settings.canvas = second.settings.canvas :=
  congrArg Resolution.canvas h.resolution

theorem writing_filledPlan_iff (h : first.Alike second) (hfound : SameFound paths paths') :
    (first.filledPlan paths).outputs = (second.filledPlan paths').outputs ∧
      (writing (first.filledPlan paths).graph.nodes = writing (second.filledPlan paths').graph.nodes ↔
        first.gains paths = second.gains paths') := by
  have hvisual := h.forall₂_placed hfound Track.isVisual fun track track' htrack => by
    rw [Track.isVisual, Track.isVisual, htrack.kind]
  have haudible := h.forall₂_placed hfound Track.isAudible fun track track' htrack => by
    rw [Track.isAudible, Track.isAudible, htrack.kind, htrack.muted]
  have hlayers := map_eq_of_forall₂ hvisual fun _ _ hplacement =>
    hplacement.writtenLayer_eq first.settings.canvas
  have hvoices := map_eq_iff_of_forall₂ haudible fun _ _ hplacement =>
    hplacement.writtenVoice_eq_iff
  have hvisualSlots : (first.sort paths).visual.map Placement.slot =
      (second.sort paths').visual.map Placement.slot := by
    rw [visual_sort, visual_sort]
    exact map_eq_of_forall₂ hvisual fun _ _ => (·.slot)
  have haudibleSlots : (first.sort paths).audible.map Placement.slot =
      (second.sort paths').audible.map Placement.slot := by
    rw [audible_sort, audible_sort]
    exact map_eq_of_forall₂ haudible fun _ _ => (·.slot)
  obtain ⟨hparallel, htells⟩ := Wiring.tells_ofSorting (first.bindings paths).length h.duration
    h.canvas_eq h.frameRate hvisualSlots haudibleSlots
  rw [visual_sort, visual_sort, audible_sort, audible_sort, hvoices, ← gains_eq_placed,
    ← gains_eq_placed] at htells
  simp only [filledPlan, ← h.length_bindings_eq hfound]
  refine ⟨hparallel.outputs_eq, hparallel.writing_graph_eq_iff.trans (htells.trans ?_)⟩
  rw [and_iff_right hlayers]

theorem gains_eq_nil {timeline : Timeline} (h : timeline.bindings paths = []) :
    timeline.gains paths = [] := by
  rw [gains, timeline.boundClips_eq_nil paths h, List.map_nil]

theorem bindings_eq_nil_iff (h : first.Alike second) (hfound : SameFound paths paths') :
    first.bindings paths = [] ↔ second.bindings paths' = [] := by
  rw [← List.length_eq_zero_iff, ← List.length_eq_zero_iff, h.length_bindings_eq hfound]

theorem text_compile_eq_iff (h : first.Alike second) (hfound : SameFound paths paths') :
    (first.compile paths).graph.text = (second.compile paths').graph.text ↔
      first.gains paths = second.gains paths' := by
  rw [Timeline.text_compile_eq_iff]
  by_cases hempty : first.bindings paths = []
  · have hempty' := (h.bindings_eq_nil_iff hfound).mp hempty
    simp [compile, hempty, hempty', emptyPlan, gains_eq_nil]
  · have hempty' := mt (h.bindings_eq_nil_iff hfound).mpr hempty
    simp only [compile, List.isEmpty_iff, hempty, hempty', if_false]
    exact (h.writing_filledPlan_iff hfound).2

theorem outputs_compile_eq (h : first.Alike second) (hfound : SameFound paths paths') :
    (first.compile paths).outputs = (second.compile paths').outputs := by
  by_cases hempty : first.bindings paths = []
  · have hempty' := (h.bindings_eq_nil_iff hfound).mp hempty
    simp [compile, hempty, hempty', emptyPlan]
  · have hempty' := mt (h.bindings_eq_nil_iff hfound).mpr hempty
    simp only [compile, List.isEmpty_iff, hempty, hempty', if_false]
    exact (h.writing_filledPlan_iff hfound).1

theorem inputsAlike_compile_iff (h : first.Alike second) (hfound : SameFound paths paths') :
    Plan.InputsAlike (first.compile paths).inputs (second.compile paths').inputs ↔
      ∀ id ∈ first.boundIds paths, paths.get? id = paths'.get? id := by
  by_cases hempty : first.bindings paths = []
  · have hempty' := (h.bindings_eq_nil_iff hfound).mp hempty
    have hids := (first.boundIds_eq_nil_iff paths).mpr hempty
    simp [compile, hempty, hempty', emptyPlan, hids, Plan.InputsAlike, h.canvas_eq, h.duration,
      h.frameRate, Source.Alike.color]
  · have hempty' := mt (h.bindings_eq_nil_iff hfound).mpr hempty
    simp only [compile, List.isEmpty_iff, hempty, hempty', if_false]
    exact h.inputsAlike_iff hfound

theorem encoding_compile (timeline : Timeline) (paths : AssetPaths) :
    (timeline.compile paths).encoding = .standard timeline.settings := by
  rw [compile]
  split <;> rfl

theorem encoding_compile_eq (h : first.Alike second) (paths paths' : AssetPaths) :
    (first.compile paths).encoding = (second.compile paths').encoding := by
  simp only [encoding_compile, Encoding.standard, h.duration, h.canvas_eq, h.frameRate]

theorem agrees_iff (h : first.Alike second) (hfound : SameFound paths paths') :
    (first.compile paths).Agrees (second.compile paths') ↔
      first.gains paths = second.gains paths' ∧
        ∀ id ∈ first.boundIds paths, paths.get? id = paths'.get? id := by
  rw [← h.text_compile_eq_iff hfound, ← h.inputsAlike_compile_iff hfound]
  refine ⟨fun hagrees => ⟨hagrees.graph, hagrees.inputs⟩, fun ⟨hgraph, hinputs⟩ => ?_⟩
  have houtputs := h.outputs_compile_eq hfound
  have hencoding := h.encoding_compile_eq paths paths'
  exact {
    inputs := hinputs
    graph := hgraph
    video := by rw [houtputs]
    audio := by rw [houtputs]
    videoCodec := by rw [Plan.videoCodecArguments, Plan.videoCodecArguments, hencoding]
    audioCodec := by rw [Plan.audioCodecArguments, Plan.audioCodecArguments, hencoding, houtputs]
    duration := by rw [hencoding] }

end Alike

/-- Timelines that are compared equal, with the same assets found, are told to the engine in the
same words if the clips that are heard have the same gains and their assets lie at the same
paths, and only then. -/
theorem arguments_compile_eq_iff_of_beq (hequal : (first == second) = true)
    (hvalid : first.validate = .ok ()) (hfound : SameFound paths paths') :
    ((first.compile paths).graph.text = (second.compile paths').graph.text ↔
        first.gains paths = second.gains paths') ∧
      (∀ output output', (first.compile paths).arguments output =
          (second.compile paths').arguments output' ↔
        output = output' ∧ first.gains paths = second.gains paths' ∧
          ∀ id ∈ first.boundIds paths, paths.get? id = paths'.get? id) ∧
      (first.gains paths = second.gains paths' →
        (∀ id ∈ first.boundIds paths, paths.get? id = paths'.get? id) →
        (first.compile paths).fingerprint = (second.compile paths').fingerprint) := by
  have h := alike_of_beq hequal hvalid
  have harguments (output output' : String) :
      (first.compile paths).arguments output = (second.compile paths').arguments output' ↔
        output = output' ∧ first.gains paths = second.gains paths' ∧
          ∀ id ∈ first.boundIds paths, paths.get? id = paths'.get? id := by
    rw [Plan.arguments_eq_iff, h.agrees_iff hfound]
  refine ⟨h.text_compile_eq_iff hfound, harguments, fun hgains hpaths => ?_⟩
  rw [Plan.fingerprint, Plan.fingerprint, (harguments "" "").mpr ⟨rfl, hgains, hpaths⟩]

def solo (start volume : Float) : Timeline where
  tracks := [⟨"t", .audio, "", [⟨"c", "a", "t", start, 1.0, volume, 0.0, 0.0, .cut⟩], false, 1.0⟩]
  settings := .default "x" 1.0
  assets := Table.empty.insert "a" (.plain .audio "a.mp3")

def soloPaths : AssetPaths := Table.empty.insert "a" "/a.mp3"

theorem arguments_compile_eq_iff_of_beq_solo :
    (solo 0.0 1.0 == solo (-0.0) 1.0) = true ∧ (solo 0.0 1.0).validate = .ok () ∧
      SameFound soloPaths soloPaths ∧
      ((solo 0.0 1.0).compile soloPaths).graph.text =
        ((solo (-0.0) 1.0).compile soloPaths).graph.text ∧
      ((solo 0.0 1.0).compile soloPaths).arguments "o" =
        ((solo (-0.0) 1.0).compile soloPaths).arguments "o" ∧
      ((solo 0.0 1.0).compile soloPaths).fingerprint =
        ((solo (-0.0) 1.0).compile soloPaths).fingerprint := by
  have hequal : (solo 0.0 1.0 == solo (-0.0) 1.0) = true := by decide
  have hvalid : (solo 0.0 1.0).validate = .ok () := by rfl
  have hgains : (solo 0.0 1.0).gains soloPaths = (solo (-0.0) 1.0).gains soloPaths := by rfl
  have hfound : SameFound soloPaths soloPaths := fun _ => rfl
  obtain ⟨htext, harguments, hfingerprint⟩ :=
    arguments_compile_eq_iff_of_beq hequal hvalid hfound
  exact ⟨hequal, hvalid, hfound, htext.mpr hgains,
    (harguments "o" "o").mpr ⟨rfl, hgains, fun _ _ => rfl⟩, hfingerprint hgains fun _ _ => rfl⟩

theorem text_compile_ne_solo :
    (solo 0.0 0.0 == solo 0.0 (-0.0)) = true ∧ (solo 0.0 0.0).validate = .ok () ∧
      (solo 0.0 (-0.0)).validate = .ok () ∧
      ((solo 0.0 0.0).compile soloPaths).graph.text ≠
        ((solo 0.0 (-0.0)).compile soloPaths).graph.text ∧
      ((solo 0.0 0.0).compile soloPaths).arguments "o" ≠
        ((solo 0.0 (-0.0)).compile soloPaths).arguments "o" ∧
      ((solo 0.0 0.0).compile soloPaths).fingerprint ≠
        ((solo 0.0 (-0.0)).compile soloPaths).fingerprint :=
  ⟨by decide, by rfl, by rfl, by decide +kernel, by decide +kernel, by decide +kernel⟩

end Timeline

end Compositor
