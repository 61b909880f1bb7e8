import Compositor.Proofs.Compile.Inputs
import Compositor.Proofs.Compile.Wiring
import Compositor.Proofs.Timeline.Ranges

/-!
# Numbers of compiled plans

A plan is told to the engine in numbers that come from the timeline: times and
gains of the clips, and what is computed of them.  They are all finite, and all
divisors different from zero, unless the end of a clip or the gain of a voice
overflows, or a clip that slides in is as short as can be.
-/

namespace Compositor

open Decimal

def Slide.numbers : Slide Float → List Float
  | .fixed => []
  | .slideIn start duration => [start, duration]

/-- By which the time is divided while a layer slides in. -/
def Slide.divisors : Slide Float → List Float
  | .fixed => []
  | .slideIn _ duration => [duration]

namespace Filter

def numbers : Filter Float → List Float
  | .color _ _ duration _ => [duration]
  | .fade _ start duration | .audioFade _ start duration => [start, duration]
  | .overlay slide window => slide.numbers ++ [window.start, window.stop]
  | .audioTrim stop => [stop]
  | .gain factor => [factor]
  | .scaleCover _ | .centerCrop _ | .squarePixels | .format _ | .split _ | .audioSplit _
  | .audioRestart | .audioDelay _ | .audioMix _ => []

def divisors : Filter Float → List Float
  | .overlay slide _ => slide.divisors
  | _ => []

end Filter

def Source.numbers : Source → List Float
  | .file _ => []
  | .still _ duration _ | .color _ _ duration _ => [duration]

def filters (nodes : List Node) : List (Filter Float) := nodes.flatMap Node.chain

namespace Plan

def numbers (plan : Plan) : List Float :=
  plan.inputs.flatMap (fun binding => binding.source.numbers) ++
    (filters plan.graph.nodes).flatMap Filter.numbers ++ [plan.encoding.duration]

def divisors (plan : Plan) : List Float := (filters plan.graph.nodes).flatMap Filter.divisors

/-- All that the engine computes with can be computed with. -/
structure Sound (plan : Plan) : Prop where
  finite : ∀ number ∈ plan.numbers, number.isFinite = true
  divisible : ∀ divisor ∈ plan.divisors, ¬ IsZero divisor

end Plan

def Placement.layerFilters (canvas : Canvas) (placement : Placement) : List (Filter Float) :=
  placement.clip.layerChain canvas ++ [.overlay placement.clip.slide placement.clip.window]

def Placement.voiceFilters (placement : Placement) : List (Filter Float) :=
  placement.clip.audioChain placement.track.volume

namespace Wiring

variable (wiring : Wiring)

theorem filters_addLayers (canvas : Canvas) (visual : List Placement) :
    filters (wiring.addLayers canvas visual).nodes =
      filters wiring.nodes ++ visual.flatMap (Placement.layerFilters canvas) := by
  induction visual using List.reverseRecOn with
  | nil => simp
  | append_singleton visual placement ih =>
      rw [addLayers_concat]
      simp only [addLayer, filters, List.flatMap_append] at ih ⊢
      rw [ih]
      simp [layerNode, overlayNode, Placement.layerFilters]

theorem filters_addVoices (audible : List Placement) :
    filters (wiring.addVoices audible).nodes =
      filters wiring.nodes ++ audible.flatMap Placement.voiceFilters := by
  induction audible using List.reverseRecOn with
  | nil => simp
  | append_singleton audible placement ih =>
      rw [addVoices_concat]
      simp only [addVoice, filters, List.flatMap_append] at ih ⊢
      rw [ih]
      simp [voiceNode, Placement.voiceFilters]

theorem forall_filters_append {holds : Filter Float → Prop} (nodes more : List Node) :
    (∀ filter ∈ filters (nodes ++ more), holds filter) ↔
      (∀ filter ∈ filters nodes, holds filter) ∧ ∀ filter ∈ filters more, holds filter := by
  rw [filters, List.flatMap_append, List.forall_mem_append]
  rfl

theorem forall_filters_graph (holds : Filter Float → Prop)
    (hsplit : ∀ count, holds (.split count) ∧ holds (.audioSplit count))
    (hmix : ∀ count, holds (.audioMix count)) (hformat : holds (.format outputPixels))
    (settings : Settings) (inputs : Nat) (sorting : Sorting) :
    (∀ filter ∈ filters (ofSorting settings inputs sorting).graph.nodes, holds filter) ↔
      holds (.color baseColor settings.canvas settings.duration settings.frameRate.perSecond) ∧
      (∀ placement ∈ sorting.visual, ∀ filter ∈ placement.layerFilters settings.canvas,
        holds filter) ∧
      ∀ placement ∈ sorting.audible, ∀ filter ∈ placement.voiceFilters, holds filter := by
  have hsplits : ∀ filter ∈ filters (splitNodes inputs sorting.uses), holds filter := by
    intro filter hfilter
    obtain ⟨node, hnode, hchain⟩ := List.mem_flatMap.mp hfilter
    obtain ⟨⟨slot, stream⟩, -, rfl⟩ := List.mem_map.mp hnode
    rw [List.mem_singleton.mp hchain]
    cases stream
    · exact (hsplit _).1
    · exact (hsplit _).2
  have hmixes : ∀ filter ∈ filters (ofSorting settings inputs sorting).mixNodes, holds filter := by
    unfold mixNodes
    split
    · simp [filters]
    · simpa [filters, mixNode] using hmix _
  have hfinal : ∀ filter ∈ filters [finalNode (.link (ofSorting settings inputs sorting).picture)],
      holds filter := by
    simpa [filters, finalNode] using hformat
  have hbase : (∀ filter ∈ filters [baseNode settings], holds filter) ↔ holds (.color baseColor
      settings.canvas settings.duration settings.frameRate.perSecond) := by
    simp [filters, baseNode]
  rw [graph, forall_filters_append, forall_filters_append, and_iff_left hfinal, and_iff_left hmixes,
    ofSorting, filters_addVoices, filters_addLayers, List.forall_mem_append, List.forall_mem_append,
    start, forall_filters_append, and_iff_right hsplits, hbase, and_assoc]
  simp only [List.forall_mem_flatMap]

end Wiring

/-! ## Sound filters -/

structure Filter.Sound (filter : Filter Float) : Prop where
  finite : ∀ number ∈ filter.numbers, number.isFinite = true
  divisible : ∀ divisor ∈ filter.divisors, ¬ IsZero divisor

theorem Plan.sound_iff {plan : Plan} :
    plan.Sound ↔ (∀ binding ∈ plan.inputs, ∀ number ∈ binding.source.numbers,
        number.isFinite = true) ∧
      (∀ filter ∈ filters plan.graph.nodes, filter.Sound) ∧
      plan.encoding.duration.isFinite = true := by
  constructor
  · rintro ⟨hfinite, hdivisible⟩
    simp only [numbers, List.forall_mem_append, List.forall_mem_flatMap, List.forall_mem_singleton]
      at hfinite
    simp only [divisors, List.forall_mem_flatMap] at hdivisible
    exact ⟨hfinite.1.1, fun filter hfilter => ⟨hfinite.1.2 filter hfilter,
      hdivisible filter hfilter⟩, hfinite.2⟩
  · rintro ⟨hinputs, hfilters, hduration⟩
    constructor
    · simp only [numbers, List.forall_mem_append, List.forall_mem_flatMap,
        List.forall_mem_singleton]
      exact ⟨⟨hinputs, fun filter hfilter => (hfilters filter hfilter).finite⟩, hduration⟩
    · simp only [divisors, List.forall_mem_flatMap]
      exact fun filter hfilter => (hfilters filter hfilter).divisible

theorem rampLength_smallest : rampLength Bound.smallest = 0.0 := by decide +kernel

theorem positive_rampLength {duration : Float} (h : Bound.positive.admits duration = true)
    (hlarge : duration ≠ Bound.smallest) : Bound.positive.admits (rampLength duration) = true := by
  have hhalf : Bound.positive.admits (0.5 : Float) = true := by decide
  have hlength : rampLength duration = leastFloat 0.5 (duration / 2.0) := rfl
  rw [hlength]
  exact Bound.admits_leastFloat hhalf (Bound.admits_halve h hlarge)

theorem isZero_rampLength_iff {duration : Float} (h : Bound.positive.admits duration = true) :
    IsZero (rampLength duration) ↔ duration = Bound.smallest := by
  constructor
  · intro hzero
    by_contra hlarge
    exact Bound.not_isZero_of_admits_positive (positive_rampLength h hlarge) hzero
  · rintro rfl
    exact .inl rampLength_smallest

theorem admits_rampLength {duration : Float} (h : Bound.positive.admits duration = true) :
    Bound.notNegative.admits (rampLength duration) = true := by
  rw [Bound.admits_notNegative_iff, isZero_rampLength_iff h]
  by_cases hsmall : duration = Bound.smallest
  · exact .inl hsmall
  · exact .inr (positive_rampLength h hsmall)

namespace Filter

theorem sound_of_numbers {filter : Filter Float} (hdivisors : filter.divisors = [])
    (hnumbers : ∀ number ∈ filter.numbers, number.isFinite = true) : filter.Sound :=
  ⟨hnumbers, by simp [hdivisors]⟩

theorem sound_of_nil {filter : Filter Float} (hnumbers : filter.numbers = [])
    (hdivisors : filter.divisors = []) : filter.Sound :=
  sound_of_numbers hdivisors (by simp [hnumbers])

theorem sound_fade {direction : FadeDirection} {start duration : Float}
    (hstart : start.isFinite = true) (hduration : duration.isFinite = true) :
    (Filter.fade direction start duration).Sound :=
  sound_of_numbers rfl (by simp [numbers, hstart, hduration])

theorem sound_audioFade {direction : FadeDirection} {start duration : Float}
    (hstart : start.isFinite = true) (hduration : duration.isFinite = true) :
    (Filter.audioFade direction start duration).Sound :=
  sound_of_numbers rfl (by simp [numbers, hstart, hduration])

end Filter

namespace Clip.Measured

variable {clip : Clip Float}

theorem sound_ramps (h : clip.Measured) (hstop : (clip.start + clip.duration).isFinite = true) :
    ∀ filter ∈ clip.ramps, filter.Sound := by
  have hramp := admits_rampLength h.duration
  have hend := Bound.isFinite_sub (Bound.admits_add h.start h.duration hstop) hramp
  have hlength := Bound.isFinite_of_admits hramp
  have hramps : ∀ filter ∈ [.format alphaPixels, .fade .into clip.start (rampLength clip.duration),
      .fade .out (clip.start + clip.duration - rampLength clip.duration)
        (rampLength clip.duration)], Filter.Sound filter := by
    simp only [List.forall_mem_cons]
    exact ⟨Filter.sound_of_nil rfl rfl,
      Filter.sound_fade (Bound.isFinite_of_admits h.start) hlength,
      Filter.sound_fade hend hlength, by simp⟩
  unfold ramps
  cases clip.transition with
  | fade | dissolve => exact hramps
  | cut | wipe => simp

theorem sound_overlay_iff (h : clip.Measured) :
    (Filter.overlay clip.slide clip.window).Sound ↔
      (clip.start + clip.duration).isFinite = true ∧
        (clip.transition = .wipe → clip.duration ≠ Bound.smallest) := by
  have hstart := Bound.isFinite_of_admits h.start
  have hramp := Bound.isFinite_of_admits (admits_rampLength h.duration)
  have hzero := isZero_rampLength_iff h.duration
  constructor
  · rintro ⟨hfinite, hdivisible⟩
    refine ⟨hfinite _ ?_, fun htransition hsmall => hdivisible _ ?_ (hzero.mpr hsmall)⟩
    · simp [Filter.numbers, window, Window.ofDuration]
    · simp [Filter.divisors, slide, htransition, Slide.divisors]
  · rintro ⟨hstop, hsmall⟩
    constructor
    · cases htransition : clip.transition <;>
        simp [Filter.numbers, slide, htransition, Slide.numbers, window, Window.ofDuration, hstart,
          hramp, hstop]
    · cases htransition : clip.transition with
      | wipe => simp [Filter.divisors, slide, htransition, Slide.divisors, hzero, hsmall htransition]
      | cut | fade | dissolve => simp [Filter.divisors, slide, htransition, Slide.divisors]

theorem sound_fadeFilter {direction : FadeDirection} {start length : Float}
    (hstart : start.isFinite = true) (hlength : length.isFinite = true) :
    ∀ filter ∈ fadeFilter direction start length, filter.Sound := by
  unfold fadeFilter
  split
  · simpa using Filter.sound_audioFade hstart hlength
  · simp

theorem sound_audioChain_iff (h : clip.Measured) {trackVolume : Float} :
    (∀ filter ∈ clip.audioChain trackVolume, filter.Sound) ↔
      (clip.volume * trackVolume).isFinite = true := by
  have hduration := Bound.admits_notNegative_of_positive h.duration
  have hin := Bound.admits_leastFloat h.fadeIn hduration
  have hout := Bound.admits_leastFloat h.fadeOut hduration
  have htrim : (Filter.audioTrim clip.duration).Sound :=
    Filter.sound_of_numbers rfl (by simp [Filter.numbers, Bound.isFinite_of_admits h.duration])
  have hgain : (Filter.gain (clip.volume * trackVolume)).Sound ↔
      (clip.volume * trackVolume).isFinite = true :=
    ⟨fun hsound => hsound.finite _ (by simp [Filter.numbers]),
      fun hfinite => Filter.sound_of_numbers rfl (by simp [Filter.numbers, hfinite])⟩
  have hfadeIn : ∀ filter ∈ fadeFilter .into 0.0 (leastFloat clip.fadeIn clip.duration),
      Filter.Sound filter :=
    sound_fadeFilter (by decide) (Bound.isFinite_of_admits hin)
  have hfadeOut : ∀ filter ∈ fadeFilter .out
      (clip.duration - leastFloat clip.fadeOut clip.duration)
      (leastFloat clip.fadeOut clip.duration), Filter.Sound filter :=
    sound_fadeFilter (Bound.isFinite_sub hduration hout) (Bound.isFinite_of_admits hout)
  simp only [audioChain, List.forall_mem_append, List.forall_mem_cons]
  rw [hgain]
  constructor
  · rintro ⟨-, -, hfinite, -⟩
    exact hfinite
  · intro hfinite
    have hrestart : Filter.Sound .audioRestart := Filter.sound_of_nil rfl rfl
    have hdelay : (Filter.audioDelay (Quantity.wholeMillis clip.start)).Sound :=
      Filter.sound_of_nil rfl rfl
    exact ⟨⟨⟨⟨htrim, hrestart, by simp⟩, hfadeIn⟩, hfadeOut⟩, hdelay, hfinite, by simp⟩

theorem sound_layerFilters_iff (h : clip.Measured) {placement : Placement}
    (hclip : placement.clip = clip) (canvas : Canvas) :
    (∀ filter ∈ placement.layerFilters canvas, filter.Sound) ↔
      (clip.start + clip.duration).isFinite = true ∧
        (clip.transition = .wipe → clip.duration ≠ Bound.smallest) := by
  rw [Placement.layerFilters, hclip, layerChain, List.forall_mem_append, List.forall_mem_append,
    List.forall_mem_singleton, h.sound_overlay_iff]
  constructor
  · exact fun hsound => hsound.2
  · intro hsound
    have hfit : ∀ filter ∈ [.scaleCover canvas, .centerCrop canvas, .squarePixels],
        Filter.Sound filter := by
      simp only [List.forall_mem_cons]
      exact ⟨Filter.sound_of_nil rfl rfl, Filter.sound_of_nil rfl rfl, Filter.sound_of_nil rfl rfl,
        by simp⟩
    exact ⟨⟨hfit, h.sound_ramps hsound.1⟩, hsound⟩

end Clip.Measured

/-! ## Plans -/

namespace Timeline

variable {timeline : Timeline} {paths : AssetPaths}

/-- Whether the numbers that are computed for the clips of a timeline can be computed with. -/
structure Tame (timeline : Timeline) (paths : AssetPaths) : Prop where
  stop : ∀ item ∈ timeline.boundClips paths Track.isVisual,
    (item.2.start + item.2.duration).isFinite = true
  slide : ∀ item ∈ timeline.boundClips paths Track.isVisual,
    item.2.transition = .wipe → item.2.duration ≠ Bound.smallest
  gain : ∀ item ∈ timeline.boundClips paths Track.isAudible,
    (item.2.volume * item.1.volume).isFinite = true

theorem finite_sources (hduration : timeline.settings.duration.isFinite = true) :
    ∀ binding ∈ timeline.bindings paths, ∀ number ∈ binding.source.numbers,
      number.isFinite = true := by
  intro binding hbinding
  obtain ⟨slot, hslot, rfl⟩ := List.mem_mapIdx.mp hbinding
  cases (timeline.boundAssets paths)[slot].kind <;>
    simp [Source.ofMedia, Source.numbers, hduration]

theorem sound_filledPlan_iff (hvalid : timeline.validate = .ok ()) :
    (timeline.filledPlan paths).Sound ↔ timeline.Tame paths := by
  have hduration := Bound.isFinite_of_admits (validate_eq_ok_iff.mp hvalid).1
  have hcolor : (Filter.color baseColor timeline.settings.canvas timeline.settings.duration
      timeline.settings.frameRate.perSecond).Sound :=
    Filter.sound_of_numbers rfl (by simp [Filter.numbers, hduration])
  have hgraph := Wiring.forall_filters_graph Filter.Sound
    (fun _ => ⟨Filter.sound_of_nil rfl rfl, Filter.sound_of_nil rfl rfl⟩)
    (fun _ => Filter.sound_of_nil rfl rfl) (Filter.sound_of_nil rfl rfl)
    timeline.settings (timeline.bindings paths).length (timeline.sort paths)
  rw [Plan.sound_iff]
  change (∀ binding ∈ timeline.bindings paths, _) ∧ (∀ filter ∈ filters (Wiring.ofSorting _ _
    (timeline.sort paths)).graph.nodes, _) ∧ timeline.settings.duration.isFinite = true ↔ _
  rw [hgraph, and_iff_right (finite_sources hduration), and_iff_right hcolor, visual_sort,
    audible_sort, and_iff_left hduration]
  have hvisual : (∀ placement ∈ timeline.placed paths Track.isVisual,
      ∀ filter ∈ placement.layerFilters timeline.settings.canvas, filter.Sound) ↔
      ∀ item ∈ timeline.boundClips paths Track.isVisual,
        (item.2.start + item.2.duration).isFinite = true ∧
          (item.2.transition = .wipe → item.2.duration ≠ Bound.smallest) := by
    rw [← map_item_placed, List.forall_mem_map]
    exact forall₂_congr fun placement hplacement =>
      (measured_of_validate hvalid (timeline.mem_placements_of_placed paths hplacement)).sound_layerFilters_iff rfl _
  have haudible : (∀ placement ∈ timeline.placed paths Track.isAudible,
      ∀ filter ∈ placement.voiceFilters, filter.Sound) ↔
      ∀ item ∈ timeline.boundClips paths Track.isAudible,
        (item.2.volume * item.1.volume).isFinite = true := by
    rw [← map_item_placed, List.forall_mem_map]
    exact forall₂_congr fun placement hplacement =>
      (measured_of_validate hvalid (timeline.mem_placements_of_placed paths hplacement)).sound_audioChain_iff
  rw [hvisual, haudible]
  exact ⟨fun h => ⟨fun item hitem => (h.1 item hitem).1, fun item hitem => (h.1 item hitem).2, h.2⟩,
    fun h => ⟨fun item hitem => ⟨h.stop item hitem, h.slide item hitem⟩, h.gain⟩⟩

/-- The plan of a timeline that passes the check is sound just if no end of a visible clip and no
gain overflows, and no clip that slides in is as short as can be. -/
theorem sound_compile_iff (hvalid : timeline.validate = .ok ()) :
    (timeline.compile paths).Sound ↔ timeline.Tame paths := by
  by_cases hempty : timeline.bindings paths = []
  · have hduration := Bound.isFinite_of_admits (validate_eq_ok_iff.mp hvalid).1
    refine iff_of_true ?_ ⟨?_, ?_, ?_⟩
    · rw [compile, hempty, Plan.sound_iff]
      refine ⟨?_, ?_, hduration⟩
      · simpa [emptyPlan, Source.numbers] using hduration
      · have hformat : (Filter.format outputPixels).Sound := Filter.sound_of_nil rfl rfl
        simpa [emptyPlan, filters, finalNode] using hformat
    all_goals simp [timeline.boundClips_eq_nil paths hempty]
  · simp only [compile, List.isEmpty_iff, hempty, if_false]
    exact sound_filledPlan_iff hvalid

def sliding (start duration volume : Float) : Timeline where
  tracks :=
    [⟨"t", .video, "", [⟨"c", "a", "t", start, duration, 1.0, 0.0, 0.0, .wipe⟩], false, 1.0⟩,
      ⟨"u", .audio, "", [⟨"d", "a", "u", 0.0, 2.0, volume, 0.5, 0.5, .cut⟩], false, 1e200⟩]
  settings := .default "x" 2.0
  assets := Table.empty.insert "a" (.plain .video "a.mp4")

def slidingPaths : AssetPaths := Table.empty.insert "a" "/a.mp4"

theorem sound_compile_iff_sliding :
    (sliding 1.0 1.0 0.5).validate = .ok () ∧ (sliding 1.0 1.0 0.5).Tame slidingPaths ∧
      ((sliding 1.0 1.0 0.5).compile slidingPaths).Sound := by
  have hvalid : (sliding 1.0 1.0 0.5).validate = .ok () := validate_of_isNone (by decide +kernel)
  have htame : (sliding 1.0 1.0 0.5).Tame slidingPaths :=
    ⟨by decide +kernel, by decide +kernel, by decide +kernel⟩
  exact ⟨hvalid, htame, (sound_compile_iff hvalid).mpr htame⟩

theorem not_sound_sliding :
    ((sliding 1.0 5e-324 0.5).validate = .ok () ∧
      ∃ divisor ∈ ((sliding 1.0 5e-324 0.5).compile slidingPaths).divisors, IsZero divisor) ∧
    ((sliding 1.7e308 1.7e308 0.5).validate = .ok () ∧
      ∃ number ∈ ((sliding 1.7e308 1.7e308 0.5).compile slidingPaths).numbers,
        number.isFinite = false) ∧
    ((sliding 1.0 1.0 1e200).validate = .ok () ∧
      ∃ number ∈ ((sliding 1.0 1.0 1e200).compile slidingPaths).numbers,
        number.isFinite = false) :=
  ⟨⟨validate_of_isNone (by decide +kernel), by decide +kernel⟩,
    ⟨validate_of_isNone (by decide +kernel), by decide +kernel⟩,
    ⟨validate_of_isNone (by decide +kernel), by decide +kernel⟩⟩

end Timeline

end Compositor
