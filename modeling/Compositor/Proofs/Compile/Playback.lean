import Compositor.Proofs.Compile.Picture
import Compositor.Proofs.Compile.Sound
import Compositor.Proofs.Plan.Playback
import Compositor.Proofs.Timeline.Ranges

/-!
# When clips are presented

A voice presents the head of its source from the start of its clip on.  A layer
presents each second of its source at that very second, so that a clip that
starts later is not presented from its head, and runs ahead of its own sound.
-/

namespace Compositor

open Decimal

theorem prompt_of_mem_layerChain {canvas : Canvas} {clip : Clip Float} {filter : Filter Float}
    (h : filter ∈ clip.layerChain canvas) : filter.Prompt := by
  cases htransition : clip.transition <;>
    simp only [Clip.layerChain, Clip.ramps, htransition, List.mem_append, List.mem_cons,
      List.not_mem_nil, or_false] at h <;>
    rcases h with (rfl | rfl | rfl) | (rfl | rfl | rfl) <;> exact fun _ => rfl

theorem prompt_of_mem_fadeFilter {direction : FadeDirection} {start length : Float}
    {filter : Filter Float} (h : filter ∈ fadeFilter direction start length) : filter.Prompt := by
  unfold fadeFilter at h
  split at h
  · rw [List.mem_singleton.mp h]
    exact fun _ => rfl
  · cases h

def Clip.placed (clip : Clip Float) : Playback :=
  (Playback.whole.trim (value clip.duration)).restart.delay (Quantity.wholeMillis clip.start / 1000)

theorem foldl_play_audioChain (clip : Clip Float) (trackVolume : Float) :
    (clip.audioChain trackVolume).foldl Filter.play .whole = clip.placed := by
  simp only [Clip.audioChain, List.foldl_append]
  rw [foldl_play_of_prompt (fun _ => prompt_of_mem_fadeFilter),
    foldl_play_of_prompt (fun _ => prompt_of_mem_fadeFilter)]
  rfl

namespace Signal

theorem ingredients_layer (canvas : Canvas) (clip : Clip Float) (slot : Nat) :
    (layer canvas clip slot).ingredients = [⟨⟨slot, .video⟩, .whole⟩] := by
  rw [layer_eq, ingredients_filtered_of_prompt fun _ => prompt_of_mem_layerChain]
  rfl

theorem ingredients_stack (settings : Settings) (visual : List Placement) :
    (stack settings visual).ingredients =
      visual.map fun placement => ⟨⟨placement.slot, .video⟩, .whole⟩ := by
  -- From the end, since the last layer is the outermost overlay.
  induction visual using List.reverseRecOn with
  | nil => rfl
  | append_singleton visual placement ih =>
      have hoverlay : ∀ filter ∈ [Filter.overlay placement.clip.slide placement.clip.window],
          filter.Prompt := by
        simp [Filter.Prompt, Filter.play]
      rw [stack, List.foldl_append, List.foldl_cons, List.foldl_nil, ← stack, overlaid_eq,
        ingredients_filtered_of_prompt hoverlay]
      simp [ih, ingredients_layer]

theorem ingredients_picture (settings : Settings) (visual : List Placement) :
    (picture settings visual).ingredients =
      visual.map fun placement => ⟨⟨placement.slot, .video⟩, .whole⟩ := by
  have hformat : ∀ filter ∈ [Filter.format "yuv420p"], filter.Prompt := by
    simp [Filter.Prompt, Filter.play]
  rw [picture, ingredients_filtered_of_prompt hformat]
  simp [ingredients_stack]

theorem ingredients_voice (placement : Placement) :
    (voice placement).ingredients = [⟨⟨placement.slot, .audio⟩, placement.clip.placed⟩] := by
  rw [voice_eq, ingredients, allIngredients_eq]
  simp [ingredients, Ingredient.through, foldl_play_audioChain]

theorem ingredients_sound (audible : List Placement) :
    (sound audible).ingredients =
      audible.map fun placement => ⟨⟨placement.slot, .audio⟩, placement.clip.placed⟩ := by
  have hmix : ∀ filter ∈ [Filter.audioMix audible.length], filter.Prompt := by
    simp [Filter.Prompt, Filter.play]
  rw [sound, ingredients_filtered_of_prompt hmix, List.flatMap_map]
  simp [ingredients_voice, List.map_eq_flatMap]

end Signal

namespace Timeline

variable {timeline : Timeline} {paths : AssetPaths}

theorem strand?_filledPlan {isKept : Track → Bool} {placement : Placement}
    (h : placement ∈ timeline.placed paths isKept) (stream : Stream) (playback : Playback) :
    (timeline.filledPlan paths).strand? ⟨⟨placement.slot, stream⟩, playback⟩ =
      some ⟨placement.clip.assetId, stream, playback⟩ := by
  have hslot := timeline.slot?_of_mem_placed paths h
  obtain ⟨source, hinput⟩ := timeline.exists_input_of_slot? paths hslot
  have hinput' : (timeline.filledPlan paths).inputs[placement.slot]? =
    some ⟨placement.slot, some placement.clip.assetId, source⟩ := hinput
  simp [Plan.strand?, hinput']

theorem filterMap_strand? {isKept : Track → Bool} (stream : Stream)
    (playback : Clip Float → Playback) :
    ((timeline.placed paths isKept).map fun placement =>
        Ingredient.mk ⟨placement.slot, stream⟩ (playback placement.clip)).filterMap
          (timeline.filledPlan paths).strand? =
      (timeline.boundClips paths isKept).map fun item =>
        ⟨item.2.assetId, stream, playback item.2⟩ := by
  rw [← map_item_placed, List.map_map, List.filterMap_map, ← List.filterMap_eq_map]
  exact List.filterMap_congr fun placement hplacement => strand?_filledPlan hplacement _ _

theorem video_strands_filledPlan :
    (timeline.filledPlan paths).strands (some (timeline.filledPlan paths).outputs.video) =
      (timeline.boundClips paths Track.isVisual).map fun item =>
        ⟨item.2.assetId, .video, .whole⟩ := by
  rw [Plan.strands, Option.bind_some, picture_filledPlan]
  simp only [Signal.ingredients_picture]
  exact filterMap_strand? .video fun _ => .whole

theorem audio_strands_filledPlan :
    (timeline.filledPlan paths).strands (timeline.filledPlan paths).outputs.audio =
      (timeline.boundClips paths Track.isAudible).map fun item =>
        ⟨item.2.assetId, .audio, item.2.placed⟩ := by
  rw [audio_filledPlan]
  split
  · rename_i hsilent
    rw [hsilent]
    rfl
  · rename_i hsound
    rw [Plan.strands, Option.bind_some, sound_filledPlan _ _ hsound]
    simp only [Signal.ingredients_sound]
    exact filterMap_strand? .audio Clip.placed

theorem video_strands_compile :
    (timeline.compile paths).strands (some (timeline.compile paths).outputs.video) =
      (timeline.boundClips paths Track.isVisual).map fun item =>
        ⟨item.2.assetId, .video, .whole⟩ := by
  by_cases hempty : timeline.bindings paths = []
  · rw [timeline.boundClips_eq_nil paths hempty]
    simp only [compile, hempty]
    rfl
  · simp only [compile, List.isEmpty_iff, hempty, if_false]
    exact video_strands_filledPlan

theorem audio_strands_compile :
    (timeline.compile paths).strands (timeline.compile paths).outputs.audio =
      (timeline.boundClips paths Track.isAudible).map fun item =>
        ⟨item.2.assetId, .audio, item.2.placed⟩ := by
  by_cases hempty : timeline.bindings paths = []
  · rw [timeline.boundClips_eq_nil paths hempty]
    simp only [compile, hempty]
    rfl
  · simp only [compile, List.isEmpty_iff, hempty, if_false]
    exact audio_strands_filledPlan

end Timeline

def Clip.Spans (clip : Clip Float) (second : ℚ) : Prop :=
  value clip.start ≤ second ∧ second < value clip.start + value clip.duration

/-- Each second of the source is presented at that second of the project, which is the head of
the source only for a clip that starts with the project. -/
structure Clip.Shown (clip : Clip Float) (strand : Strand) : Prop where
  assetId_eq : strand.assetId = clip.assetId
  stream_eq : strand.stream = .video
  secondAt?_eq : ∀ second, clip.Spans second → strand.playback.secondAt? second = some second
  isInPlace_iff : ∀ second, clip.Spans second →
    (strand.playback.secondAt? second = some (second - value clip.start) ↔ value clip.start = 0)

/-- The source is presented from its head, for as long as the clip lasts, from the whole
millisecond on that is nearest to the start of the clip. -/
structure Clip.Heard (clip : Clip Float) (strand : Strand) : Prop where
  assetId_eq : strand.assetId = clip.assetId
  stream_eq : strand.stream = .audio
  secondAt?_eq : ∃ delay : ℚ,
    |delay - min (value clip.start) longestDelay| ≤ 1 / 2000 + value clip.start / 2 ^ 53 ∧
    ∀ second, strand.playback.secondAt? second =
      if delay ≤ second ∧ second < delay + value clip.duration then some (second - delay)
      else none

namespace Clip.Measured

variable {clip : Clip Float}

theorem shown (h : clip.Measured) : clip.Shown ⟨clip.assetId, .video, .whole⟩ := by
  have hstart := Bound.value_nonneg h.start
  have hsecond (second : ℚ) (hspans : clip.Spans second) :
      Playback.whole.secondAt? second = some second :=
    Playback.secondAt?_whole (hstart.trans hspans.1)
  refine ⟨rfl, rfl, hsecond, fun second hspans => ?_⟩
  rw [hsecond second hspans, Option.some.injEq, eq_comm, sub_eq_self]

theorem heard (h : clip.Measured) : clip.Heard ⟨clip.assetId, .audio, clip.placed⟩ :=
  ⟨rfl, rfl, _, Bound.wholeMillis_near h.start, Playback.secondAt?_placed _ _⟩

end Clip.Measured

def Clip.Ahead (clip : Clip Float) (picture sound : Strand) : Prop :=
  ∀ second seen heard, clip.Spans second → picture.playback.secondAt? second = some seen →
    sound.playback.secondAt? second = some heard →
    |seen - heard - min (value clip.start) longestDelay| ≤ 1 / 2000 + value clip.start / 2 ^ 53

theorem Clip.Shown.ahead {clip clip' : Clip Float} {picture sound : Strand}
    (h : clip.Shown picture) (h' : clip'.Heard sound) (hstart : clip.start = clip'.start) :
    clip.Ahead picture sound := by
  intro second seen heard hspans hseen hheard
  obtain ⟨delay, hnear, hsecond⟩ := h'.secondAt?_eq
  rw [h.secondAt?_eq second hspans, Option.some.injEq] at hseen
  rw [hsecond, Option.ite_none_right_eq_some, Option.some.injEq] at hheard
  rw [← hseen, ← hheard.2, sub_sub_cancel, hstart]
  exact hnear

namespace Timeline

variable {timeline : Timeline} {paths : AssetPaths}

theorem measured_of_bound (hvalid : timeline.validate = .ok ()) {isKept : Track → Bool}
    {item : Track × Clip Float} (h : item ∈ timeline.boundClips paths isKept) :
    item.2.Measured := by
  rw [← map_item_placed] at h
  obtain ⟨placement, hplacement, rfl⟩ := List.mem_map.mp h
  exact measured_of_validate hvalid (timeline.mem_placements_of_placed paths hplacement)

theorem shown_compile (hvalid : timeline.validate = .ok ()) (paths : AssetPaths) :
    List.Forall₂ (fun item strand => item.2.Shown strand)
      (timeline.boundClips paths Track.isVisual)
      ((timeline.compile paths).strands (some (timeline.compile paths).outputs.video)) := by
  rw [video_strands_compile, List.forall₂_map_right_iff, List.forall₂_same]
  exact fun item hitem => (measured_of_bound hvalid hitem).shown

theorem heard_compile (hvalid : timeline.validate = .ok ()) (paths : AssetPaths) :
    List.Forall₂ (fun item strand => item.2.Heard strand)
      (timeline.boundClips paths Track.isAudible)
      ((timeline.compile paths).strands (timeline.compile paths).outputs.audio) := by
  rw [audio_strands_compile, List.forall₂_map_right_iff, List.forall₂_same]
  exact fun item hitem => (measured_of_bound hvalid hitem).heard

/-- Each visual clip is shown at the seconds of its source; each audible clip is heard from its
head on, in its place, so that a picture that starts later is ahead of its own sound. -/
theorem presented_compile (hvalid : timeline.validate = .ok ()) :
    List.Forall₂ (fun item strand => item.2.Shown strand)
        (timeline.boundClips paths Track.isVisual)
        ((timeline.compile paths).strands (some (timeline.compile paths).outputs.video)) ∧
      List.Forall₂ (fun item strand => item.2.Heard strand)
        (timeline.boundClips paths Track.isAudible)
        ((timeline.compile paths).strands (timeline.compile paths).outputs.audio) ∧
      ∀ item picture item' sound,
        (item, picture) ∈ (timeline.boundClips paths Track.isVisual).zip
          ((timeline.compile paths).strands (some (timeline.compile paths).outputs.video)) →
        (item', sound) ∈ (timeline.boundClips paths Track.isAudible).zip
          ((timeline.compile paths).strands (timeline.compile paths).outputs.audio) →
        item.2.start = item'.2.start → item.2.Ahead picture sound := by
  have hshown := shown_compile hvalid paths
  have hheard := heard_compile hvalid paths
  refine ⟨hshown, hheard, fun item picture item' sound hpicture hsound hstart => ?_⟩
  exact ((List.forall₂_iff_zip.mp hshown).2 hpicture).ahead
    ((List.forall₂_iff_zip.mp hheard).2 hsound) hstart

def talkie (start : Float) : Timeline where
  tracks :=
    [⟨"t", .video, "", [⟨"c", "a", "t", start, 2.0, 1.0, 0.0, 0.0, .cut⟩], false, 1.0⟩,
      ⟨"u", .audio, "", [⟨"d", "a", "u", start, 2.0, 1.0, 0.0, 0.0, .cut⟩], false, 1.0⟩]
  settings := .default "x" 8.0
  assets := Table.empty.insert "a" (.plain .video "a.mp4")

def talkiePaths : AssetPaths := Table.empty.insert "a" "/a.mp4"

theorem presented_compile_talkie :
    (talkie 5.0).validate = .ok () ∧ ∃ item picture item' sound,
      (talkie 5.0).boundClips talkiePaths Track.isVisual = [item] ∧
      ((talkie 5.0).compile talkiePaths).strands
        (some ((talkie 5.0).compile talkiePaths).outputs.video) = [picture] ∧
      (talkie 5.0).boundClips talkiePaths Track.isAudible = [item'] ∧
      ((talkie 5.0).compile talkiePaths).strands
        ((talkie 5.0).compile talkiePaths).outputs.audio = [sound] ∧
      item.2.Shown picture ∧ item'.2.Heard sound ∧ item.2.Ahead picture sound := by
  have hvalid : (talkie 5.0).validate = .ok () := validate_of_isNone (by decide +kernel)
  obtain ⟨hshown, hheard, hahead⟩ := @presented_compile _ talkiePaths hvalid
  refine ⟨hvalid, _, _, _, _, rfl, video_strands_compile, rfl, audio_strands_compile, ?_⟩
  rw [video_strands_compile] at hshown hahead
  rw [audio_strands_compile] at hheard hahead
  refine ⟨(List.forall₂_cons.mp hshown).1, (List.forall₂_cons.mp hheard).1, ?_⟩
  exact hahead _ _ _ _ (.head _) (.head _) rfl

/-- When the clip starts, its sound is at the head, but its picture is not. -/
theorem secondAt?_compile_talkie :
    (talkie 5.0).validate = .ok () ∧ value 5.0 = 5 ∧ ∃ shown heard,
      ((talkie 5.0).compile talkiePaths).strands
        (some ((talkie 5.0).compile talkiePaths).outputs.video) = [⟨"a", .video, shown⟩] ∧
      ((talkie 5.0).compile talkiePaths).strands
        ((talkie 5.0).compile talkiePaths).outputs.audio = [⟨"a", .audio, heard⟩] ∧
      shown.secondAt? 5 = some 5 ∧ heard.secondAt? 5 = some 0 := by
  have hunpack : (5.0 : Float).toModel.unpack = .finite .positive (5 * 2 ^ 50) (-50) (by decide) :=
    rfl
  have hfive : value 5.0 = 5 := by
    rw [value_of_unpack hunpack]
    norm_num
  have htwo : value 2.0 = 2 := by
    rw [value_of_unpack unpack_two]
    norm_num
  have hmillis : Quantity.wholeMillis (5.0 : Float) = 5000 := by decide
  refine ⟨validate_of_isNone (by decide +kernel), hfive, _, _, video_strands_compile,
    audio_strands_compile, Playback.secondAt?_whole (by norm_num), ?_⟩
  rw [Clip.placed, Playback.secondAt?_placed]
  norm_num [hmillis, htwo]

end Timeline

end Compositor
