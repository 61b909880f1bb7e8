import Compositor.Proofs.Compile.Feeding
import Compositor.Proofs.Compile.Linear

/-!
# The sound of a compiled graph

Followed back from its output, the sound is one mix of the audible clips whose
assets are bound, in the order in which they are declared, each read from the
input of its own asset.  Without such a clip there is no sound.
-/

namespace Compositor

namespace Signal

def voice (placement : Placement) : Signal :=
  let clip := placement.clip
  let fadeIn := leastFloat clip.fadeIn clip.duration
  let fadeOut := leastFloat clip.fadeOut clip.duration
  .filtered ([.audioTrim clip.duration, .audioRestart] ++
      (if 0.0 < fadeIn then [.audioFade .into 0.0 fadeIn] else []) ++
      (if 0.0 < fadeOut then [.audioFade .out (clip.duration - fadeOut) fadeOut] else []) ++
      [.audioDelay (nearestWord (clip.start * 1000.0)),
        .gain (clip.volume * placement.track.volume)])
    [.source placement.slot .audio]

def sound (audible : List Placement) : Signal :=
  .filtered [.audioMix audible.length] (audible.map voice)

end Signal

theorem voice_eq (placement : Placement) :
    Signal.voice placement =
      .filtered (placement.clip.audioChain placement.track.volume)
        [.source placement.slot .audio] := by
  simp only [Signal.voice, Clip.audioChain, fadeFilter, Quantity.isBelow, Quantity.zero,
    Quantity.least, Quantity.wholeMillis, decide_eq_true_eq]

namespace Wiring

theorem carries_addVoice {wiring : Wiring} (hfeeds : wiring.fanout.Feeds wiring.nodes)
    (placement : Placement) (index : Nat)
    (hnodup : (produced (wiring.addVoice (placement, index)).nodes).Nodup) :
    Carries (wiring.addVoice (placement, index)).nodes (.link (Edge.voice index).label)
      (.voice placement) := by
  rw [voice_eq]
  exact .concat hnodup (.cons (hfeeds.carries_take _) .nil) (by simp [voiceNode])

theorem carries_addVoices {wiring : Wiring} (hsilent : wiring.voices = [])
    (hfeeds : wiring.fanout.Feeds wiring.nodes) (audible : List Placement)
    (hnodup : (produced (wiring.addVoices audible).nodes).Nodup) :
    List.Forall₂ (Carries (wiring.addVoices audible).nodes)
      ((wiring.addVoices audible).voices.map .link) (audible.map Signal.voice) := by
  induction audible using List.reverseRecOn with
  | nil => simp [hsilent]
  | append_singleton audible placement ih =>
      have hlast := feeds_addVoices hfeeds audible
      rw [addVoices_concat] at hnodup ⊢
      have hbefore : (produced (wiring.addVoices audible).nodes).Nodup := by
        rw [produced_addVoice] at hnodup
        exact (List.nodup_append'.mp hnodup).1
      have hvoice := carries_addVoice hlast placement audible.length hnodup
      simp only [List.map_append, addVoice]
      exact List.rel_append ((ih hbefore).imp fun _ _ h => h.append) (.cons hvoice .nil)

theorem length_voices_ofSorting (settings : Settings) (inputs : Nat) (sorting : Sorting) :
    (ofSorting settings inputs sorting).voices.length = sorting.audible.length := by
  simp [voices_ofSorting, voiceEdges]

theorem carries_graph_sound {wiring : Wiring} {audible : List Placement}
    (hvoices : wiring.voices ≠ []) (hlength : wiring.voices.length = audible.length)
    (h : List.Forall₂ (Carries wiring.nodes) (wiring.voices.map .link)
      (audible.map Signal.voice))
    (hnodup : (produced wiring.graph.nodes).Nodup) :
    Carries wiring.graph.nodes (.link Edge.mix.label) (.sound audible) := by
  rw [graph_of_voices_ne_nil hvoices] at hnodup ⊢
  rw [produced_append] at hnodup
  rw [Signal.sound, ← hlength]
  have hmix : Carries (wiring.nodes ++ [mixNode wiring.voices]) (.link Edge.mix.label)
      ((mixNode wiring.voices).signal (audible.map Signal.voice)) :=
    .concat (List.nodup_append'.mp hnodup).1 h (by simp [mixNode])
  exact hmix.append

end Wiring

namespace Timeline

variable (timeline : Timeline) (paths : AssetPaths)

theorem audio_filledPlan :
    (timeline.filledPlan paths).outputs.audio =
      if timeline.boundClips paths Track.isAudible = [] then none else some Edge.mix.label := by
  have hlength := Wiring.length_voices_ofSorting timeline.settings
    (timeline.bindings paths).length (timeline.sort paths)
  rw [audible_sort, ← List.length_map Placement.item, map_item_placed] at hlength
  simp only [filledPlan, Wiring.outputs, List.isEmpty_iff, ← List.length_eq_zero_iff, hlength]

theorem sound_filledPlan (h : timeline.boundClips paths Track.isAudible ≠ []) :
    (timeline.filledPlan paths).graph.signal? (.link Edge.mix.label) =
      some (.sound (timeline.placed paths Track.isAudible)) := by
  have hslots : ∀ source ∈ (timeline.sort paths).uses,
      source.slot < (timeline.bindings paths).length := fun _ =>
    timeline.slot_lt_of_mem_uses paths
  have hfeeds := Wiring.feeds_addLayers (Wiring.feeds_start timeline.settings
    (timeline.bindings paths).length (timeline.sort paths).uses hslots) timeline.settings.canvas
    (timeline.sort paths).visual
  have hvoices := Wiring.carries_addVoices (by rw [Wiring.voices_addLayers]; rfl) hfeeds
    (timeline.sort paths).audible (Wiring.nodup_addVoices _ _ _ _ _ _)
  have hlength := Wiring.length_voices_ofSorting timeline.settings
    (timeline.bindings paths).length (timeline.sort paths)
  rw [← audible_sort]
  refine Wiring.carries_graph_sound ?_ hlength hvoices (timeline.nodup_filledPlan paths)
  rw [← List.length_pos_iff, hlength, audible_sort, ← List.length_map Placement.item,
    map_item_placed]
  exact List.length_pos_iff.mpr h

/-- The sound is the mix of the audible clips whose assets are bound, if there are any. -/
theorem sound_compile :
    ((timeline.compile paths).outputs.audio = none ↔
      ∀ track ∈ timeline.tracks, track.kind = .audio → track.muted = false →
        ∀ clip ∈ track.clips, timeline.isBound paths clip.assetId = false) ∧
    ((timeline.compile paths).outputs.audio = none ∨
      ∃ (label : Label) (audible : List Placement),
        (timeline.compile paths).outputs.audio = some label ∧
        (timeline.compile paths).Places (timeline.boundClips paths Track.isAudible) audible ∧
        (timeline.compile paths).graph.signal? (.link label) = some (.sound audible)) := by
  have hsilent : (∀ track ∈ timeline.tracks, track.kind = .audio → track.muted = false →
        ∀ clip ∈ track.clips, timeline.isBound paths clip.assetId = false) ↔
      timeline.boundClips paths Track.isAudible = [] := by
    rw [boundClips_eq_nil_iff]
    refine forall₂_congr fun track _ => ?_
    rw [Track.isAudible]
    cases track.kind <;> cases track.muted <;> simp [MediaKind.isVisual]
  rw [hsilent, compile]
  split
  · rename_i hempty
    have hunbound := (timeline.bindings_eq_nil_iff paths).mp (List.isEmpty_iff.mp hempty)
    refine ⟨iff_of_true rfl ?_, .inl rfl⟩
    exact (timeline.boundClips_eq_nil_iff paths).mpr fun track htrack _ clip hclip =>
      hunbound _ (timeline.mem_referencedIds htrack hclip)
  · rw [audio_filledPlan]
    by_cases hclips : timeline.boundClips paths Track.isAudible = []
    · simp [hclips]
    · simp only [hclips, if_false, reduceCtorEq, false_or, true_and]
      exact ⟨_, _, rfl, timeline.places_placed paths Track.isAudible,
        timeline.sound_filledPlan paths hclips⟩

end Timeline

end Compositor
