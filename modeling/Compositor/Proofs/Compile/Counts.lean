import Compositor.Proofs.Compile.Picture
import Compositor.Proofs.Compile.Sound

/-!
# What becomes of each clip

A clip whose asset is not bound is counted as such.  Each other clip is laid over
the picture, mixed into the sound, or counted as muted, and the counts of a plan
tell how many clips there are of each sort.
-/

namespace Compositor

namespace Timeline

variable (timeline : Timeline) (paths : AssetPaths)

def countBound (isKept : Track → Bool) : Nat :=
  timeline.placements.countP fun item =>
    isKept item.1 && timeline.isBound paths item.2.assetId

def countUnbound : Nat :=
  timeline.placements.countP fun item => !timeline.isBound paths item.2.assetId

variable {timeline paths}

theorem assetId_mem_referencedIds {item : Track × Clip Float} (h : item ∈ timeline.placements) :
    item.2.assetId ∈ timeline.referencedIds :=
  List.mem_eraseDups.mpr (List.mem_map_of_mem (f := fun item => item.2.assetId) h)

theorem countBound_eq_slots (isKept : Track → Bool) :
    timeline.countBound paths isKept =
      timeline.placements.countP fun item =>
        isKept item.1 && (timeline.slot? paths item.2.assetId).isSome := by
  refine List.countP_congr fun item hitem => ?_
  rw [timeline.isSome_slot? paths (assetId_mem_referencedIds hitem)]

theorem length_placed (isKept : Track → Bool) :
    (timeline.placed paths isKept).length = timeline.countBound paths isKept := by
  rw [placed, List.length_filterMap_eq_countP, countBound_eq_slots]
  refine List.countP_congr fun item _ => ?_
  cases hkept : isKept item.1 <;> simp [Sorting.place?, hkept]

theorem unbound_sort_eq_countUnbound :
    (timeline.sort paths).unbound = timeline.countUnbound paths := by
  rw [unbound_sort]
  refine List.countP_congr fun item hitem => ?_
  rw [Sorting.isUnbound, ← Option.not_isSome,
    timeline.isSome_slot? paths (assetId_mem_referencedIds hitem)]

theorem muted_sort_eq_countBound :
    (timeline.sort paths).muted = timeline.countBound paths Track.isMuted := by
  rw [muted_sort, countBound_eq_slots]
  rfl

/-- Of each sort the plan counts the clips that the timeline has. -/
structure Counted (timeline : Timeline) (paths : AssetPaths) (counts : Counts) : Prop where
  overlays : counts.overlays = timeline.countBound paths Track.isVisual
  audioStreams : counts.audioStreams = timeline.countBound paths Track.isAudible
  mutedClips : counts.mutedClips = timeline.countBound paths Track.isMuted
  unboundClips : counts.unboundClips = timeline.countUnbound paths

theorem counted_emptyPlan (h : timeline.bindings paths = []) :
    timeline.Counted paths timeline.emptyPlan.counts := by
  have hunbound := (timeline.bindings_eq_nil_iff paths).mp h
  have hnone : ∀ isKept, timeline.countBound paths isKept = 0 := by
    intro isKept
    refine List.countP_eq_zero.mpr fun item hitem => ?_
    simp [hunbound _ (assetId_mem_referencedIds hitem)]
  have hall : timeline.countUnbound paths = timeline.clipCount := by
    rw [← length_placements]
    refine List.countP_eq_length.mpr fun item hitem => ?_
    simp [hunbound _ (assetId_mem_referencedIds hitem)]
  exact ⟨(hnone _).symm, (hnone _).symm, (hnone _).symm, hall.symm⟩

theorem counted_filledPlan : timeline.Counted paths (timeline.filledPlan paths).counts where
  overlays := by
    rw [← length_placed, ← visual_sort]
    rfl
  audioStreams := by
    rw [← length_placed, ← audible_sort]
    exact Wiring.length_voices_ofSorting _ _ _
  mutedClips := muted_sort_eq_countBound
  unboundClips := unbound_sort_eq_countUnbound

theorem counted_compile (timeline : Timeline) (paths : AssetPaths) :
    timeline.Counted paths (timeline.compile paths).counts := by
  unfold compile
  split
  · rename_i h
    exact counted_emptyPlan (List.isEmpty_iff.mp h)
  · exact counted_filledPlan

theorem isVisual_or_isAudible_or_isMuted (track : Track) :
    track.isVisual = true ∨ track.isAudible = true ∨ track.isMuted = true := by
  cases hkind : track.kind.isVisual <;> cases hmuted : track.muted <;>
    simp [Track.isVisual, Track.isAudible, Track.isMuted, hkind, hmuted]

end Timeline

def Plan.Reads (plan : Plan) (placement : Placement) (item : Track × Clip Float) : Prop :=
  placement.item = item ∧
    (plan.binding? item.2.assetId).map Binding.slot = some placement.slot

def Plan.Overlays (plan : Plan) (settings : Settings) (item : Track × Clip Float) : Prop :=
  ∃ visual : List Placement,
    plan.graph.signal? (.link plan.outputs.video) = some (.picture settings visual) ∧
    ∃ placement ∈ visual, plan.Reads placement item

def Plan.Mixes (plan : Plan) (item : Track × Clip Float) : Prop :=
  ∃ (label : Label) (audible : List Placement), plan.outputs.audio = some label ∧
    plan.graph.signal? (.link label) = some (.sound audible) ∧
    ∃ placement ∈ audible, plan.Reads placement item

namespace Timeline

variable {timeline : Timeline} {paths : AssetPaths} {item : Track × Clip Float}

theorem mem_boundClips {isKept : Track → Bool} (hitem : item ∈ timeline.placements)
    (hkept : isKept item.1 = true) (hbound : timeline.isBound paths item.2.assetId = true) :
    item ∈ timeline.boundClips paths isKept := by
  obtain ⟨track, htrack, hmem⟩ := List.mem_flatMap.mp hitem
  obtain ⟨clip, hclip, rfl⟩ := List.mem_map.mp hmem
  exact List.mem_flatMap.mpr ⟨track, List.mem_filter.mpr ⟨htrack, hkept⟩,
    List.mem_map_of_mem (List.mem_filter.mpr ⟨hclip, hbound⟩)⟩

theorem exists_placed_reads {isKept : Track → Bool}
    (h : item ∈ timeline.boundClips paths isKept) :
    ∃ placement ∈ timeline.placed paths isKept,
      (timeline.filledPlan paths).Reads placement item := by
  rw [← map_item_placed] at h
  obtain ⟨placement, hplacement, rfl⟩ := List.mem_map.mp h
  exact ⟨placement, hplacement, rfl,
    (timeline.places_placed paths isKept).slots placement hplacement⟩

theorem overlays_or_mixes_or_muted (hitem : item ∈ timeline.placements)
    (hbound : timeline.isBound paths item.2.assetId = true) :
    (timeline.compile paths).Overlays timeline.settings item ∨
      (timeline.compile paths).Mixes item ∨ item.1.kind = .audio ∧ item.1.muted = true := by
  rw [timeline.compile_of_isBound paths (assetId_mem_referencedIds hitem) hbound]
  rcases isVisual_or_isAudible_or_isMuted item.1 with hvisual | haudible | hmuted
  · exact Or.inl ⟨_, timeline.picture_filledPlan paths,
      exists_placed_reads (mem_boundClips hitem hvisual hbound)⟩
  · have hclip := mem_boundClips hitem haudible hbound
    have hsome := List.ne_nil_of_mem hclip
    refine Or.inr (Or.inl ⟨Edge.mix.label, _, ?_, timeline.sound_filledPlan paths hsome,
      exists_placed_reads hclip⟩)
    rw [audio_filledPlan, if_neg hsome]
  · refine Or.inr (Or.inr ?_)
    simp only [Track.isMuted, Bool.and_eq_true, Bool.not_eq_true'] at hmuted
    obtain ⟨hkind, hmuted⟩ := hmuted
    refine ⟨?_, hmuted⟩
    cases hkind' : item.1.kind <;> simp [hkind', MediaKind.isVisual] at hkind ⊢

end Timeline

end Compositor
