import Compositor.Proofs.Compile.Counts
import Compositor.Proofs.Compile.Essence
import Compositor.Proofs.Compile.Inputs

/-!
# Clips without an asset leave no trace

A timeline from which the clips without a bound asset are taken away has the
plan of the whole one, down to its labels.  Only the count of such clips tells
that they were there.
-/

namespace Compositor

theorem eraseDups_filter {α : Type} [BEq α] [LawfulBEq α] (keep : α → Bool) :
    ∀ items : List α, (items.filter keep).eraseDups = items.eraseDups.filter keep
  | [] => rfl
  | item :: items => by
      have hrest := eraseDups_filter keep (items.filter fun other => !other == item)
      rw [List.filter_filter] at hrest
      cases hkeep : keep item with
      | true =>
          rw [List.filter_cons_of_pos hkeep, List.eraseDups_cons, List.eraseDups_cons,
            List.filter_cons_of_pos hkeep, ← hrest, List.filter_filter]
          simp only [Bool.and_comm]
      | false =>
          have hsame : (items.filter fun other => keep other && !other == item) =
              items.filter keep := by
            refine List.filter_congr fun other _ => ?_
            cases hother : keep other with
            | false => rfl
            | true =>
                have hne : other ≠ item := by
                  intro heq
                  rw [heq, hkeep] at hother
                  cases hother
                simp [hne]
          rw [List.filter_cons_of_neg (by simp [hkeep]), List.eraseDups_cons,
            List.filter_cons_of_neg (by simp [hkeep]), ← hrest, hsame]
termination_by items => items.length
decreasing_by
  have hlength := List.length_filter_le (fun other => !other == item) items
  simp only [List.length_cons]
  omega

namespace Timeline

variable (timeline : Timeline) (paths : AssetPaths)

/-- Without the clips whose asset is not declared or was not found. -/
def pruned : Timeline :=
  { timeline with
    tracks := timeline.tracks.map fun track =>
      { track with clips := track.clips.filter fun clip => timeline.isBound paths clip.assetId } }

theorem clipIds_pruned :
    (timeline.pruned paths).clipIds = timeline.clipIds.filter (timeline.isBound paths) := by
  simp [clipIds, pruned, List.flatMap_map, List.filter_flatMap, List.filter_map,
    Function.comp_def]

theorem clips_essence_pruned :
    (timeline.pruned paths).essence.clips =
      timeline.essence.clips.filter fun clip => timeline.isBound paths clip.assetId := by
  simp [essence, placements, pruned, List.flatMap_map, List.filter_flatMap, List.filter_map,
    List.map_flatMap, Function.comp_def, clipEssence, isImage?, ClipRole.of]

theorem boundAssets_pruned :
    (timeline.pruned paths).boundAssets paths = timeline.boundAssets paths := by
  have hbound : ∀ id, (if timeline.isBound paths id = true then timeline.bound? paths id
      else none) = timeline.bound? paths id := by
    intro id
    rw [← isSome_bound?]
    cases timeline.bound? paths id <;> rfl
  have hsame : (timeline.pruned paths).bound? paths = timeline.bound? paths := rfl
  rw [boundAssets, boundAssets, referencedIds_eq, referencedIds_eq, clipIds_pruned,
    eraseDups_filter, List.filterMap_filter, hsame]
  exact List.filterMap_congr fun id _ => hbound id

theorem bindings_pruned : (timeline.pruned paths).bindings paths = timeline.bindings paths := by
  rw [bindings, bindings, boundAssets_pruned]
  rfl

theorem slot?_pruned : (timeline.pruned paths).slot? paths = timeline.slot? paths := by
  funext id
  rw [slot?, slot?, boundAssets_pruned]

theorem slot?_eq_none {id : String} (h : timeline.isBound paths id = false) :
    timeline.slot? paths id = none := by
  refine List.findIdx?_eq_none_iff.mpr fun asset hasset => ?_
  obtain ⟨other, -, hother⟩ := List.mem_filterMap.mp hasset
  have hid := timeline.bound?_eq_some paths hother
  have hbound := timeline.isSome_bound? paths other
  rw [hother, Option.isSome_some] at hbound
  simp only [beq_eq_false_iff_ne]
  rintro rfl
  rw [hid, ← hbound] at h
  cases h

theorem filterMap_essence_pruned {α : Type} {make : ClipEssence → Option α}
    (hmake : ∀ clip, timeline.slot? paths clip.assetId = none → make clip = none) :
    (timeline.pruned paths).essence.clips.filterMap make =
      timeline.essence.clips.filterMap make := by
  rw [clips_essence_pruned, List.filterMap_filter]
  refine List.filterMap_congr fun clip _ => ?_
  cases hbound : timeline.isBound paths clip.assetId with
  | true => rfl
  | false => exact (hmake clip (timeline.slot?_eq_none paths hbound)).symm

theorem layers_pruned (canvas : Canvas) :
    ((timeline.pruned paths).sort paths).visual.map (Placement.layer canvas) =
      (timeline.sort paths).visual.map (Placement.layer canvas) := by
  rw [visual_sort, visual_sort, layers_placed, layers_placed, slot?_pruned]
  apply filterMap_essence_pruned
  intro clip hslot
  simp [Sorting.place?, hslot]

theorem voices_pruned :
    ((timeline.pruned paths).sort paths).audible.map Placement.voice =
      (timeline.sort paths).audible.map Placement.voice := by
  rw [audible_sort, audible_sort, voices_placed, voices_placed, slot?_pruned]
  apply filterMap_essence_pruned
  intro clip hslot
  simp [Sorting.place?, hslot]

theorem muted_pruned :
    ((timeline.pruned paths).sort paths).muted = (timeline.sort paths).muted := by
  rw [muted_sort_eq_essence, muted_sort_eq_essence, slot?_pruned, clips_essence_pruned,
    List.countP_filter]
  refine List.countP_congr fun clip _ => ?_
  cases hbound : timeline.isBound paths clip.assetId with
  | true => simp
  | false => simp [Sorting.isSilenced, timeline.slot?_eq_none paths hbound]

theorem countUnbound_eq_essence :
    timeline.countUnbound paths =
      timeline.essence.clips.countP fun clip => !timeline.isBound paths clip.assetId := by
  rw [countUnbound, essence, List.countP_map]
  rfl

theorem countUnbound_pruned : (timeline.pruned paths).countUnbound paths = 0 := by
  rw [countUnbound_eq_essence, clips_essence_pruned, List.countP_eq_zero]
  intro clip hclip
  have hbound := (List.mem_filter.mp hclip).2
  have hsame : (timeline.pruned paths).isBound paths = timeline.isBound paths := rfl
  simp [hsame, hbound]

theorem clipCount_pruned :
    timeline.clipCount = (timeline.pruned paths).clipCount + timeline.countUnbound paths := by
  rw [clipCount_eq_essence, clipCount_eq_essence, countUnbound_eq_essence, clips_essence_pruned,
    ← List.countP_eq_length_filter,
    List.length_eq_countP_add_countP fun clip => timeline.isBound paths clip.assetId]
  simp

end Timeline

def Plan.recounted (plan : Plan) (unbound : Nat) : Plan :=
  { plan with counts := { plan.counts with unboundClips := unbound } }

@[simp] theorem Plan.arguments_recounted (plan : Plan) (unbound : Nat) (output : String) :
    (plan.recounted unbound).arguments output = plan.arguments output := rfl

@[simp] theorem Plan.fingerprint_recounted (plan : Plan) (unbound : Nat) :
    (plan.recounted unbound).fingerprint = plan.fingerprint := rfl

namespace Timeline

variable (timeline : Timeline) (paths : AssetPaths)

theorem emptyPlan_pruned :
    timeline.emptyPlan = (timeline.pruned paths).emptyPlan.recounted timeline.clipCount := rfl

theorem filledPlan_pruned :
    timeline.filledPlan paths =
      ((timeline.pruned paths).filledPlan paths).recounted (timeline.countUnbound paths) := by
  have hwiring (inputs : Nat) :
      Wiring.ofSorting (timeline.pruned paths).settings inputs ((timeline.pruned paths).sort paths) =
        Wiring.ofSorting timeline.settings inputs (timeline.sort paths) :=
    ofSorting_congr rfl rfl rfl (timeline.layers_pruned paths _) (timeline.voices_pruned paths) inputs
  have hlayers : ((timeline.pruned paths).sort paths).visual.length =
      (timeline.sort paths).visual.length := by
    simpa using congrArg List.length (timeline.layers_pruned paths timeline.settings.canvas)
  simp only [filledPlan, Plan.recounted, bindings_pruned, hwiring, hlayers, muted_pruned,
    unbound_sort_eq_countUnbound]
  rfl

theorem recounted_compile_pruned :
    timeline.compile paths =
      ((timeline.pruned paths).compile paths).recounted (timeline.countUnbound paths) := by
  rw [compile, compile, bindings_pruned]
  split
  · rename_i hempty
    have hcount := (counted_emptyPlan (List.isEmpty_iff.mp hempty)).unboundClips
    rw [← hcount]
    exact timeline.emptyPlan_pruned paths
  · exact timeline.filledPlan_pruned paths

/-- Clips whose asset is not bound are counted and leave no other trace. -/
theorem compile_pruned :
    let plan := timeline.compile paths
    let kept := (timeline.pruned paths).compile paths
    plan = { kept with counts := { kept.counts with unboundClips := plan.counts.unboundClips } } ∧
      kept.counts.unboundClips = 0 ∧
      timeline.clipCount = (timeline.pruned paths).clipCount + plan.counts.unboundClips ∧
      plan.graph.text = kept.graph.text ∧
      (∀ output, plan.arguments output = kept.arguments output) ∧
      plan.fingerprint = kept.fingerprint := by
  have hplan := timeline.recounted_compile_pruned paths
  have hcount := (counted_compile timeline paths).unboundClips
  refine ⟨?_, ?_, ?_, ?_, ?_, ?_⟩
  · rw [hcount]
    exact hplan
  · rw [(counted_compile (timeline.pruned paths) paths).unboundClips, countUnbound_pruned]
  · rw [hcount]
    exact timeline.clipCount_pruned paths
  · rw [hplan]
    rfl
  · intro output
    rw [hplan, Plan.arguments_recounted]
  · rw [hplan, Plan.fingerprint_recounted]

end Timeline

end Compositor
