import Compositor.Timeline.Check

/-!
# Timelines that pass the check

A timeline passes just if its duration, the volume of each track and each clip
on its track are as they should be.
-/

namespace Compositor

namespace Timeline

variable {timeline : Timeline}

/-- What is asked of a clip on a track. -/
structure Admits (timeline : Timeline) (track : Track) (clip : Clip Float) : Prop where
  asset : ∃ asset, timeline.assets.get? clip.assetId = some asset ∧
    track.kind.accepts asset.kind = true
  track : timeline.hasTrack clip.trackId = true
  ranges : ∀ measure ∈ clip.measures, measure.isAdmitted = true

theorem problem?_measure_eq_none_iff {subject : String} {measure : Measure Float} :
    measure.problem? subject = none ↔ measure.isAdmitted = true := by
  cases h : measure.isAdmitted <;> simp [Measure.problem?, h]

theorem clipProblem?_eq_none_iff {track : Track} {clip : Clip Float} :
    timeline.clipProblem? track clip = none ↔ timeline.Admits track clip := by
  have hranges : rangeProblem? clip = none ↔
      ∀ measure ∈ clip.measures, measure.isAdmitted = true := by
    simp only [rangeProblem?, List.findSome?_eq_none_iff, problem?_measure_eq_none_iff]
  have hreference : timeline.referenceProblem? clip = none ↔
      timeline.hasTrack clip.trackId = true := by
    cases h : timeline.hasTrack clip.trackId <;> simp [referenceProblem?, h]
  cases hasset : timeline.assets.get? clip.assetId with
  | none =>
      refine iff_of_false (by simp [clipProblem?, hasset]) fun h => ?_
      obtain ⟨asset, hsome, -⟩ := h.asset
      rw [hasset] at hsome
      cases hsome
  | some asset =>
      have hkind : kindProblem? track clip asset = none ↔
          track.kind.accepts asset.kind = true := by
        cases h : track.kind.accepts asset.kind <;> simp [kindProblem?, h]
      simp only [clipProblem?, hasset, Option.or_eq_none_iff, hranges, hreference, hkind]
      constructor
      · rintro ⟨htrack, hmeasures, haccepts⟩
        exact ⟨⟨asset, hasset, haccepts⟩, htrack, hmeasures⟩
      · rintro ⟨⟨other, hother, haccepts⟩, htrack, hmeasures⟩
        rw [hasset, Option.some.injEq] at hother
        subst hother
        exact ⟨htrack, hmeasures, haccepts⟩

theorem validate_of_isNone (h : timeline.problem?.isNone = true) : timeline.validate = .ok () := by
  rw [validate, Option.isNone_iff_eq_none.mp h]

theorem validate_eq_ok_iff :
    timeline.validate = .ok () ↔
      Bound.positive.admits timeline.settings.duration = true ∧
      ∀ track ∈ timeline.tracks, Bound.notNegative.admits track.volume = true ∧
        ∀ clip ∈ track.clips, timeline.Admits track clip := by
  have hproblem : timeline.validate = .ok () ↔ timeline.problem? = none := by
    unfold validate
    cases timeline.problem? <;> simp
  simp only [hproblem, problem?, durationProblem?, trackProblem?, Option.or_eq_none_iff,
    List.findSome?_eq_none_iff, problem?_measure_eq_none_iff, clipProblem?_eq_none_iff,
    Measure.isAdmitted]

theorem admits_of_validate (hvalid : timeline.validate = .ok ()) {item : Track × Clip Float}
    (hitem : item ∈ timeline.placements) : timeline.Admits item.1 item.2 := by
  obtain ⟨track, htrack, hmem⟩ := List.mem_flatMap.mp hitem
  obtain ⟨clip, hclip, rfl⟩ := List.mem_map.mp hmem
  exact ((validate_eq_ok_iff.mp hvalid).2 track htrack).2 clip hclip

end Timeline

end Compositor
