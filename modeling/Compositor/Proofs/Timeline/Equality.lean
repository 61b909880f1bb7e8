import Compositor.Proofs.Timeline.Ranges

/-!
# Timelines that are compared equal

Numbers are compared by value, so that timelines that are compared equal differ
in the signs of zeros at most.  Numbers that have to be positive do not differ.
-/

namespace Compositor

open Decimal

theorem forall₂_of_beq {α : Type} [BEq α] {items items' : List α} (h : (items == items') = true) :
    List.Forall₂ (fun item item' => (item == item') = true) items items' := by
  induction items generalizing items' with
  | nil =>
      cases items' with
      | nil => exact .nil
      | cons item' items' => cases h
  | cons item items ih =>
      cases items' with
      | nil => cases h
      | cons item' items' =>
          rw [List.cons_beq_cons, Bool.and_eq_true] at h
          exact .cons h.1 (ih h.2)

theorem Clip.beq_eq (first second : Clip Float) :
    (first == second) = (first.id == second.id && (first.assetId == second.assetId &&
      (first.trackId == second.trackId && (first.start == second.start &&
      (first.duration == second.duration && (first.volume == second.volume &&
      (first.fadeIn == second.fadeIn && (first.fadeOut == second.fadeOut &&
      first.transition == second.transition)))))))) := by
  cases first
  cases second
  rfl

theorem Track.beq_eq (first second : Track) :
    (first == second) = (first.id == second.id && (first.kind == second.kind &&
      (first.name == second.name && (first.clips == second.clips &&
      (first.muted == second.muted && first.volume == second.volume))))) := by
  cases first
  cases second
  rfl

theorem Settings.beq_eq (first second : Settings) :
    (first == second) = (first.title == second.title && (first.duration == second.duration &&
      (first.resolution == second.resolution && (first.frameRate == second.frameRate &&
      (first.style == second.style && first.upload == second.upload))))) := by
  cases first
  cases second
  rfl

theorem Asset.beq_eq (first second : Asset) :
    (first == second) = (first.kind == second.kind && (first.location == second.location &&
      (first.name == second.name && (first.nativeDuration == second.nativeDuration &&
      first.bucket == second.bucket)))) := by
  cases first
  cases second
  rfl

theorem Timeline.beq_eq (first second : Timeline) :
    (first == second) = (first.tracks == second.tracks &&
      (first.settings == second.settings && first.assets == second.assets)) := by
  cases first
  cases second
  rfl

/-- Clips whose plans differ in the signs of zeros at most. -/
structure Clip.Alike (first second : Clip Float) : Prop where
  assetId : first.assetId = second.assetId
  start : SameNumber first.start second.start
  duration : first.duration = second.duration
  volume : SameNumber first.volume second.volume
  fadeIn : SameNumber first.fadeIn second.fadeIn
  fadeOut : SameNumber first.fadeOut second.fadeOut
  transition : first.transition = second.transition
  lasts : Bound.positive.admits first.duration = true

structure Track.Alike (first second : Track) : Prop where
  kind : first.kind = second.kind
  muted : first.muted = second.muted
  volume : SameNumber first.volume second.volume

def ItemsAlike (item item' : Track × Clip Float) : Prop :=
  item.1.Alike item'.1 ∧ item.2.Alike item'.2

structure Timeline.Alike (first second : Timeline) : Prop where
  placements : List.Forall₂ ItemsAlike first.placements second.placements
  kinds : ∀ id, (first.assets.get? id).map Asset.kind = (second.assets.get? id).map Asset.kind
  duration : first.settings.duration = second.settings.duration
  resolution : first.settings.resolution = second.settings.resolution
  frameRate : first.settings.frameRate = second.settings.frameRate

theorem eq_of_beq_of_admits {first second : Float} (h : (first == second) = true)
    (hadmits : Bound.positive.admits first = true) : first = second :=
  (sameNumber_of_beq h).eq_of_not_isZero (Bound.not_isZero_of_admits_positive hadmits)

theorem Clip.alike_of_beq {first second : Clip Float} (h : (first == second) = true)
    (hlasts : Bound.positive.admits first.duration = true) : first.Alike second := by
  simp only [beq_eq, Bool.and_eq_true] at h
  obtain ⟨-, hasset, -, hstart, hduration, hvolume, hfadeIn, hfadeOut, htransition⟩ := h
  exact {
    assetId := beq_iff_eq.mp hasset
    start := sameNumber_of_beq hstart
    duration := eq_of_beq_of_admits hduration hlasts
    volume := sameNumber_of_beq hvolume
    fadeIn := sameNumber_of_beq hfadeIn
    fadeOut := sameNumber_of_beq hfadeOut
    transition := beq_iff_eq.mp htransition
    lasts := hlasts }

theorem Track.alike_of_beq {first second : Track} (h : (first == second) = true) :
    first.Alike second := by
  simp only [beq_eq, Bool.and_eq_true] at h
  obtain ⟨-, hkind, -, -, hmuted, hvolume⟩ := h
  exact ⟨beq_iff_eq.mp hkind, beq_iff_eq.mp hmuted, sameNumber_of_beq hvolume⟩

theorem Track.clips_of_beq {first second : Track} (h : (first == second) = true) :
    (first.clips == second.clips) = true := by
  simp only [beq_eq, Bool.and_eq_true] at h
  exact h.2.2.2.1

namespace Timeline

variable {first second : Timeline}

theorem forall₂_placements (h : (first.tracks == second.tracks) = true) :
    List.Forall₂ (fun item item' => (item.1 == item'.1) = true ∧ (item.2 == item'.2) = true)
      first.placements second.placements := by
  refine List.rel_flatMap (forall₂_of_beq h) fun track track' htrack => ?_
  rw [List.forall₂_map_left_iff, List.forall₂_map_right_iff]
  exact (forall₂_of_beq (Track.clips_of_beq htrack)).imp fun _ _ hclip => ⟨htrack, hclip⟩

theorem kinds_of_beq {entries entries' : List (String × Asset)}
    (h : (entries == entries') = true) (id : String) :
    (entries.lookup id).map Asset.kind = (entries'.lookup id).map Asset.kind := by
  have hentries := forall₂_of_beq h
  clear h
  induction hentries with
  | nil => rfl
  | @cons entry entry' entries entries' hentry _ ih =>
      obtain ⟨key, asset⟩ := entry
      obtain ⟨key', asset'⟩ := entry'
      have hpair : (key == key' && asset == asset') = true := hentry
      simp only [Asset.beq_eq, Bool.and_eq_true, beq_iff_eq] at hpair
      obtain ⟨rfl, hkind, -⟩ := hpair
      rw [List.lookup_cons, List.lookup_cons]
      split
      · simp [hkind]
      · exact ih

theorem alike_of_beq (h : (first == second) = true) (hvalid : first.validate = .ok ()) :
    first.Alike second := by
  simp only [beq_eq, Settings.beq_eq, Bool.and_eq_true] at h
  obtain ⟨htracks, ⟨-, hduration, hresolution, hrate, -⟩, hassets⟩ := h
  exact {
    placements := by
      have hitems := (List.forall₂_and_left _ _).mpr
        ⟨fun item hitem => (measured_of_validate hvalid hitem).duration, forall₂_placements htracks⟩
      exact hitems.imp fun item item' ⟨hlasts, htrack, hclip⟩ =>
        ⟨Track.alike_of_beq htrack, Clip.alike_of_beq hclip hlasts⟩
    kinds := kinds_of_beq hassets
    duration := eq_of_beq_of_admits hduration (validate_eq_ok_iff.mp hvalid).1
    resolution := beq_iff_eq.mp hresolution
    frameRate := beq_iff_eq.mp hrate }

end Timeline

end Compositor
