import Compositor.Compile
import Compositor.Proofs.Timeline.Ranges
import Mathlib.Algebra.Order.Round

/-!
# Ramps of a clip

Read with exact numbers, what is computed for a clip that passes the check stays
within the clip.  Its window is not empty, the ramps of its transition begin and
end with it and meet in the middle at most, and its fades take some time but no
more than it lasts.  Whole milliseconds are off by half of one.
-/

namespace Compositor

instance : Quantity ℚ where
  zero := 0
  half := 1 / 2
  halve value := value / 2
  least := min
  isFinite _ := true
  isBelow first second := decide (first < second)
  isAtMost first second := decide (first ≤ second)
  wholeMillis value := min (round (value * 1000)).toNat (2 ^ 64 - 1)

theorem Bound.admits_positive_exact {value : ℚ} : positive.admits value = true ↔ 0 < value := by
  simp [admits, Quantity.isFinite, Quantity.isAtMost, Quantity.zero]

theorem Bound.admits_notNegative_exact {value : ℚ} :
    notNegative.admits value = true ↔ 0 ≤ value := by
  simp [admits, Quantity.isFinite, Quantity.isBelow, Quantity.zero]

theorem rampLength_exact (duration : ℚ) : rampLength duration = min (1 / 2) (duration / 2) := rfl

/-- A transition takes time, half a second at most, and there is room for two of it. -/
theorem rampLength_bounds {duration : ℚ} (h : 0 < duration) :
    0 < rampLength duration ∧ rampLength duration ≤ 1 / 2 ∧ 2 * rampLength duration ≤ duration := by
  rw [rampLength_exact]
  have hhalf : min (1 / 2) (duration / 2) ≤ duration / 2 := min_le_right _ _
  refine ⟨lt_min (by norm_num) (half_pos h), min_le_left _ _, ?_⟩
  linarith

theorem wholeMillis_exact_near {start : ℚ} (hstart : 0 ≤ start)
    (hword : 1000 * start < 2 ^ 64 - 1) :
    |(Quantity.wholeMillis start : ℚ) / 1000 - start| ≤ 1 / 2000 := by
  have hround := abs_sub_round (start * 1000)
  have hnonneg : 0 ≤ round (start * 1000) := by
    rw [round_eq]
    exact Int.floor_nonneg.mpr (by positivity)
  have hword' : (round (start * 1000)).toNat ≤ 2 ^ 64 - 1 := by
    have hlt : (round (start * 1000) : ℚ) < ((2 ^ 64 : Int) : ℚ) := by
      rw [abs_le] at hround
      push_cast
      linarith [hround.1]
    have hlt' : round (start * 1000) < 2 ^ 64 := by exact_mod_cast hlt
    omega
  have hmillis : (Quantity.wholeMillis start : ℚ) = round (start * 1000) := by
    have hmin : Quantity.wholeMillis start = (round (start * 1000)).toNat := min_eq_left hword'
    rw [hmin, ← Int.cast_natCast, Int.toNat_of_nonneg hnonneg]
  rw [hmillis, abs_le] at *
  constructor <;> linarith [hround.1, hround.2]

/-- A change of a picture or of a sound that takes its time. -/
structure Ramp where
  direction : FadeDirection
  start : ℚ
  length : ℚ
deriving DecidableEq

namespace Ramp

def stop (ramp : Ramp) : ℚ := ramp.start + ramp.length

structure Within (ramp : Ramp) (first last : ℚ) : Prop where
  lasts : 0 < ramp.length
  begins : first ≤ ramp.start
  ends : ramp.stop ≤ last

end Ramp

def Filter.ramp? : Filter ℚ → Option Ramp
  | .fade direction start length => some ⟨direction, start, length⟩
  | .audioFade direction start length => some ⟨direction, start, length⟩
  | _ => none

def Filter.delay? : Filter ℚ → Option Nat
  | .audioDelay millis => some millis
  | _ => none

def Slide.ramp? : Slide ℚ → Option Ramp
  | .fixed => none
  | .slideIn start length => some ⟨.into, start, length⟩

theorem filterMap_fadeFilter (direction : FadeDirection) (start length : ℚ) :
    (fadeFilter direction start length).filterMap Filter.ramp? =
      if 0 < length then [⟨direction, start, length⟩] else [] := by
  have hbelow : Quantity.isBelow Quantity.zero length = decide (0 < length) := rfl
  by_cases h : 0 < length <;> simp [fadeFilter, hbelow, h, Filter.ramp?]

theorem delays_fadeFilter (direction : FadeDirection) (start length : ℚ) :
    (fadeFilter direction start length).filterMap Filter.delay? = [] := by
  unfold fadeFilter
  split <;> rfl

namespace Clip

variable (clip : Clip ℚ)

def layerRamps (canvas : Canvas) : List Ramp := (clip.layerChain canvas).filterMap Filter.ramp?

def voiceRamps (trackVolume : ℚ) : List Ramp :=
  (clip.audioChain trackVolume).filterMap Filter.ramp?

def delays (trackVolume : ℚ) : List Nat := (clip.audioChain trackVolume).filterMap Filter.delay?

theorem voiceRamps_eq (trackVolume : ℚ) : clip.voiceRamps trackVolume =
    (if 0 < min clip.fadeIn clip.duration then [⟨.into, 0, min clip.fadeIn clip.duration⟩]
      else []) ++
      if 0 < min clip.fadeOut clip.duration then
        [⟨.out, clip.duration - min clip.fadeOut clip.duration, min clip.fadeOut clip.duration⟩]
      else [] := by
  have hends :
      ([.audioTrim clip.duration, .audioRestart] : List (Filter ℚ)).filterMap Filter.ramp? = [] ∧
      ([.audioDelay (Quantity.wholeMillis clip.start), .gain (clip.volume * trackVolume)] :
        List (Filter ℚ)).filterMap Filter.ramp? = [] := ⟨rfl, rfl⟩
  simp only [voiceRamps, audioChain, List.filterMap_append, hends, filterMap_fadeFilter,
    List.nil_append, List.append_nil]
  rfl

theorem delays_eq (trackVolume : ℚ) :
    clip.delays trackVolume = [Quantity.wholeMillis clip.start] := by
  simp only [delays, audioChain, List.filterMap_append, delays_fadeFilter, List.append_nil]
  rfl

/-- The ramps of a clip, its window and its delay, as they lie within the time of the clip. -/
structure Ramped (clip : Clip ℚ) : Prop where
  window : clip.window = ⟨clip.start, clip.start + clip.duration⟩ ∧
    clip.window.start < clip.window.stop ∧ clip.window.isEmpty = false
  soft : clip.transition = .fade ∨ clip.transition = .dissolve → ∀ canvas, ∃ length,
    clip.layerRamps canvas =
      [⟨.into, clip.window.start, length⟩, ⟨.out, clip.window.stop - length, length⟩] ∧
    length ≤ 1 / 2 ∧ clip.window.start + length ≤ clip.window.stop - length ∧
    ∀ ramp ∈ clip.layerRamps canvas, ramp.Within clip.window.start clip.window.stop
  wipe : clip.transition = .wipe → ∃ ramp, clip.slide.ramp? = some ramp ∧
    ramp.start = clip.window.start ∧ ramp.Within clip.window.start clip.window.stop
  voice : ∀ trackVolume, ∀ ramp ∈ clip.voiceRamps trackVolume, ramp.Within 0 clip.duration
  fadesIn : ∀ trackVolume ramp, ramp.direction = .into →
    (ramp ∈ clip.voiceRamps trackVolume ↔
      0 < clip.fadeIn ∧ ramp.start = 0 ∧ ramp.length = min clip.fadeIn clip.duration)
  fadesOut : ∀ trackVolume ramp, ramp.direction = .out →
    (ramp ∈ clip.voiceRamps trackVolume ↔
      0 < clip.fadeOut ∧ ramp.stop = clip.duration ∧ ramp.length = min clip.fadeOut clip.duration)
  delay : ∀ trackVolume, ∃ millis, clip.delays trackVolume = [millis] ∧
    (1000 * clip.start < 2 ^ 64 - 1 → |(millis : ℚ) / 1000 - clip.start| ≤ 1 / 2000)

variable {clip}

theorem bounds_of_admitted (h : ∀ measure ∈ clip.measures, measure.isAdmitted = true) :
    0 ≤ clip.start ∧ 0 < clip.duration := by
  simp only [measures, List.forall_mem_cons, Measure.isAdmitted, Bound.admits_positive_exact,
    Bound.admits_notNegative_exact] at h
  exact ⟨h.1, h.2.1⟩

theorem mem_voiceRamps (hduration : 0 < clip.duration) {trackVolume : ℚ} {ramp : Ramp} :
    ramp ∈ clip.voiceRamps trackVolume ↔
      (0 < clip.fadeIn ∧ ramp = ⟨.into, 0, min clip.fadeIn clip.duration⟩) ∨
      (0 < clip.fadeOut ∧ ramp = ⟨.out, clip.duration - min clip.fadeOut clip.duration,
        min clip.fadeOut clip.duration⟩) := by
  rw [voiceRamps_eq, List.mem_append]
  simp [hduration]

theorem layerRamps_of_soft (h : clip.transition = .fade ∨ clip.transition = .dissolve)
    (canvas : Canvas) :
    clip.layerRamps canvas = [⟨.into, clip.window.start, rampLength clip.duration⟩,
      ⟨.out, clip.window.stop - rampLength clip.duration, rampLength clip.duration⟩] := by
  rcases h with h | h <;> simp only [layerRamps, layerChain, ramps, h] <;> rfl

theorem layerRamps_within (hduration : 0 < clip.duration)
    (h : clip.transition = .fade ∨ clip.transition = .dissolve) {canvas : Canvas} {ramp : Ramp}
    (hramp : ramp ∈ clip.layerRamps canvas) :
    ramp.Within clip.window.start clip.window.stop := by
  have hwindow : clip.window.stop = clip.window.start + clip.duration := rfl
  obtain ⟨hpos, -, hroom⟩ := rampLength_bounds hduration
  rw [layerRamps_of_soft h, List.mem_cons, List.mem_singleton] at hramp
  rcases hramp with rfl | rfl
  · refine ⟨hpos, le_rfl, ?_⟩
    rw [Ramp.stop, hwindow]
    linarith
  · refine ⟨hpos, ?_, ?_⟩
    · rw [hwindow]
      linarith
    · rw [Ramp.stop, sub_add_cancel]

theorem voiceRamps_within (hduration : 0 < clip.duration) {trackVolume : ℚ} {ramp : Ramp}
    (hramp : ramp ∈ clip.voiceRamps trackVolume) : ramp.Within 0 clip.duration := by
  rcases (mem_voiceRamps hduration).mp hramp with ⟨hfade, rfl⟩ | ⟨hfade, rfl⟩
  · refine ⟨lt_min hfade hduration, le_rfl, ?_⟩
    rw [Ramp.stop, zero_add]
    exact min_le_right _ _
  · refine ⟨lt_min hfade hduration, sub_nonneg.mpr (min_le_right _ _), ?_⟩
    rw [Ramp.stop, sub_add_cancel]

/-- However long its fades are meant to be. -/
theorem ramped_of_admitted (clip : Clip ℚ)
    (h : ∀ measure ∈ clip.measures, measure.isAdmitted = true) : clip.Ramped := by
  obtain ⟨hstart, hduration⟩ := bounds_of_admitted h
  obtain ⟨hpos, hhalf, hroom⟩ := rampLength_bounds hduration
  have hwindow : clip.window.stop = clip.window.start + clip.duration := rfl
  have hshown : clip.window.start < clip.window.stop := by
    rw [hwindow]
    exact lt_add_of_pos_right _ hduration
  constructor
  case window => exact ⟨rfl, hshown, decide_eq_false (not_le.mpr hshown)⟩
  case soft =>
    intro hsoft canvas
    refine ⟨rampLength clip.duration, layerRamps_of_soft hsoft canvas, hhalf, ?_,
      fun ramp => layerRamps_within hduration hsoft⟩
    rw [hwindow]
    linarith
  case wipe =>
    intro hwipe
    refine ⟨⟨.into, clip.window.start, rampLength clip.duration⟩, ?_, rfl, hpos, le_rfl, ?_⟩
    · rw [slide, hwipe]
      rfl
    · rw [Ramp.stop, hwindow]
      linarith
  case voice => exact fun trackVolume ramp => voiceRamps_within hduration
  case fadesIn =>
    rintro trackVolume ⟨direction, start, length⟩ rfl
    simp [mem_voiceRamps hduration]
  case fadesOut =>
    rintro trackVolume ⟨direction, start, length⟩ rfl
    simp only [mem_voiceRamps hduration, Ramp.mk.injEq, reduceCtorEq, false_and, and_false,
      false_or, true_and, Ramp.stop]
    refine and_congr_right fun _ => ⟨?_, ?_⟩
    · rintro ⟨rfl, rfl⟩
      exact ⟨sub_add_cancel _ _, rfl⟩
    · rintro ⟨hstop, rfl⟩
      exact ⟨eq_sub_of_add_eq hstop, rfl⟩
  case delay =>
    exact fun trackVolume => ⟨_, clip.delays_eq trackVolume, wholeMillis_exact_near hstart⟩

end Clip

def Clip.exact (clip : Clip Float) : Clip ℚ :=
  ⟨clip.id, clip.assetId, clip.trackId, Decimal.value clip.start, Decimal.value clip.duration,
    Decimal.value clip.volume, Decimal.value clip.fadeIn, Decimal.value clip.fadeOut,
    clip.transition⟩

theorem Bound.admits_value {bound : Bound} {value : Float} (h : bound.admits value = true) :
    bound.admits (Decimal.value value) = true := by
  cases bound with
  | positive =>
      obtain ⟨mantissa, exponent, hpos, hunpack⟩ := admits_positive_iff.mp h
      rw [admits_positive_exact, Decimal.value_of_unpack hunpack]
      positivity
  | notNegative => exact admits_notNegative_exact.mpr (value_nonneg h)

theorem Clip.admitted_exact {clip : Clip Float}
    (h : ∀ measure ∈ clip.measures, measure.isAdmitted = true) :
    ∀ measure ∈ clip.exact.measures, measure.isAdmitted = true := by
  simp only [measures, exact, List.forall_mem_cons, Measure.isAdmitted] at h ⊢
  obtain ⟨hstart, hduration, hvolume, hfadeIn, hfadeOut, -⟩ := h
  exact ⟨Bound.admits_value hstart, Bound.admits_value hduration, Bound.admits_value hvolume,
    Bound.admits_value hfadeIn, Bound.admits_value hfadeOut, List.forall_mem_nil _⟩

def fadingClip : Clip Float := ⟨"c", "a", "t", 1.5, 0.75, 1.0, 9.0, 0.25, .fade⟩

theorem Clip.ramped_of_admitted_fading :
    (∀ measure ∈ fadingClip.exact.measures, measure.isAdmitted = true) ∧
      fadingClip.exact.Ramped := by
  have hexact : ∀ measure ∈ fadingClip.exact.measures, measure.isAdmitted = true :=
    admitted_exact (List.all_eq_true.mp (by decide +kernel))
  exact ⟨hexact, ramped_of_admitted fadingClip.exact hexact⟩

end Compositor
