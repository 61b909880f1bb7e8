import Compositor.Proofs.Decimal.Value
import Compositor.Proofs.Timeline.Check

/-!
# Numbers that pass the check

A number that has to be positive is a finite magnitude without a sign; one that
may not be negative can also be a zero of either sign.
-/

namespace Compositor

open Decimal Float.Model

variable {value : Float}

namespace Bound

theorem admits_positive_iff :
    positive.admits value = true ↔ ∃ mantissa exponent hpos,
      value.toModel.unpack = .finite .positive mantissa exponent hpos := by
  have hzero : (0.0 : Float).toModel.unpack = .zero .positive := rfl
  have hfinite : Quantity.isFinite value = value.toModel.unpack.isFinite := rfl
  simp only [admits, hfinite, Quantity.isAtMost, Quantity.zero, Bool.and_eq_true,
    Bool.not_eq_true', decide_eq_false_iff_not, le_iff_compare, hzero]
  cases value.toModel.unpack with
  | notANumber => simp [UnpackedFloat.isFinite]
  | infinity sign => simp [UnpackedFloat.isFinite]
  | zero sign => simp [UnpackedFloat.compare]
  | finite sign mantissa exponent hpos =>
      cases sign <;> simp [UnpackedFloat.isFinite, UnpackedFloat.compare, hpos]

theorem admits_notNegative_iff :
    notNegative.admits value = true ↔ IsZero value ∨ positive.admits value = true := by
  have hzero : (0.0 : Float).toModel.unpack = .zero .positive := rfl
  have hfinite : Quantity.isFinite value = value.toModel.unpack.isFinite := rfl
  rw [isZero_iff_unpack, admits_positive_iff]
  simp only [admits, hfinite, Quantity.isBelow, Quantity.zero, Bool.and_eq_true,
    Bool.not_eq_true', decide_eq_false_iff_not, lt_iff_compare, hzero]
  cases value.toModel.unpack with
  | notANumber => simp [UnpackedFloat.isFinite]
  | infinity sign => simp [UnpackedFloat.isFinite]
  | zero sign => simp [UnpackedFloat.isFinite, UnpackedFloat.compare]
  | finite sign mantissa exponent hpos =>
      cases sign <;> simp [UnpackedFloat.isFinite, UnpackedFloat.compare, hpos]

theorem not_isZero_of_admits_positive (h : positive.admits value = true) : ¬ IsZero value := by
  obtain ⟨mantissa, exponent, hpos, hunpack⟩ := admits_positive_iff.mp h
  rw [isZero_iff_unpack, hunpack]
  simp

variable {first second : Float}

theorem isFinite_of_admits {bound : Bound} (h : bound.admits value = true) :
    value.isFinite = true := by
  unfold admits at h
  rw [Bool.and_eq_true] at h
  exact h.1

theorem unsigned_of_admits (h : notNegative.admits value = true) :
    Unsigned value.toModel.unpack := by
  rcases admits_notNegative_iff.mp h with hzero | hpositive
  · obtain ⟨sign, hunpack⟩ := isZero_iff_unpack.mp hzero
    rw [hunpack]
    exact .zero sign
  · obtain ⟨mantissa, exponent, hpos, hunpack⟩ := admits_positive_iff.mp hpositive
    obtain ⟨hcanonical, hexponent⟩ := canonical_of_unpack hunpack
    rw [hunpack]
    exact .finite hcanonical hexponent

theorem admits_of_unsigned (h : Unsigned value.toModel.unpack) :
    notNegative.admits value = true := by
  rw [admits_notNegative_iff, isZero_iff_unpack, admits_positive_iff]
  cases hunpack : value.toModel.unpack with
  | zero sign => exact .inl ⟨sign, rfl⟩
  | finite sign mantissa exponent hpos =>
      rw [hunpack] at h
      cases h with
      | finite => exact .inr ⟨mantissa, exponent, hpos, rfl⟩
  | notANumber | infinity =>
      rw [hunpack] at h
      cases h

theorem admits_notNegative_of_positive (h : positive.admits value = true) :
    notNegative.admits value = true :=
  admits_notNegative_iff.mpr (.inr h)

theorem isFinite_sub (hfirst : notNegative.admits first = true)
    (hsecond : notNegative.admits second = true) : (first - second).isFinite = true :=
  isFinite_ofModel_pack (bounded_sub (unsigned_of_admits hfirst) (unsigned_of_admits hsecond))

theorem admits_add (hfirst : notNegative.admits first = true)
    (hsecond : positive.admits second = true) (hfinite : (first + second).isFinite = true) :
    notNegative.admits (first + second) = true := by
  obtain ⟨mantissa, exponent, hpos, hunpack⟩ := admits_positive_iff.mp hsecond
  obtain ⟨mantissa', exponent', hsum⟩ := exists_add_eq (unsigned_of_admits hfirst) hunpack
  have heq : first + second = Float.ofModel (Float.Model.pack (UnpackedFloat.add Format.binary64
    first.toModel.unpack second.toModel.unpack)) := rfl
  rw [heq, hsum] at hfinite ⊢
  exact admits_of_unsigned (unsigned_unpack_pack hfinite)

theorem halve_eq {mantissa : Nat} {exponent : Int} {hpos : 0 < mantissa}
    (h : value.toModel.unpack = .finite .positive mantissa exponent hpos) :
    value / 2.0 = Float.ofModel (Float.Model.pack (UnpackedFloat.div Format.binary64
      (.finite .positive mantissa exponent hpos)
      (.finite .positive (2 ^ 52) (-51) (by decide)))) := by
  rw [← h, ← unpack_two]
  rfl

def smallest : Float := Float.ofBits 1

theorem eq_smallest {hpos : 0 < 1} (h : value.toModel.unpack = .finite .positive 1 (-1074) hpos) :
    value = smallest := by
  rw [← ofModel_pack_unpack value, h]
  rfl

theorem admits_halve (h : positive.admits value = true) (hlarge : value ≠ smallest) :
    positive.admits (value / 2.0) = true := by
  obtain ⟨mantissa, exponent, hpos, hunpack⟩ := admits_positive_iff.mp h
  obtain ⟨hcanonical, hexponent⟩ := canonical_of_unpack hunpack
  have hnot : mantissa ≠ 1 ∨ exponent ≠ -1074 := by
    by_contra hone
    rw [not_or, not_not, not_not] at hone
    obtain ⟨rfl, rfl⟩ := hone
    exact hlarge (eq_smallest hunpack)
  obtain ⟨mantissa', exponent', hpos', hcanonical', hexponent', hhalf⟩ :=
    exists_div_two_eq hcanonical hpos hexponent hnot
  rw [halve_eq hunpack, hhalf, admits_positive_iff]
  exact ⟨mantissa', exponent', hpos', unpack_pack hcanonical' hexponent'⟩

end Bound

theorem leastFloat_cases (first second : Float) :
    leastFloat first second = first ∨ leastFloat first second = second := by
  unfold leastFloat
  split
  · exact .inr rfl
  · split
    · exact .inl rfl
    · split
      · exact .inr rfl
      · exact .inl rfl

theorem Bound.admits_leastFloat {bound : Bound} {first second : Float}
    (hfirst : bound.admits first = true) (hsecond : bound.admits second = true) :
    bound.admits (leastFloat first second) = true := by
  rcases leastFloat_cases first second with h | h <;> rw [h]
  · exact hfirst
  · exact hsecond

theorem Bound.value_nonneg (h : notNegative.admits value = true) : 0 ≤ Decimal.value value := by
  rcases admits_notNegative_iff.mp h with hzero | hpositive
  · rw [value_of_isZero hzero]
  · obtain ⟨mantissa, exponent, hpos, hunpack⟩ := admits_positive_iff.mp hpositive
    rw [value_of_unpack hunpack]
    positivity

def longestDelay : ℚ := largestWord / 1000

/-- Whole milliseconds are off by half of one, but for the precision of doubles. -/
theorem Bound.wholeMillis_near (h : notNegative.admits value = true) :
    |(Quantity.wholeMillis value : ℚ) / 1000 - min (Decimal.value value) longestDelay| ≤
      1 / 2000 + Decimal.value value / 2 ^ 53 := by
  have hword : Quantity.wholeMillis value = nearestWord (value * 1000.0) := rfl
  rcases admits_notNegative_iff.mp h with hzero | hpositive
  · have hlongest : (0 : ℚ) ≤ longestDelay := by
      unfold longestDelay largestWord
      norm_num
    rw [hword, hzero.wholeMillis_eq, value_of_isZero hzero, min_eq_left hlongest]
    norm_num
  · obtain ⟨mantissa, exponent, hpos, hunpack⟩ := admits_positive_iff.mp hpositive
    have hnear := Decimal.wholeMillis_near hunpack
    have hmin : min (1000 * Decimal.value value) largestWord =
        1000 * min (Decimal.value value) longestDelay := by
      rw [mul_min_of_nonneg _ _ (by norm_num), longestDelay, mul_div_cancel₀ _ (by norm_num)]
    rw [hword]
    rw [hmin, abs_le] at hnear
    rw [abs_le]
    constructor <;> linarith [hnear.1, hnear.2]

structure Clip.Measured (clip : Clip Float) : Prop where
  start : Bound.notNegative.admits clip.start = true
  duration : Bound.positive.admits clip.duration = true
  fadeIn : Bound.notNegative.admits clip.fadeIn = true
  fadeOut : Bound.notNegative.admits clip.fadeOut = true

theorem Clip.measured_of_admitted {clip : Clip Float}
    (h : ∀ measure ∈ clip.measures, measure.isAdmitted = true) : clip.Measured := by
  simp only [measures, List.forall_mem_cons, Measure.isAdmitted] at h
  exact ⟨h.1, h.2.1, h.2.2.2.1, h.2.2.2.2.1⟩

theorem Timeline.measured_of_validate {timeline : Timeline} (hvalid : timeline.validate = .ok ())
    {item : Track × Clip Float} (hitem : item ∈ timeline.placements) : item.2.Measured :=
  Clip.measured_of_admitted (admits_of_validate hvalid hitem).ranges

end Compositor
