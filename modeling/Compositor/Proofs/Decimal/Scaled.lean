import Compositor.Decimal.Scaled
import Compositor.Proofs.Decimal.Whole
import Mathlib

/-!
# Scaled decimals that are read exactly

Digits are kept as they are while they fit, so the number that is kept is the one that
is spelled.  Where it fits a mantissa and the power of ten is itself a double, it is
rounded once, and the result is the nearest double.
-/

namespace Compositor.Decimal

theorem le_appendDigit (value : Nat) (digit : Char) : value ≤ appendDigit value digit := by
  unfold appendDigit
  omega

theorem le_foldl_appendDigit (value : Nat) (digits : List Char) :
    value ≤ digits.foldl appendDigit value := by
  induction digits generalizing value with
  | nil => exact Nat.le_refl _
  | cons digit digits ih =>
      exact Nat.le_trans (le_appendDigit value digit) (ih _)

theorem toNat_toUInt64 {value : Nat} (h : value < 2 ^ 64) : value.toUInt64.toNat = value :=
  UInt64.toNat_ofNat_of_lt' h

theorem hasRoom_of_lt {value : Nat} {digit : Char} (h : appendDigit value digit < 2 ^ 64) :
    hasRoom value.toUInt64 digit = true ∧
      push value.toUInt64 digit = (appendDigit value digit).toUInt64 := by
  have hvalue := toNat_toUInt64 (Nat.lt_of_le_of_lt (le_appendDigit value digit) h)
  rw [hasRoom, push, hvalue]
  exact ⟨decide_eq_true h, rfl⟩

theorem keepWhole_eq {value : Nat} {digits : List Char}
    (h : digits.foldl appendDigit value < 2 ^ 64) :
    keepWhole value.toUInt64 digits = ⟨(digits.foldl appendDigit value).toUInt64, 0⟩ := by
  induction digits generalizing value with
  | nil => rw [keepWhole, List.foldl_nil]
  | cons digit digits ih =>
      rw [List.foldl_cons] at h ⊢
      obtain ⟨hroom, hpush⟩ := hasRoom_of_lt (Nat.lt_of_le_of_lt (le_foldl_appendDigit _ digits) h)
      rw [keepWhole, if_pos hroom, hpush, ih h]

theorem Scaled.keepFraction_eq {value : Nat} {digits : List Char}
    (h : digits.foldl appendDigit value < 2 ^ 64) (scale : Int) :
    keepFraction ⟨value.toUInt64, scale⟩ digits =
      ⟨(digits.foldl appendDigit value).toUInt64, scale - digits.length⟩ := by
  induction digits generalizing value scale with
  | nil => rw [keepFraction, List.foldl_nil, List.length_nil, Int.natCast_zero, Int.sub_zero]
  | cons digit digits ih =>
      rw [List.foldl_cons] at h ⊢
      obtain ⟨hroom, hpush⟩ := hasRoom_of_lt (Nat.lt_of_le_of_lt (le_foldl_appendDigit _ digits) h)
      rw [keepFraction, if_pos hroom, hpush, ih h, List.length_cons]
      congr 1
      dsimp only
      omega

/-- Digits on both sides of a point, if all of them fit. -/
theorem keepFraction_keepWhole {whole fraction : List Char}
    (h : wholeValue (whole ++ fraction) < 2 ^ 64) :
    (keepWhole 0 whole).keepFraction fraction =
      ⟨(wholeValue (whole ++ fraction)).toUInt64, -fraction.length⟩ := by
  change (whole ++ fraction).foldl appendDigit 0 < 2 ^ 64 at h
  rw [List.foldl_append] at h
  have hwhole := Nat.lt_of_le_of_lt (le_foldl_appendDigit _ fraction) h
  have hkept : keepWhole 0 whole = ⟨(whole.foldl appendDigit 0).toUInt64, 0⟩ := keepWhole_eq hwhole
  rw [hkept, Scaled.keepFraction_eq h, ← List.foldl_append, Int.zero_sub]
  rfl

theorem powersOfTen_eq : ∀ power : Fin 23,
    Float.exactlyRepresentablePowersOfTen[power.val]? = some (tenTo power) := by
  decide

theorem zero_scaled : ∀ power : Fin 23,
    (0 : UInt64).toFloat * tenTo power = 0.0 ∧ (0 : UInt64).toFloat / tenTo power = 0.0 := by
  decide

theorem ofScientific_eq {value power : Nat} (hvalue : value < 2 ^ 53) (hpower : power ≤ 22)
    (isSmall : Bool) :
    Float.ofScientific value isSmall power =
      if isSmall then value.toUInt64.toFloat / tenTo power
      else value.toUInt64.toFloat * tenTo power := by
  obtain ⟨_, hten⟩ := Array.getElem?_eq_some_iff.mp
    (powersOfTen_eq ⟨power, Nat.lt_succ_of_le hpower⟩)
  rw [← hten, Float.ofScientific, dif_pos ⟨hvalue, hpower⟩]

theorem Scaled.double_up {power : Nat} (significand : UInt64) (h : power ≤ 22) :
    double ⟨significand, .ofNat power⟩ = significand.toFloat * tenTo power := by
  have hlarge : power ≤ largestPower := Nat.le_trans h (by decide)
  simp only [double, if_pos hlarge]

theorem Scaled.double_down {power : Nat} (significand : UInt64) (h : power + 1 ≤ 22) :
    double ⟨significand, .negSucc power⟩ = significand.toFloat / tenTo (power + 1) := by
  have hsmall : power < largestPower := Nat.lt_of_lt_of_le h (by decide)
  simp only [double, Nat.div_eq_of_lt hsmall, Nat.mod_eq_of_lt hsmall, shrink]

theorem double_eq_nearest {value : Nat} {scale : Int} (hvalue : value < 2 ^ 53)
    (hscale : scale.natAbs ≤ 22) :
    Scaled.double ⟨value.toUInt64, scale⟩ = nearest false value scale := by
  have hcount := digitCount_le (Nat.lt_trans hvalue (by decide))
  have hnear : ¬ scale + digitCount value < -400 := by omega
  have hfar : ¬ 400 < scale + digitCount value := by omega
  simp only [nearest, hnear, hfar, or_false, if_false, Bool.false_eq_true]
  rcases scale with power | power
  · have hpower : power ≤ 22 := hscale
    rw [Scaled.double_up _ hpower]
    split
    · rename_i hzero
      subst hzero
      exact (zero_scaled ⟨power, Nat.lt_succ_of_le hpower⟩).1
    · exact (ofScientific_eq hvalue hpower false).symm
  · have hpower : power + 1 ≤ 22 := hscale
    rw [Scaled.double_down _ hpower]
    split
    · rename_i hzero
      subst hzero
      exact (zero_scaled ⟨power + 1, Nat.lt_succ_of_le hpower⟩).2
    · exact (ofScientific_eq hvalue hpower true).symm

end Compositor.Decimal
