import Compositor.Proofs.Decimal.Signs

/-!
# Quotients of doubles

Before a quotient is rounded it is cut where at least 53 bits are left, or at the
lowest place.  So a quotient of finite numbers is finite, unless the divisor is too
small for the dividend.
-/

namespace Compositor.Decimal

open Float.Model
open Float.Model.UnpackedFloat hiding unpack pack mul neg isFinite ofScientific round normalize sub
  div

variable {mantissa mantissa' : Nat}

def lead (mantissa : Nat) (exponent : Int) (mantissa' : Nat) (exponent' : Int) : Int :=
  mantissa.log2 + exponent - (mantissa'.log2 + exponent')

def quotientPlace (mantissa : Nat) (exponent : Int) (mantissa' : Nat) (exponent' : Int) : Int :=
  min (exponent - exponent') (max (lead mantissa exponent mantissa' exponent' - 53) (-1074))

def quotientShift (mantissa : Nat) (exponent : Int) (mantissa' : Nat) (exponent' : Int) : Nat :=
  (exponent - exponent' - quotientPlace mantissa exponent mantissa' exponent').toNat

def quotient (mantissa : Nat) (exponent : Int) (mantissa' : Nat) (exponent' : Int) : Nat :=
  mantissa * 2 ^ quotientShift mantissa exponent mantissa' exponent' / mantissa'

theorem divCore_eq (mantissa : Nat) (exponent : Int) (mantissa' : Nat) (exponent' : Int) :
    divCore Format.binary64 mantissa exponent mantissa' exponent' =
      (quotient mantissa exponent mantissa' exponent',
        quotientPlace mantissa exponent mantissa' exponent',
        (divCore Format.binary64 mantissa exponent mantissa' exponent').2.2) := by
  have htarget : min (exponent - exponent') (Format.binary64.targetExponent
      (totalExponent mantissa exponent - totalExponent mantissa' exponent')) =
        quotientPlace mantissa exponent mantissa' exponent' := by
    have hbits : (Format.binary64.mantissaBits : Int) = 53 := by decide
    have hmin : Format.binary64.minExponent = -1074 := by decide
    simp only [Format.targetExponent, hbits, hmin, quotientPlace, lead, totalExponent]
    omega
  simp only [divCore, htarget, Nat.shiftLeft_eq, quotient, quotientShift]

theorem log2_div_le (number : Nat) {divisor : Nat} (hpos : 0 < divisor) :
    (number / divisor).log2 + divisor.log2 ≤ max number.log2 divisor.log2 := by
  by_cases hzero : number / divisor = 0
  · rw [hzero, Nat.log2_zero]
    omega
  · have hproduct : 2 ^ ((number / divisor).log2 + divisor.log2) ≤ number := by
      calc
        2 ^ ((number / divisor).log2 + divisor.log2)
          = 2 ^ (number / divisor).log2 * 2 ^ divisor.log2 := Nat.pow_add ..
        _ ≤ number / divisor * divisor :=
          Nat.mul_le_mul (Nat.log2_self_le hzero) (Nat.log2_self_le (Nat.ne_of_gt hpos))
        _ ≤ number := Nat.div_mul_le_self ..
    have hnumber : number ≠ 0 := by
      rintro rfl
      exact hzero (Nat.zero_div _)
    exact Nat.le_trans ((Nat.le_log2 hnumber).mpr hproduct) (Nat.le_max_left _ _)

theorem le_log2_div {number divisor count : Nat} (hpos : 0 < divisor)
    (h : count + divisor.log2 + 1 ≤ number.log2) : count ≤ (number / divisor).log2 := by
  have hnumber : number ≠ 0 := by
    rintro rfl
    rw [Nat.log2_zero] at h
    omega
  have hquotient : 2 ^ count ≤ number / divisor := by
    rw [Nat.le_div_iff_mul_le hpos]
    calc
      2 ^ count * divisor ≤ 2 ^ count * 2 ^ (divisor.log2 + 1) :=
        Nat.mul_le_mul_left _ (Nat.le_of_lt Nat.lt_log2_self)
      _ = 2 ^ (count + divisor.log2 + 1) := (Nat.pow_add ..).symm
      _ ≤ 2 ^ number.log2 := Nat.pow_le_pow_right (by decide) h
      _ ≤ number := Nat.log2_self_le hnumber
  have hne : number / divisor ≠ 0 := by
    have := Nat.two_pow_pos count
    omega
  exact (Nat.le_log2 hne).mpr hquotient

theorem quotientPlace_le_lastPlace (exponent exponent' : Int) (hpos : 0 < mantissa)
    (hpos' : 0 < mantissa') :
    quotientPlace mantissa exponent mantissa' exponent' ≤
      lastPlace (quotient mantissa exponent mantissa' exponent')
        (quotientPlace mantissa exponent mantissa' exponent') := by
  by_cases hlow : quotientPlace mantissa exponent mantissa' exponent' ≤ -1074
  · exact Int.le_trans hlow (low_lastPlace _ _)
  · have hbits : 52 ≤ (quotient mantissa exponent mantissa' exponent').log2 := by
      apply le_log2_div hpos'
      rw [log2_mul_two_pow hpos, quotientShift]
      unfold quotientPlace lead at *
      omega
    unfold lastPlace
    omega

theorem lastPlace_quotient_le (exponent exponent' : Int) (hpos : 0 < mantissa)
    (hpos' : 0 < mantissa') :
    lastPlace (quotient mantissa exponent mantissa' exponent')
        (quotientPlace mantissa exponent mantissa' exponent') ≤
      max (lead mantissa exponent mantissa' exponent' - 52) (-1074) := by
  have hbits := log2_div_le
    (mantissa * 2 ^ quotientShift mantissa exponent mantissa' exponent') hpos'
  rw [log2_mul_two_pow hpos] at hbits
  rw [lastPlace, quotient]
  generalize (_ / mantissa').log2 = bits at hbits ⊢
  unfold quotientShift quotientPlace lead at *
  omega

section Finite

variable {exponent exponent' : Int}

theorem bounded_div {sign sign' : Sign} (hpos : 0 < mantissa) (hpos' : 0 < mantissa')
    (hlead : lead mantissa exponent mantissa' exponent' ≤ 1022) :
    Bounded 971 (UnpackedFloat.div Format.binary64 (.finite sign mantissa exponent hpos)
      (.finite sign' mantissa' exponent' hpos')) := by
  have hplace := lastPlace_quotient_le exponent exponent' hpos hpos'
  unfold UnpackedFloat.div
  dsimp only
  rw [divCore_eq]
  dsimp only
  rw [roundWithAccuracy_eq _ _ (quotientPlace_le_lastPlace exponent exponent' hpos hpos')]
  apply bounded_settled
  · omega
  · omega

/-- Finite numbers have a finite quotient by a number that is at least two. -/
theorem isFinite_div {value divisor : Float} {sign : Sign} {hpos' : 0 < mantissa'}
    (hvalue : value.isFinite = true)
    (hdivisor : divisor.toModel.unpack = .finite sign mantissa' exponent' hpos')
    (hlarge : 1 ≤ mantissa'.log2 + exponent') : (value / divisor).isFinite = true := by
  rw [div_eq, hdivisor]
  apply isFinite_ofModel_pack
  have hfinite : value.toModel.unpack.isFinite = true := hvalue
  cases hunpack : value.toModel.unpack with
  | notANumber => simp [hunpack, UnpackedFloat.isFinite] at hfinite
  | infinity sign => simp [hunpack, UnpackedFloat.isFinite] at hfinite
  | zero sign => exact .zero _
  | finite sign' mantissa exponent hpos =>
      obtain ⟨hcanonical, hexponent⟩ := canonical_of_unpack hunpack
      have hlog : mantissa.log2 < 53 := (Nat.log2_lt (Nat.ne_of_gt hpos)).mpr hcanonical.small
      apply bounded_div hpos hpos'
      unfold lead
      omega

end Finite

end Compositor.Decimal
