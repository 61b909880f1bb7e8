import Compositor.Proofs.Decimal.Whole
import Mathlib

/-!
# Finite doubles

A whole number of 64 bits lies far below the largest double, so that the double
nearest to it is finite.  A result of an operation is finite unless its binary
exponent is too large to be packed.
-/

namespace Compositor.Decimal

open Float.Model
open Float.Model.UnpackedFloat hiding unpack pack mul neg isFinite ofScientific round normalize

/-- A number that is zero, or counts a power of two up to the one of `bound`. -/
inductive Bounded (bound : Int) : UnpackedFloat → Prop
  | zero (sign : Sign) : Bounded bound (.zero sign)
  | finite {sign : Sign} {mantissa : Nat} {exponent : Int} {hpos : 0 < mantissa}
      (h : exponent ≤ bound) : Bounded bound (.finite sign mantissa exponent hpos)

variable {bound : Int} {number : UnpackedFloat}

theorem Bounded.mono {larger : Int} (h : Bounded bound number) (hle : bound ≤ larger) :
    Bounded larger number := by
  cases h with
  | zero sign => exact .zero sign
  | finite h => exact .finite (by omega)

theorem Bounded.neg (h : Bounded bound number) : Bounded bound number.neg := by
  cases h with
  | zero sign => exact .zero _
  | finite h => exact .finite h

theorem Bounded.isFinite (h : Bounded bound number) : number.isFinite = true := by
  cases h <;> rfl

theorem exponentBias_binary64 : (Format.binary64.exponentBias : Int) = 1023 := by decide

theorem unpackExponent_ne_iff {bits : BitVec Format.binary64.numBits} :
    unpackExponent bits ≠ -1#_ ↔ (unpackExponent bits).toNat < 2047 := by
  have hlt : (unpackExponent bits).toNat < 2 ^ 11 := (unpackExponent bits).isLt
  have hmark : (-BitVec.ofNat Format.binary64.exponentBits 1).toNat = 2047 := by decide
  rw [ne_eq, ← BitVec.toNat_inj, hmark]
  omega

theorem bounded_unpack {bits : BitVec Format.binary64.numBits} {field : Nat} (hpos : 0 < field)
    (hfield : field < 2047) (h : (unpackExponent bits).toNat ≤ field) :
    Bounded (field - 1075) (UnpackedFloat.unpack Format.binary64 bits) := by
  have hmark : unpackExponent bits ≠ -1#_ := unpackExponent_ne_iff.mpr (by omega)
  simp only [UnpackedFloat.unpack, hmark, if_false, exponentBias_binary64]
  split
  · split
    · exact .zero _
    · rename_i hsubnormal _
      have hzero : (unpackExponent bits).toNat = 0 := by rw [hsubnormal]; rfl
      exact .finite (by omega)
  · exact .finite (by omega)

theorem bounded_of_isFinite {model : Float.Model} (h : model.isFinite = true) :
    Bounded 971 model.unpack := by
  refine bounded_unpack (by decide : 0 < 2046) (by decide) ?_
  by_cases hmark : @unpackExponent Format.binary64 model.toBits.toBitVec = -1#_
  · simp only [Float.Model.isFinite, Float.Model.unpack, UnpackedFloat.unpack, hmark, if_true] at h
    split at h <;> simp [UnpackedFloat.isFinite] at h
  · have := unpackExponent_ne_iff.mp hmark
    omega

theorem Bounded.unpack_pack (h : Bounded bound number) (hlow : -1074 ≤ bound)
    (hhigh : bound ≤ 971) : Bounded bound (Float.Model.pack number).unpack := by
  have hbound : ((bound + 1075).toNat : Int) - 1075 = bound := by omega
  rw [← hbound]
  refine bounded_unpack (by omega) (by omega) ?_
  show (unpackExponent (UnpackedFloat.pack Format.binary64 number)).toNat ≤ _
  cases h with
  | zero sign =>
      simp only [UnpackedFloat.pack, packedZero, unpackExponent_packComponents]
      exact Nat.zero_le _
  | @finite sign mantissa exponent hpos h =>
      simp only [UnpackedFloat.pack, exponentBias_binary64]
      have hcapacity : 2 ^ Format.binary64.exponentBits = 2048 := by decide
      have hfits : ¬ 2048 ≤ (exponent + 1023 + (52 : Nat)).toNat + 1 := by omega
      rw [hcapacity, if_neg hfits]
      split
      · rw [unpackExponent_packComponents, BitVec.toNat_ofNat]
        exact Nat.le_trans (Nat.mod_le _ _) (by omega)
      · rw [unpackExponent_packComponents]
        exact Nat.zero_le _

def mantissa : UnpackedFloat → Nat
  | .finite _ mantissa _ _ => mantissa
  | _ => 0

theorem mantissa_unpack_lt (bits : BitVec Format.binary64.numBits) :
    mantissa (UnpackedFloat.unpack Format.binary64 bits) < 2 ^ 53 := by
  have hlt : (unpackMantissa bits).toNat < 2 ^ 52 := (unpackMantissa bits).isLt
  unfold UnpackedFloat.unpack
  simp only
  split
  · split <;> exact Nat.two_pow_pos 53
  · split
    · split
      · exact Nat.two_pow_pos 53
      · simp only [mantissa]
        omega
    · exact (1#1 ++ unpackMantissa bits).isLt

theorem mantissa_shiftRight (count : Nat) (extended : ExtendedMantissa) :
    (extended >>> count).mantissa ≤ extended.mantissa := by
  show (count.repeat ExtendedMantissa.shiftRightOne extended).mantissa ≤ _
  induction count with
  | zero => exact Nat.le_refl _
  | succ count ih => exact Nat.le_trans (Nat.div_le_self _ 2) ih

theorem roundedMantissa_le (extended : ExtendedMantissa) :
    extended.roundedMantissa ≤ extended.mantissa + 1 := by
  unfold ExtendedMantissa.roundedMantissa Accuracy.roundToNearestEven
  split <;> omega

theorem exponent_shiftToTargetExponent {mantissa : Nat} {exponent : Int} {width : Nat}
    (hmantissa : mantissa < 2 ^ width) (hwidth : 53 ≤ width) :
    (shiftToTargetExponent Format.binary64 mantissa exponent .exact).2 ≤
      max exponent (max (exponent + (width - 53)) (-1074)) := by
  have hlog : mantissa.log2 < width := by
    by_cases hzero : mantissa = 0
    · rw [hzero, Nat.log2_zero]
      omega
    · exact (Nat.log2_lt hzero).mpr hmantissa
  have hmin : Format.binary64.minExponent = -1074 := by decide
  have hbits : (Format.binary64.mantissaBits : Int) = 53 := by decide
  simp only [shiftToTargetExponent, shiftToExponent, Format.targetExponent, totalExponent, hmin,
    hbits]
  omega

theorem mantissa_shiftToTargetExponent (mantissa : Nat) (exponent : Int) :
    (shiftToTargetExponent Format.binary64 mantissa exponent .exact).1.mantissa ≤ mantissa :=
  mantissa_shiftRight _ _

/-- Rounding may carry into one more bit, which shifts the exponent once more. -/
theorem bounded_roundWithAccuracy (sign : Sign) {mantissa : Nat} {exponent : Int}
    (hmantissa : mantissa < 2 ^ 128) (hexponent : exponent + 151 ≤ bound) (hbound : -998 ≤ bound) :
    Bounded bound (roundWithAccuracy Format.binary64 sign mantissa exponent .exact) := by
  have hfirst : _ ≤ max exponent (max (exponent + (128 - 53)) (-1074)) :=
    exponent_shiftToTargetExponent hmantissa (by decide)
  have hcut := mantissa_shiftToTargetExponent mantissa exponent
  unfold roundWithAccuracy
  generalize shiftToTargetExponent Format.binary64 mantissa exponent .exact = first at hfirst hcut
  obtain ⟨extended, exponent'⟩ := first
  have hrounded : extended.roundedMantissa < 2 ^ 129 := by
    have := roundedMantissa_le extended
    simp only at hcut
    omega
  have hsecond : _ ≤ max exponent' (max (exponent' + (129 - 53)) (-1074)) :=
    exponent_shiftToTargetExponent hrounded (by decide)
  simp only
  split
  · exact .zero sign
  · refine .finite (Int.le_trans hsecond ?_)
    simp only at hfirst
    omega

theorem bounded_round (sign : Sign) {mantissa : Nat} (hmantissa : mantissa < 2 ^ 64) :
    Bounded 151 (UnpackedFloat.round Format.binary64 sign mantissa 0) := by
  have htarget : -52 ≤ Format.binary64.targetExponent (totalExponent mantissa 0) := by
    have hbits : (Format.binary64.mantissaBits : Int) = 53 := by decide
    simp only [Format.targetExponent, totalExponent, hbits]
    omega
  unfold UnpackedFloat.round decreaseExponent
  simp only
  generalize hshift : (0 - Format.binary64.targetExponent (totalExponent mantissa 0)).toNat = shift
  refine bounded_roundWithAccuracy sign ?_ (by omega) (by decide)
  calc
    mantissa <<< shift = mantissa * 2 ^ shift := Nat.shiftLeft_eq ..
    _ ≤ mantissa * 2 ^ 64 := Nat.mul_le_mul_left _ (Nat.pow_le_pow_right (by decide) (by omega))
    _ < 2 ^ 64 * 2 ^ 64 := Nat.mul_lt_mul_of_pos_right hmantissa (by decide)
    _ = 2 ^ 128 := by decide

theorem bounded_mul {first second : UnpackedFloat} {low high : Int}
    (hfirst : Bounded low first) (hsecond : Bounded high second)
    (hproduct : mantissa first * mantissa second < 2 ^ 128) (hbound : low + high + 151 ≤ bound)
    (hlow : -998 ≤ bound) : Bounded bound (UnpackedFloat.mul Format.binary64 first second) := by
  cases hfirst with
  | zero sign => cases hsecond <;> exact .zero _
  | finite hfirst =>
      cases hsecond with
      | zero sign => exact .zero _
      | finite hsecond => exact bounded_roundWithAccuracy _ hproduct (by omega) hlow

theorem isFinite_ofModel_pack (h : Bounded 971 number) :
    (Float.ofModel (Float.Model.pack number)).isFinite = true :=
  (h.unpack_pack (by decide) (by decide)).isFinite

theorem isFinite_neg {value : Float} (h : value.isFinite = true) : (-value).isFinite = true :=
  isFinite_ofModel_pack (bounded_of_isFinite h).neg

theorem bounded_toFloat (word : UInt64) : Bounded 151 word.toFloat.toModel.unpack := by
  refine Bounded.unpack_pack ?_ (by decide) (by decide)
  have hlt : word.toNat < 2 ^ 64 := word.toNat_lt
  show Bounded 151 (UnpackedFloat.normalize Format.binary64 (word.toNat : Int) 0 .positive)
  unfold UnpackedFloat.normalize
  split
  · exact bounded_round _ (by omega)
  · exact .zero _
  · exact bounded_round _ (by omega)

theorem isFinite_ofScientific {number : Nat} (h : number < 2 ^ 64) :
    (Float.ofScientific number false 0).isFinite = true := by
  unfold Float.ofScientific
  split
  · have hone : Bounded 0 (Float.ofBits 0x3FF0000000000000).toModel.unpack :=
      (bounded_unpack (by decide : 0 < 1023) (by decide) (by decide)).mono (by decide)
    refine isFinite_ofModel_pack (bounded_mul (bounded_toFloat number.toUInt64) hone ?_ ?_ ?_)
    · exact Nat.lt_trans
        (Nat.mul_lt_mul_of_lt_of_lt (mantissa_unpack_lt _) (mantissa_unpack_lt _)) (by decide)
    · decide
    · decide
  · refine isFinite_ofModel_pack ?_
    show Bounded 971 (UnpackedFloat.ofScientific Format.binary64 number 0)
    unfold UnpackedFloat.ofScientific
    split
    · exact .zero _
    · have hcapacity : (2 : Int) ^ Format.binary64.exponentBits = 2048 := by decide
      rw [hcapacity, if_neg (by decide), if_neg (by omega), if_pos (by decide)]
      have hfirst : Bounded (-53) (.finite .positive (number <<< 53) (-53) (by
          rw [Nat.shiftLeft_eq]; omega)) := .finite (Int.le_refl _)
      have hsecond : Bounded 0 (.finite .positive (10 ^ 0) 0 (by decide)) := .finite (Int.le_refl _)
      refine bounded_mul hfirst hsecond ?_ (by decide) (by decide)
      calc
        number <<< 53 * 10 ^ 0 = number * 2 ^ 53 := by simp [Nat.shiftLeft_eq]
        _ < 2 ^ 64 * 2 ^ 53 := Nat.mul_lt_mul_of_pos_right h (by decide)
        _ < 2 ^ 128 := by decide

theorem isFinite_nearest (negative : Bool) {number : Nat} (h : number < 2 ^ 64) :
    (nearest negative number 0).isFinite = true := by
  have hcount := digitCount_le h
  have hfar : ¬ (400 : Int) < 0 + digitCount number := by omega
  have hmagnitude :
      (if number = 0 ∨ (0 : Int) + digitCount number < -400 then 0.0
        else nearestMagnitude number 0).isFinite = true := by
    split
    · decide
    · exact isFinite_ofScientific h
  simp only [nearest, hfar, if_false]
  split
  · exact isFinite_neg hmagnitude
  · exact hmagnitude

end Compositor.Decimal
