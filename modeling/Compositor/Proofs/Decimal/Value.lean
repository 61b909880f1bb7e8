import Compositor.Proofs.Decimal.Operations
import Compositor.Proofs.Decimal.Zeros
import Compositor.Quantity

/-!
# Exact values

What doubles stand for, and how far off whole milliseconds are.  The product
with a thousand is off by a 2^53th of itself, rounding to a whole number by half
a millisecond, and 64 bits hold no more than the longest delay.
-/

namespace Compositor.Decimal

open Float.Model
open Float.Model.UnpackedFloat hiding unpack pack mul neg isFinite ofScientific round normalize sub
  div

/-- What is not finite counts as zero. -/
def value (number : Float) : ℚ :=
  match number.toModel.unpack with
  | .finite sign mantissa exponent _ => (sign.apply mantissa : ℚ) * 2 ^ exponent
  | .zero _ | .infinity _ | .notANumber => 0

variable {number : Float} {mantissa : Nat} {exponent : Int} {hpos : 0 < mantissa}

theorem value_of_unpack (h : number.toModel.unpack = .finite .positive mantissa exponent hpos) :
    value number = mantissa * 2 ^ exponent := by
  rw [value, h]
  simp [Sign.apply]

theorem value_of_isZero (h : IsZero number) : value number = 0 := by
  obtain ⟨sign, hunpack⟩ := isZero_iff_unpack.mp h
  rw [value, hunpack]

def sign (number : Float) : Sign :=
  Sign.ofBitVec (@unpackSign Format.binary64 number.toModel.toBits.toBitVec)

theorem signBit_toBits (h : sign number = .positive) : signBit number.toBits.toNat = false := by
  have hzero : @unpackSign Format.binary64 number.toModel.toBits.toBitVec = 0#1 := by
    by_contra hone
    rw [sign, Sign.ofBitVec, if_neg hone] at h
    cases h
  have hbit : (BitVec.extractLsb' 63 1 number.toBits.toBitVec).toNat = 0 := by
    rw [unpackSign_def] at hzero
    exact congrArg BitVec.toNat hzero
  rw [BitVec.extractLsb'_toNat, Nat.shiftRight_eq_div_pow] at hbit
  refine decide_eq_false fun hone => ?_
  rw [show number.toBits.toNat / Nat.pow 2 63 % 2 = 0 from hbit] at hone
  cases hone

theorem fields_toBits (number : Float) :
    Fields (exponentField number.toBits.toNat) (fractionField number.toBits.toNat) (sign number)
      number.toModel.unpack := by
  have hexponent : exponentField number.toBits.toNat =
      (@unpackExponent Format.binary64 number.toModel.toBits.toBitVec).toNat := by
    rw [unpackExponent_def]
    show _ = (BitVec.extractLsb' 52 11 number.toBits.toBitVec).toNat
    rw [BitVec.extractLsb'_toNat, Nat.shiftRight_eq_div_pow]
    rfl
  have hfraction : fractionField number.toBits.toNat =
      (@unpackMantissa Format.binary64 number.toModel.toBits.toBitVec).toNat := by
    rw [unpackMantissa_def]
    show _ = (BitVec.extractLsb' 0 52 number.toBits.toBitVec).toNat
    rw [BitVec.extractLsb'_toNat, Nat.shiftRight_zero]
    rfl
  rw [hexponent, hfraction]
  exact fields_unpack number.toModel.toBits.toBitVec

theorem exists_decodeBits_eq {bits field fraction : Nat} (hsign : signBit bits = false)
    (hfield : exponentField bits = field) (hfraction : fractionField bits = fraction)
    (h : Fields field fraction .positive (.finite .positive mantissa exponent hpos)) :
    ∃ narrow, decodeBits bits = .finite false ⟨mantissa, exponent, narrow⟩ := by
  rw [decodeBits, hsign, hfield, hfraction]
  cases h with
  | subnormal hzero hmantissa hexponent =>
      subst hzero hmantissa hexponent
      exact ⟨false, if_neg (Nat.ne_of_gt hpos)⟩
  | normal hlow hhigh hmantissa hexponent =>
      obtain ⟨below, rfl⟩ := Nat.exists_eq_succ_of_ne_zero (Nat.ne_of_gt hlow)
      have hplace : (below : Int) - 1074 = exponent := by omega
      subst hplace hmantissa
      refine ⟨decide (fraction = 0 ∧ 0 < below), ?_⟩
      split
      · omega
      · rename_i hbelow
        cases hbelow
      · rename_i hbelow
        cases hbelow
        rfl

theorem exists_decode_eq (h : number.toModel.unpack = .finite .positive mantissa exponent hpos) :
    ∃ narrow, decode number = .finite false ⟨mantissa, exponent, narrow⟩ := by
  have hfields := fields_toBits number
  rw [h] at hfields
  have hsign : sign number = .positive := by
    generalize sign number = sign at hfields
    cases hfields <;> rfl
  rw [hsign] at hfields
  exact exists_decodeBits_eq (signBit_toBits hsign) rfl rfl hfields

theorem nearest_div_near (number : Nat) {unit : Nat} (hunit : 0 < unit) :
    |(((2 * number + unit) / (2 * unit) : Nat) : ℚ) - number / unit| ≤ 1 / 2 := by
  have hdouble : 0 < 2 * unit := by omega
  have hlow := Nat.div_mul_le_self (2 * number + unit) (2 * unit)
  have hhigh : 2 * number + unit < (2 * number + unit) / (2 * unit) * (2 * unit) + 2 * unit :=
    Nat.lt_div_mul_add hdouble
  generalize (2 * number + unit) / (2 * unit) = whole at hlow hhigh ⊢
  have hlow' : (whole : ℚ) * (2 * unit) ≤ 2 * number + unit := by exact_mod_cast hlow
  have hhigh' : (2 : ℚ) * number + unit < whole * (2 * unit) + 2 * unit := by exact_mod_cast hhigh
  have hpos : (0 : ℚ) < unit := by exact_mod_cast hunit
  rw [abs_le]
  constructor
  · rw [neg_le_sub_iff_le_add, div_le_iff₀ hpos]
    linarith
  · rw [sub_le_iff_le_add', ← sub_le_iff_le_add, le_div_iff₀ hpos]
    linarith

theorem nearestWhole_near (magnitude : Magnitude) :
    |(magnitude.nearestWhole : ℚ) - magnitude.mantissa * 2 ^ magnitude.exponent| ≤ 1 / 2 := by
  obtain ⟨mantissa, exponent, narrow⟩ := magnitude
  cases exponent with
  | ofNat shift =>
      have hexact : ((mantissa * 2 ^ shift : Nat) : ℚ) = mantissa * 2 ^ (shift : Int) := by
        push_cast
        rw [zpow_natCast]
      have hwhole : Magnitude.nearestWhole ⟨mantissa, .ofNat shift, narrow⟩ = mantissa * 2 ^ shift :=
        rfl
      rw [hwhole, hexact, Int.ofNat_eq_natCast, sub_self, abs_zero]
      norm_num
  | negSucc shift =>
      have hwhole : Magnitude.nearestWhole ⟨mantissa, .negSucc shift, narrow⟩ =
        (2 * mantissa + 2 ^ (shift + 1)) / (2 * 2 ^ (shift + 1)) := rfl
      have hcast : (2 : ℚ) ^ (shift + 1) = (2 ^ (shift + 1) : Nat) := by
        push_cast
        rfl
      rw [hwhole, zpow_negSucc, hcast, ← div_eq_mul_inv]
      exact nearest_div_near mantissa (Nat.two_pow_pos _)

def largestWord : ℚ := 2 ^ 64 - 1

theorem nearestWord_near (h : number.toModel.unpack = .finite .positive mantissa exponent hpos) :
    |(nearestWord number : ℚ) - min ((mantissa : ℚ) * 2 ^ exponent) largestWord| ≤ 1 / 2 := by
  obtain ⟨narrow, hdecode⟩ := exists_decode_eq h
  have hword : (nearestWord number : ℚ) =
      min (Magnitude.nearestWhole ⟨mantissa, exponent, narrow⟩ : ℚ) largestWord := by
    unfold nearestWord largestWord
    rw [hdecode]
    push_cast
    norm_num
  rw [hword]
  refine (abs_min_sub_min_le_max _ _ _ _).trans (max_le ?_ ?_)
  · exact nearestWhole_near ⟨mantissa, exponent, narrow⟩
  · rw [sub_self, abs_zero]
    norm_num

theorem pack_of_large {sign : Sign} (hexponent : 971 < exponent) :
    Float.Model.pack (.finite sign mantissa exponent hpos) = Float.Model.pack (.infinity sign) := by
  have hlarge : 2 ^ Format.binary64.exponentBits ≤
      (exponent + Format.binary64.exponentBias +
        Format.binary64.mantissaBitsWithoutImplicit).toNat + 1 := by
    have hcapacity : 2 ^ Format.binary64.exponentBits = 2048 := by decide
    have hbits : (Format.binary64.mantissaBitsWithoutImplicit : Int) = 52 := by decide
    rw [hcapacity, exponentBias_binary64, hbits]
    omega
  have hpack : UnpackedFloat.pack Format.binary64 (.finite sign mantissa exponent hpos) =
      UnpackedFloat.pack Format.binary64 (.infinity sign) := if_pos hlarge
  unfold Float.Model.pack
  congr 2

theorem largestWord_le_of_large (h : Canonical mantissa exponent) (hexponent : 971 < exponent) :
    largestWord ≤ mantissa * 2 ^ exponent := by
  have hleading : (2 ^ 52 : ℚ) ≤ mantissa := by exact_mod_cast h.leading.resolve_right (by omega)
  calc
    largestWord ≤ 2 ^ 52 * 2 ^ (12 : Int) := by
      unfold largestWord
      norm_num
    _ ≤ mantissa * 2 ^ exponent := by
      refine mul_le_mul hleading (zpow_le_zpow_right₀ (by norm_num) (by omega)) ?_ ?_ <;> positivity

theorem nearestWord_pack_near (hpos : 0 < mantissa) (h : Canonical mantissa exponent) :
    |(nearestWord (Float.ofModel (Float.Model.pack (.finite .positive mantissa exponent hpos))) : ℚ)
      - min ((mantissa : ℚ) * 2 ^ exponent) largestWord| ≤ 1 / 2 := by
  by_cases hexponent : exponent ≤ 971
  · exact nearestWord_near (unpack_pack h hexponent)
  · have hlarge : 971 < exponent := by omega
    have hword : nearestWord (Float.ofModel (Float.Model.pack (.infinity .positive))) = 2 ^ 64 - 1 :=
      by decide
    rw [pack_of_large hlarge, hword, min_eq_right (largestWord_le_of_large h hlarge), largestWord]
    norm_num

theorem rounded_near (mantissa : Nat) (exponent : Int) :
    |(rounded mantissa exponent .exact : ℚ) * 2 ^ surplus mantissa exponent - mantissa| ≤
      2 ^ surplus mantissa exponent / 2 := by
  obtain ⟨rest, hcut⟩ := exists_cut mantissa exponent
  obtain ⟨hhigh, hlow⟩ := hcut.roundedMantissa_near
  change 2 * (rounded mantissa exponent .exact * _) ≤ _ at hhigh
  change _ ≤ 2 * (rounded mantissa exponent .exact * _) + _ at hlow
  have hhigh' : (2 : ℚ) * (rounded mantissa exponent .exact * 2 ^ surplus mantissa exponent) ≤
      2 * mantissa + 2 ^ surplus mantissa exponent := by exact_mod_cast hhigh
  have hlow' : (2 : ℚ) * mantissa ≤
      2 * (rounded mantissa exponent .exact * 2 ^ surplus mantissa exponent) +
        2 ^ surplus mantissa exponent := by exact_mod_cast hlow
  rw [abs_le]
  constructor <;> linarith

theorem rounded_of_dvd (h : 2 ^ surplus mantissa exponent ∣ mantissa) :
    rounded mantissa exponent .exact * 2 ^ surplus mantissa exponent = mantissa := by
  obtain ⟨rest, hcut⟩ := exists_cut mantissa exponent
  exact hcut.roundedMantissa_of_dvd h

theorem rounded_near_relative (h : 2 ^ (surplus mantissa exponent + 52) ≤ mantissa ∨
      2 ^ surplus mantissa exponent ∣ mantissa) :
    |(rounded mantissa exponent .exact : ℚ) * 2 ^ surplus mantissa exponent - mantissa| ≤
      mantissa / 2 ^ 53 := by
  rcases h with hfull | hdvd
  · have hfull' : (2 : ℚ) ^ surplus mantissa exponent * 2 ^ 52 ≤ mantissa := by
      rw [← pow_add]
      exact_mod_cast hfull
    refine (rounded_near mantissa exponent).trans ?_
    rw [le_div_iff₀ (by norm_num)]
    linarith
  · have hexact : (rounded mantissa exponent .exact : ℚ) * 2 ^ surplus mantissa exponent =
        mantissa := by exact_mod_cast rounded_of_dvd hdvd
    rw [hexact, sub_self, abs_zero]
    positivity

theorem unpack_thousand :
    (1000.0 : Float).toModel.unpack = .finite .positive (1000 * 2 ^ 43) (-43) (by decide) := rfl

/-- The exact product with a thousand is `millis mantissa * 2 ^ (exponent - 43)`. -/
def millis (mantissa : Nat) : Nat := mantissa * (1000 * 2 ^ 43)

theorem le_log2_millis (hpos : 0 < mantissa) : 52 ≤ (millis mantissa).log2 := by
  have hle : 1000 * 2 ^ 43 ≤ millis mantissa := Nat.le_mul_of_pos_left _ hpos
  rw [Nat.le_log2 (by omega)]
  omega

theorem le_lastPlace_millis (hpos : 0 < mantissa) (exponent : Int) :
    exponent ≤ lastPlace (millis mantissa) exponent := by
  have hlog := le_log2_millis hpos
  unfold lastPlace
  omega

theorem surplus_millis (hpos : 0 < mantissa) (hlow : -1074 ≤ exponent) :
    2 ^ (surplus (millis mantissa) (exponent + -43) + 52) ≤ millis mantissa ∨
      2 ^ surplus (millis mantissa) (exponent + -43) ∣ millis mantissa := by
  have hlog := le_log2_millis hpos
  -- At the lowest place the product may have few bits, but all that is cut off is zero.
  by_cases hplace : lastPlace (millis mantissa) (exponent + -43) = -1074
  · right
    have hle : surplus (millis mantissa) (exponent + -43) ≤ 43 := by
      unfold surplus
      omega
    exact ((pow_dvd_pow 2 hle).trans (Nat.dvd_mul_left _ 1000)).trans (Nat.dvd_mul_left _ mantissa)
  · left
    have hsurplus : surplus (millis mantissa) (exponent + -43) + 52 = (millis mantissa).log2 := by
      unfold surplus
      unfold lastPlace at hplace ⊢
      omega
    rw [hsurplus]
    exact Nat.log2_self_le (Nat.ne_of_gt (Nat.mul_pos hpos (by decide)))

theorem mul_thousand_eq (h : number.toModel.unpack = .finite .positive mantissa exponent hpos) :
    number * 1000.0 = Float.ofModel (Float.Model.pack (settled .positive
      (rounded (millis mantissa) (exponent + -43) .exact)
      (lastPlace (millis mantissa) (exponent + -43)))) := by
  rw [mul_eq, h, unpack_thousand, ← roundWithAccuracy_eq .positive .exact (le_lastPlace_millis hpos _)]
  rfl

theorem value_settled {rounded mantissa' : Nat} {place exponent' : Int}
    (h : mantissa' = rounded ∧ exponent' = place ∨
      rounded = 2 ^ 53 ∧ mantissa' = 2 ^ 52 ∧ exponent' = place + 1) :
    (mantissa' : ℚ) * 2 ^ exponent' = rounded * 2 ^ place := by
  rcases h with ⟨rfl, rfl⟩ | ⟨rfl, rfl, rfl⟩
  · rfl
  · rw [zpow_add_one₀ (by norm_num)]
    push_cast
    ring

theorem value_millis (h : number.toModel.unpack = .finite .positive mantissa exponent hpos) :
    (millis mantissa : ℚ) * 2 ^ (exponent + -43) = 1000 * value number := by
  have hshift : (2 : ℚ) ^ (-43 : Int) * 2 ^ 43 = 1 := by norm_num
  rw [value_of_unpack h, zpow_add₀ (by norm_num), millis]
  push_cast
  linear_combination (1000 * (mantissa : ℚ) * 2 ^ exponent) * hshift

theorem exists_mul_thousand_eq
    (h : number.toModel.unpack = .finite .positive mantissa exponent hpos) :
    ∃ mantissa' exponent' hpos', Canonical mantissa' exponent' ∧
      number * 1000.0 =
        Float.ofModel (Float.Model.pack (.finite .positive mantissa' exponent' hpos')) ∧
      |(mantissa' : ℚ) * 2 ^ exponent' - 1000 * value number| ≤ 1000 * value number / 2 ^ 53 := by
  obtain ⟨hcanonical, -⟩ := canonical_of_unpack h
  have hmillis : 0 < millis mantissa := Nat.mul_pos hpos (by decide)
  have hplace := le_lastPlace_millis hpos (exponent + -43)
  have hfull := surplus_millis hpos hcanonical.low
  have hunit : 2 ^ surplus (millis mantissa) (exponent + -43) ≤ millis mantissa := by
    rcases hfull with hfull | hdvd
    · exact (Nat.pow_le_pow_right (by decide) (Nat.le_add_right _ _)).trans hfull
    · exact Nat.le_of_dvd hmillis hdvd
  have hrounded : 0 < rounded (millis mantissa) (exponent + -43) .exact :=
    (Nat.div_pos hunit (Nat.two_pow_pos _)).trans_le (le_rounded _ _ _)
  obtain ⟨mantissa', exponent', hpos', hcanonical', hsettled, hnumber⟩ :=
    exists_settled_eq .positive hrounded (rounded_le _ _ _) (low_lastPlace _ _)
      (leading_rounded hmillis hplace _)
  refine ⟨mantissa', exponent', hpos', hcanonical', by rw [mul_thousand_eq h, hsettled], ?_⟩
  have hshift : lastPlace (millis mantissa) (exponent + -43) =
      surplus (millis mantissa) (exponent + -43) + (exponent + -43) := by
    unfold surplus
    omega
  have hpower : (0 : ℚ) < 2 ^ (exponent + -43) := by positivity
  rw [value_settled hnumber, hshift, zpow_add₀ (by norm_num), zpow_natCast, ← mul_assoc,
    ← value_millis h, ← sub_mul, abs_mul, abs_of_pos hpower, mul_div_right_comm]
  exact mul_le_mul_of_nonneg_right (rounded_near_relative hfull) hpower.le

/-- Milliseconds are the nearest ones to seconds, up to the longest time of 64 bits. -/
theorem wholeMillis_near (h : number.toModel.unpack = .finite .positive mantissa exponent hpos) :
    |(nearestWord (number * 1000.0) : ℚ) - min (1000 * value number) largestWord| ≤
      1 / 2 + 1000 * value number / 2 ^ 53 := by
  obtain ⟨mantissa', exponent', hpos', hcanonical, hproduct, hnear⟩ := exists_mul_thousand_eq h
  have hword := nearestWord_pack_near hpos' hcanonical
  have hmin : |min ((mantissa' : ℚ) * 2 ^ exponent') largestWord -
      min (1000 * value number) largestWord| ≤ 1000 * value number / 2 ^ 53 := by
    refine (abs_min_sub_min_le_max _ _ _ _).trans (max_le hnear ?_)
    rw [sub_self, abs_zero]
    exact (abs_nonneg _).trans hnear
  rw [hproduct]
  exact (abs_sub_le _ _ _).trans (add_le_add hword hmin)

end Compositor.Decimal
