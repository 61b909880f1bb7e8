import Compositor.Proofs.Decimal.Finite

/-!
# Rounding to doubles

An exact mantissa is cut at its last place, where 53 bits are left or the
exponent is the lowest one, and goes to the nearest mantissa there.  A mantissa
that is rounded up to one more bit is a power of two, and moves up by a place.
-/

namespace Compositor.Decimal

open Float.Model
open Float.Model.UnpackedFloat hiding unpack pack mul neg isFinite ofScientific round normalize sub
  div

/-- A mantissa counts units of a number, and its two bits say how much of a unit is left. -/
structure Cut (number unit rest : Nat) (extended : ExtendedMantissa) : Prop where
  number_eq : number = extended.mantissa * unit + rest
  rest_lt : rest < unit
  roundBit : extended.roundBit = true ↔ unit ≤ 2 * rest
  stickyBit : extended.stickyBit = true ↔ rest ≠ 0 ∧ unit ≠ 2 * rest

namespace Cut

variable {number unit rest : Nat} {extended : ExtendedMantissa}

theorem exact (number : Nat) : Cut number 1 0 (.ofMantissaAndAccuracy number .exact) := by
  constructor <;> simp [ExtendedMantissa.ofMantissaAndAccuracy]

theorem shiftRightOne (h : Cut number unit rest extended) :
    Cut number (2 * unit) (extended.mantissa % 2 * unit + rest) extended.shiftRightOne := by
  obtain ⟨mantissa, roundBit, stickyBit⟩ := extended
  obtain ⟨hnumber, hrest, hround, hsticky⟩ := h
  simp only at hnumber hround hsticky
  have hhalf : mantissa * unit = mantissa / 2 * (2 * unit) + mantissa % 2 * unit := by
    calc
      mantissa * unit = (2 * (mantissa / 2) + mantissa % 2) * unit := by rw [Nat.div_add_mod]
      _ = _ := by ring
  have hbits : stickyBit = true ∨ roundBit = true ↔ rest ≠ 0 := by
    rw [hround, hsticky]
    omega
  constructor
  · show number = mantissa / 2 * (2 * unit) + (mantissa % 2 * unit + rest)
    omega
  · show mantissa % 2 * unit + rest < 2 * unit
    rcases Nat.mod_two_eq_zero_or_one mantissa with hlast | hlast <;> rw [hlast] <;> omega
  · show (mantissa % 2 != 0) = true ↔ 2 * unit ≤ 2 * (mantissa % 2 * unit + rest)
    rw [bne_iff_ne]
    rcases Nat.mod_two_eq_zero_or_one mantissa with hlast | hlast <;> rw [hlast] <;> omega
  · show (roundBit || stickyBit) = true ↔
      mantissa % 2 * unit + rest ≠ 0 ∧ 2 * unit ≠ 2 * (mantissa % 2 * unit + rest)
    rw [Bool.or_eq_true, or_comm, hbits]
    rcases Nat.mod_two_eq_zero_or_one mantissa with hlast | hlast <;> rw [hlast] <;> omega

theorem shiftRight (h : Cut number unit rest extended) (count : Nat) :
    ∃ rest', Cut number (unit * 2 ^ count) rest' (extended >>> count) := by
  show ∃ rest', Cut number _ rest' (count.repeat ExtendedMantissa.shiftRightOne extended)
  induction count with
  | zero => exact ⟨rest, by simpa [Nat.repeat] using h⟩
  | succ count ih =>
      obtain ⟨rest', h'⟩ := ih
      have hunit : unit * 2 ^ (count + 1) = 2 * (unit * 2 ^ count) := by ring
      exact ⟨_, hunit ▸ h'.shiftRightOne⟩

theorem roundedMantissa_cases (h : Cut number unit rest extended) :
    extended.roundedMantissa = extended.mantissa ∧ 2 * rest ≤ unit ∨
      extended.roundedMantissa = extended.mantissa + 1 ∧ unit ≤ 2 * rest := by
  obtain ⟨mantissa, roundBit, stickyBit⟩ := extended
  obtain ⟨-, hrest, hround, hsticky⟩ := h
  simp only at hround hsticky
  cases roundBit <;> cases stickyBit <;>
    simp [ExtendedMantissa.roundedMantissa, ExtendedMantissa.accuracy,
      Accuracy.roundToNearestEven] at hround hsticky ⊢ <;>
    omega

theorem roundedMantissa_near (h : Cut number unit rest extended) :
    2 * (extended.roundedMantissa * unit) ≤ 2 * number + unit ∧
      2 * number ≤ 2 * (extended.roundedMantissa * unit) + unit := by
  have hnumber := h.number_eq
  have hrest := h.rest_lt
  rcases h.roundedMantissa_cases with ⟨hrounded, hhalf⟩ | ⟨hrounded, hhalf⟩ <;>
    rw [hrounded, hnumber]
  · omega
  · rw [Nat.add_mul]
    omega

theorem roundedMantissa_le (h : Cut number unit rest extended) {bound : Nat}
    (hbound : number ≤ bound * unit) : extended.roundedMantissa ≤ bound := by
  have hnumber := h.number_eq
  have hrest := h.rest_lt
  rcases h.roundedMantissa_cases with ⟨hrounded, hhalf⟩ | ⟨hrounded, hhalf⟩ <;> rw [hrounded]
  · refine Nat.le_of_mul_le_mul_right ?_ (Nat.zero_lt_of_lt hrest)
    omega
  · refine Nat.lt_of_mul_lt_mul_right (a := unit) ?_
    omega

theorem roundedMantissa_of_dvd (h : Cut number unit rest extended) (hdvd : unit ∣ number) :
    extended.roundedMantissa * unit = number := by
  have hnumber := h.number_eq
  have hrest := h.rest_lt
  rw [hnumber, Nat.dvd_add_right (Nat.dvd_mul_left _ _)] at hdvd
  have hzero : rest = 0 := Nat.eq_zero_of_dvd_of_lt hdvd hrest
  rcases h.roundedMantissa_cases with ⟨hrounded, -⟩ | ⟨-, hhalf⟩
  · rw [hrounded, hnumber, hzero, Nat.add_zero]
  · omega

end Cut

theorem mantissa_ofMantissaAndAccuracy (number : Nat) (accuracy : Accuracy) :
    (ExtendedMantissa.ofMantissaAndAccuracy number accuracy).mantissa = number := by
  cases accuracy with
  | exact => rfl
  | inexact side => cases side <;> rfl

theorem mantissa_shiftRight_eq (extended : ExtendedMantissa) (count : Nat) :
    (extended >>> count).mantissa = extended.mantissa / 2 ^ count := by
  show (count.repeat ExtendedMantissa.shiftRightOne extended).mantissa = _
  induction count with
  | zero => simp [Nat.repeat]
  | succ count ih =>
      rw [Nat.repeat, ExtendedMantissa.shiftRightOne, ih, Nat.pow_succ, Nat.div_div_eq_div_mul]

theorem le_roundedMantissa (extended : ExtendedMantissa) :
    extended.mantissa ≤ extended.roundedMantissa := by
  unfold ExtendedMantissa.roundedMantissa Accuracy.roundToNearestEven
  split <;> omega

/-! ## The last place -/

/-- Where a mantissa has 53 bits left, or the lowest exponent. -/
def lastPlace (mantissa : Nat) (exponent : Int) : Int :=
  max (mantissa.log2 + exponent - 52) (-1074)

theorem low_lastPlace (mantissa : Nat) (exponent : Int) : -1074 ≤ lastPlace mantissa exponent :=
  le_max_right _ _

theorem targetExponent_eq (mantissa : Nat) (exponent : Int) :
    Format.binary64.targetExponent (totalExponent mantissa exponent) =
      lastPlace mantissa exponent := by
  have hbits : (Format.binary64.mantissaBits : Int) = 53 := by decide
  have hmin : Format.binary64.minExponent = -1074 := by decide
  simp only [Format.targetExponent, totalExponent, hbits, hmin, lastPlace]
  omega

def surplus (mantissa : Nat) (exponent : Int) : Nat := (lastPlace mantissa exponent - exponent).toNat

variable {mantissa : Nat} {exponent : Int}

theorem div_surplus_lt (mantissa : Nat) (exponent : Int) :
    mantissa / 2 ^ surplus mantissa exponent < 2 ^ 53 := by
  have hlog : mantissa < 2 ^ (mantissa.log2 + 1) := Nat.lt_log2_self
  rw [Nat.div_lt_iff_lt_mul (Nat.two_pow_pos _), ← Nat.pow_add]
  refine Nat.lt_of_lt_of_le hlog (Nat.pow_le_pow_right (by decide) ?_)
  unfold surplus lastPlace
  omega

theorem le_div_surplus (hpos : 0 < mantissa) (hplace : exponent ≤ lastPlace mantissa exponent)
    (hhigh : lastPlace mantissa exponent ≠ -1074) :
    2 ^ 52 ≤ mantissa / 2 ^ surplus mantissa exponent := by
  have hlog : 2 ^ mantissa.log2 ≤ mantissa := Nat.log2_self_le (Nat.ne_of_gt hpos)
  rw [Nat.le_div_iff_mul_le (Nat.two_pow_pos _), ← Nat.pow_add]
  refine Nat.le_trans (Nat.pow_le_pow_right (by decide) ?_) hlog
  unfold surplus lastPlace at *
  omega

def finiteOrZero (sign : Sign) (mantissa : Nat) (exponent : Int) : UnpackedFloat :=
  if h : mantissa = 0 then .zero sign else .finite sign mantissa exponent (Nat.pos_of_ne_zero h)

theorem finite_eq_finiteOrZero (sign : Sign) (mantissa : Nat) (exponent : Int)
    (hpos : 0 < mantissa) :
    UnpackedFloat.finite sign mantissa exponent hpos = finiteOrZero sign mantissa exponent := by
  rw [finiteOrZero, dif_neg (Nat.ne_of_gt hpos)]

def settled (sign : Sign) (rounded : Nat) (place : Int) : UnpackedFloat :=
  if rounded = 2 ^ 53 then finiteOrZero sign (2 ^ 52) (place + 1)
  else finiteOrZero sign rounded place

def rounded (mantissa : Nat) (exponent : Int) (accuracy : Accuracy) : Nat :=
  (ExtendedMantissa.ofMantissaAndAccuracy mantissa accuracy >>>
    surplus mantissa exponent).roundedMantissa

theorem exists_cut (mantissa : Nat) (exponent : Int) :
    ∃ rest, Cut mantissa (2 ^ surplus mantissa exponent) rest
      (ExtendedMantissa.ofMantissaAndAccuracy mantissa .exact >>> surplus mantissa exponent) := by
  have hcut := (Cut.exact mantissa).shiftRight (surplus mantissa exponent)
  rwa [Nat.one_mul] at hcut

theorem rounded_le (mantissa : Nat) (exponent : Int) (accuracy : Accuracy) :
    rounded mantissa exponent accuracy ≤ 2 ^ 53 := by
  have hcut := div_surplus_lt mantissa exponent
  refine Nat.le_trans (roundedMantissa_le _) ?_
  rw [mantissa_shiftRight_eq, mantissa_ofMantissaAndAccuracy]
  omega

theorem le_rounded (mantissa : Nat) (exponent : Int) (accuracy : Accuracy) :
    mantissa / 2 ^ surplus mantissa exponent ≤ rounded mantissa exponent accuracy := by
  refine Nat.le_trans (Nat.le_of_eq ?_) (le_roundedMantissa _)
  rw [mantissa_shiftRight_eq, mantissa_ofMantissaAndAccuracy]

theorem surplus_of_le {number : Nat} {place : Int} (hle : number ≤ 2 ^ 53) (hlow : -1074 ≤ place) :
    surplus number place = if number = 2 ^ 53 then 1 else 0 := by
  unfold surplus lastPlace
  split
  · rename_i hfull
    rw [hfull, Nat.log2_two_pow]
    omega
  · rename_i hnot
    have hlog : number.log2 < 53 := by
      by_cases hzero : number = 0
      · simp [hzero]
      · exact (Nat.log2_lt hzero).mpr (by omega)
    omega

theorem shiftToTargetExponent_eq (number : Nat) (place : Int) (accuracy : Accuracy) :
    shiftToTargetExponent Format.binary64 number place accuracy =
      (ExtendedMantissa.ofMantissaAndAccuracy number accuracy >>> surplus number place,
        place + surplus number place) := by
  simp only [shiftToTargetExponent, shiftToExponent, targetExponent_eq, surplus]

theorem roundWithAccuracy_eq (sign : Sign) (accuracy : Accuracy)
    (hplace : exponent ≤ lastPlace mantissa exponent) :
    roundWithAccuracy Format.binary64 sign mantissa exponent accuracy =
      settled sign (rounded mantissa exponent accuracy) (lastPlace mantissa exponent) := by
  -- The second shift is for the carry of the first one, and cuts at most one bit off.
  have hsteps : roundWithAccuracy Format.binary64 sign mantissa exponent accuracy =
      let first := shiftToTargetExponent Format.binary64 mantissa exponent accuracy
      let second := shiftToTargetExponent Format.binary64 first.1.roundedMantissa first.2 .exact
      finiteOrZero sign second.1.mantissa second.2 := rfl
  have hshift : exponent + (surplus mantissa exponent : Int) = lastPlace mantissa exponent := by
    unfold surplus
    omega
  have hcarry := surplus_of_le (rounded_le mantissa exponent accuracy)
    (low_lastPlace mantissa exponent)
  rw [hsteps]
  simp only [shiftToTargetExponent_eq, hshift, mantissa_shiftRight_eq,
    mantissa_ofMantissaAndAccuracy]
  change finiteOrZero sign (rounded mantissa exponent accuracy /
    2 ^ surplus (rounded mantissa exponent accuracy) (lastPlace mantissa exponent))
    (lastPlace mantissa exponent +
      surplus (rounded mantissa exponent accuracy) (lastPlace mantissa exponent)) = _
  rw [hcarry, settled]
  split
  · rename_i hfull
    rw [hfull]
    rfl
  · simp

/-! ## Packing -/

/-- How a number that is not zero is packed: the leading bit is set, unless the exponent is the
lowest. -/
structure Canonical (mantissa : Nat) (exponent : Int) : Prop where
  small : mantissa < 2 ^ 53
  low : -1074 ≤ exponent
  leading : 2 ^ 52 ≤ mantissa ∨ exponent = -1074

/-- What the fields of a double say. -/
inductive Fields (field fraction : Nat) (sign : Sign) : UnpackedFloat → Prop
  | infinity : field = 2047 → fraction = 0 → Fields field fraction sign (.infinity sign)
  | notANumber : field = 2047 → fraction ≠ 0 → Fields field fraction sign .notANumber
  | zero : field = 0 → fraction = 0 → Fields field fraction sign (.zero sign)
  | subnormal {mantissa : Nat} {exponent : Int} {hpos : 0 < mantissa} : field = 0 →
      mantissa = fraction → exponent = -1074 →
      Fields field fraction sign (.finite sign mantissa exponent hpos)
  | normal {mantissa : Nat} {exponent : Int} {hpos : 0 < mantissa} : 0 < field → field < 2047 →
      mantissa = 2 ^ 52 + fraction → exponent = field - 1075 →
      Fields field fraction sign (.finite sign mantissa exponent hpos)

theorem toNat_eq_zero_iff {width : Nat} {bits : BitVec width} : bits.toNat = 0 ↔ bits = 0 :=
  ⟨fun h => BitVec.eq_of_toNat_eq (by simpa using h), fun h => by simp [h]⟩

theorem fields_unpack (bits : BitVec Format.binary64.numBits) :
    Fields (unpackExponent bits).toNat (unpackMantissa bits).toNat
      (Sign.ofBitVec (unpackSign bits)) (UnpackedFloat.unpack Format.binary64 bits) := by
  have hexponent : (unpackExponent bits).toNat < 2 ^ 11 := (unpackExponent bits).isLt
  have happend : (1#1 ++ unpackMantissa bits).toNat = 2 ^ 52 + (unpackMantissa bits).toNat := by
    rw [BitVec.toNat_append, ← Nat.shiftLeft_add_eq_or_of_lt (unpackMantissa bits).isLt]
    rfl
  unfold UnpackedFloat.unpack
  simp only [exponentBias_binary64]
  split
  · rename_i hmark
    have hfield : (unpackExponent bits).toNat = 2047 := by
      have := mt unpackExponent_ne_iff.mpr (not_not.mpr hmark)
      omega
    split
    · rename_i hfraction
      exact .infinity hfield (toNat_eq_zero_iff.mpr hfraction)
    · rename_i hfraction
      exact .notANumber hfield (mt toNat_eq_zero_iff.mp hfraction)
  · rename_i hmark
    have hfield := unpackExponent_ne_iff.mp hmark
    split
    · rename_i hsubnormal
      have hzero := toNat_eq_zero_iff.mpr hsubnormal
      split
      · rename_i hfraction
        exact .zero hzero (toNat_eq_zero_iff.mpr hfraction)
      · rename_i hfraction
        exact .subnormal hzero rfl (by omega)
    · rename_i hnormal
      have hpos := Nat.pos_of_ne_zero (mt toNat_eq_zero_iff.mp hnormal)
      exact .normal hpos hfield happend (by omega)

theorem canonical_of_unpack {bits : BitVec Format.binary64.numBits} {sign : Sign}
    {hpos : 0 < mantissa}
    (h : UnpackedFloat.unpack Format.binary64 bits = .finite sign mantissa exponent hpos) :
    Canonical mantissa exponent ∧ exponent ≤ 971 := by
  have hfields := fields_unpack bits
  have hfraction : (unpackMantissa bits).toNat < 2 ^ 52 := (unpackMantissa bits).isLt
  rw [h] at hfields
  cases hfields with
  | subnormal hfield hmantissa hexponent =>
      exact ⟨⟨by omega, by omega, .inr hexponent⟩, by omega⟩
  | normal hlow hhigh hmantissa hexponent =>
      exact ⟨⟨by omega, by omega, .inl (by omega)⟩, by omega⟩

theorem eq_of_fields {field fraction : Nat} {sign : Sign} {number : UnpackedFloat}
    (h : Fields field fraction sign number) (hpos : 0 < mantissa) (hfield : field < 2047)
    (hnormal : 0 < field → mantissa = 2 ^ 52 + fraction ∧ exponent = field - 1075)
    (hsubnormal : field = 0 → mantissa = fraction ∧ exponent = -1074) :
    number = .finite sign mantissa exponent hpos := by
  cases h with
  | infinity hmark => omega
  | notANumber hmark => omega
  | zero hzero hfraction => have := hsubnormal hzero; omega
  | subnormal hzero hmantissa hexponent =>
      obtain ⟨rfl, rfl⟩ := hsubnormal hzero
      subst hmantissa hexponent
      rfl
  | normal hlow hhigh hmantissa hexponent =>
      obtain ⟨rfl, rfl⟩ := hnormal hlow
      subst hmantissa hexponent
      rfl

theorem unpack_pack {sign : Sign} {hpos : 0 < mantissa} (h : Canonical mantissa exponent)
    (hexponent : exponent ≤ 971) :
    (Float.Model.pack (.finite sign mantissa exponent hpos)).unpack =
      .finite sign mantissa exponent hpos := by
  obtain ⟨hsmall, hlow, hleading⟩ := h
  show UnpackedFloat.unpack Format.binary64
    (UnpackedFloat.pack Format.binary64 (.finite sign mantissa exponent hpos)) = _
  have hcapacity : 2 ^ Format.binary64.exponentBits = 2048 := by decide
  have hfits : ¬ 2048 ≤ (exponent + 1023 + (52 : Nat)).toNat + 1 := by omega
  have hbits : Format.binary64.mantissaBits = 53 := by decide
  have hfields := fields_unpack
    (UnpackedFloat.pack Format.binary64 (.finite sign mantissa exponent hpos))
  simp only [UnpackedFloat.pack, exponentBias_binary64, hcapacity, if_neg hfits, hbits] at hfields ⊢
  split at hfields
  · rename_i hlog
    simp only [unpackExponent_packComponents, unpackMantissa_packComponents,
      unpackSign_packComponents, Sign.ofBitVec_toBitVec, BitVec.toNat_ofNat] at hfields
    rw [if_pos hlog]
    have hle : 2 ^ 52 ≤ mantissa := (Nat.le_log2 (by omega)).mp (by omega)
    have hfield : (exponent + 1023 + (52 : Nat)).toNat % 2 ^ 11 = (exponent + 1075).toNat := by
      omega
    have hfraction : mantissa % 2 ^ 52 = mantissa - 2 ^ 52 := by omega
    rw [hfield, hfraction] at hfields
    exact eq_of_fields hfields hpos (by omega) (fun _ => by omega) (by omega)
  · rename_i hlog
    simp only [unpackExponent_packComponents, unpackMantissa_packComponents,
      unpackSign_packComponents, Sign.ofBitVec_toBitVec, BitVec.toNat_ofNat] at hfields
    rw [if_neg hlog]
    have hle : mantissa < 2 ^ 52 := (Nat.log2_lt (by omega)).mp (by
      have := (Nat.log2_lt (by omega)).mpr hsmall
      omega)
    have hfraction : mantissa % 2 ^ 52 = mantissa := Nat.mod_eq_of_lt hle
    rw [hfraction] at hfields
    exact eq_of_fields hfields hpos (by simp) (by simp) (by omega)

theorem exists_settled_eq (sign : Sign) {rounded : Nat} {place : Int} (hpos : 0 < rounded)
    (hle : rounded ≤ 2 ^ 53) (hlow : -1074 ≤ place)
    (hleading : 2 ^ 52 ≤ rounded ∨ place = -1074) :
    ∃ mantissa exponent hpos', Canonical mantissa exponent ∧
      settled sign rounded place = .finite sign mantissa exponent hpos' ∧
      (mantissa = rounded ∧ exponent = place ∨
        rounded = 2 ^ 53 ∧ mantissa = 2 ^ 52 ∧ exponent = place + 1) := by
  unfold settled
  split
  · rename_i hfull
    have hone : 0 < 2 ^ 52 := by decide
    exact ⟨2 ^ 52, place + 1, hone, ⟨by decide, by omega, .inl (by decide)⟩,
      (finite_eq_finiteOrZero _ _ _ hone).symm, .inr ⟨hfull, rfl, rfl⟩⟩
  · exact ⟨rounded, place, hpos, ⟨by omega, hlow, hleading⟩,
      (finite_eq_finiteOrZero _ _ _ hpos).symm, .inl ⟨rfl, rfl⟩⟩

theorem leading_rounded (hpos : 0 < mantissa) (hplace : exponent ≤ lastPlace mantissa exponent)
    (accuracy : Accuracy) :
    2 ^ 52 ≤ rounded mantissa exponent accuracy ∨ lastPlace mantissa exponent = -1074 := by
  by_cases hlow : lastPlace mantissa exponent = -1074
  · exact .inr hlow
  · exact .inl (Nat.le_trans (le_div_surplus hpos hplace hlow) (le_rounded _ _ _))

theorem rounded_pos (hpos : 0 < mantissa) (hlow : -1074 ≤ exponent)
    (hplace : exponent ≤ lastPlace mantissa exponent) (accuracy : Accuracy) :
    0 < rounded mantissa exponent accuracy := by
  rcases leading_rounded hpos hplace accuracy with hleading | hlowest
  · omega
  · have hle := le_rounded mantissa exponent accuracy
    have hsurplus : surplus mantissa exponent = 0 := by
      unfold surplus
      omega
    rw [hsurplus, Nat.pow_zero, Nat.div_one] at hle
    omega

end Compositor.Decimal
