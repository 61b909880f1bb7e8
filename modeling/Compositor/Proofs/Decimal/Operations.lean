import Compositor.Proofs.Decimal.Rounding

/-!
# Results of operations on doubles

Differences and halves of finite numbers without a sign are finite, and so is
all that is at most the largest double.  Sums may overflow, but have no sign
either.  Half of a number is only zero if the number is the smallest one.
-/

namespace Compositor.Decimal

open Float.Model
open Float.Model.UnpackedFloat hiding unpack pack mul neg isFinite ofScientific round normalize sub
  div

variable {mantissa : Nat} {exponent : Int}

theorem bounded_finiteOrZero {bound : Int} (sign : Sign) (mantissa : Nat) (h : exponent ≤ bound) :
    Bounded bound (finiteOrZero sign mantissa exponent) := by
  unfold finiteOrZero
  split
  · exact .zero sign
  · exact .finite h

theorem bounded_settled (sign : Sign) {rounded : Nat} {place : Int} (hplace : place ≤ 971)
    (hcarry : rounded = 2 ^ 53 → place ≤ 970) : Bounded 971 (settled sign rounded place) := by
  unfold settled
  split
  · rename_i hfull
    exact bounded_finiteOrZero _ _ (by have := hcarry hfull; omega)
  · exact bounded_finiteOrZero _ _ hplace

theorem bounded_roundWithAccuracy_exact (sign : Sign)
    (hplace : exponent ≤ lastPlace mantissa exponent) (hexponent : exponent ≤ 971)
    (hle : mantissa ≤ (2 ^ 53 - 1) * 2 ^ (971 - exponent).toNat) :
    Bounded 971 (roundWithAccuracy Format.binary64 sign mantissa exponent .exact) := by
  rw [roundWithAccuracy_eq sign .exact hplace]
  have hlog : mantissa.log2 < 53 + (971 - exponent).toNat := by
    by_cases hzero : mantissa = 0
    · simp [hzero]
    · refine (Nat.log2_lt hzero).mpr (Nat.lt_of_le_of_lt hle ?_)
      rw [Nat.pow_add]
      exact Nat.mul_lt_mul_of_pos_right (by decide) (Nat.two_pow_pos _)
  have hhigh : lastPlace mantissa exponent ≤ 971 := by
    unfold lastPlace
    omega
  refine bounded_settled sign hhigh fun hfull => ?_
  by_contra hlast
  have hsurplus : surplus mantissa exponent = (971 - exponent).toNat := by
    unfold surplus
    omega
  obtain ⟨rest, hcut⟩ := exists_cut mantissa exponent
  have hrounded : rounded mantissa exponent .exact ≤ 2 ^ 53 - 1 :=
    hcut.roundedMantissa_le (hsurplus ▸ hle)
  omega

theorem log2_mul_two_pow (hpos : 0 < mantissa) (count : Nat) :
    (mantissa * 2 ^ count).log2 = mantissa.log2 + count := by
  induction count with
  | zero => simp
  | succ count ih =>
      have hne : mantissa * 2 ^ count ≠ 0 :=
        Nat.mul_ne_zero (Nat.ne_of_gt hpos) (Nat.ne_of_gt (Nat.two_pow_pos count))
      rw [Nat.pow_succ, ← Nat.mul_assoc, Nat.mul_comm _ 2, Nat.log2_two_mul hne, ih]
      rfl

theorem round_eq (sign : Sign) (mantissa : Nat) (exponent : Int) :
    UnpackedFloat.round Format.binary64 sign mantissa exponent =
      let count := (exponent - lastPlace mantissa exponent).toNat
      roundWithAccuracy Format.binary64 sign (mantissa * 2 ^ count) (exponent - count) .exact := by
  unfold UnpackedFloat.round decreaseExponent
  simp only [targetExponent_eq, Nat.shiftLeft_eq]

theorem lastPlace_fill (hpos : 0 < mantissa) (exponent : Int) (count : Nat) :
    lastPlace (mantissa * 2 ^ count) (exponent - count) = lastPlace mantissa exponent := by
  unfold lastPlace
  rw [log2_mul_two_pow hpos]
  omega

theorem bounded_round_exact (sign : Sign) (hpos : 0 < mantissa) (hexponent : exponent ≤ 971)
    (hle : mantissa ≤ (2 ^ 53 - 1) * 2 ^ (971 - exponent).toNat) :
    Bounded 971 (UnpackedFloat.round Format.binary64 sign mantissa exponent) := by
  rw [round_eq]
  generalize hcount : (exponent - lastPlace mantissa exponent).toNat = count
  refine bounded_roundWithAccuracy_exact sign ?_ (by omega) ?_
  · rw [lastPlace_fill hpos]
    omega
  · have hpower : (971 - (exponent - count)).toNat = (971 - exponent).toNat + count := by omega
    rw [hpower, Nat.pow_add, ← Nat.mul_assoc]
    exact Nat.mul_le_mul_right _ hle

theorem bounded_normalize {difference : Int} (zeroSign : Sign) (hexponent : exponent ≤ 971)
    (hle : difference.natAbs ≤ (2 ^ 53 - 1) * 2 ^ (971 - exponent).toNat) :
    Bounded 971 (UnpackedFloat.normalize Format.binary64 difference exponent zeroSign) := by
  unfold UnpackedFloat.normalize
  split
  · rename_i hsign
    have hneg := Int.compare_eq_lt.mp hsign
    exact bounded_round_exact _ (by omega) hexponent (by omega)
  · exact .zero _
  · rename_i hsign
    have hpos := Int.compare_eq_gt.mp hsign
    exact bounded_round_exact _ (by omega) hexponent (by omega)

/-- A number without a sign, unless it is zero. -/
inductive Unsigned : UnpackedFloat → Prop
  | zero (sign : Sign) : Unsigned (.zero sign)
  | finite {mantissa : Nat} {exponent : Int} {hpos : 0 < mantissa} (h : Canonical mantissa exponent)
      (hexponent : exponent ≤ 971) : Unsigned (.finite .positive mantissa exponent hpos)

theorem le_at_lower_place (h : Canonical mantissa exponent) (hexponent : exponent ≤ 971)
    {lower : Int} (hlower : lower ≤ exponent) :
    mantissa <<< (exponent - lower).toNat ≤ (2 ^ 53 - 1) * 2 ^ (971 - lower).toNat := by
  have hpower : (971 - lower).toNat = (971 - exponent).toNat + (exponent - lower).toNat := by omega
  have hsmall : mantissa ≤ 2 ^ 53 - 1 := Nat.le_sub_one_of_lt h.small
  rw [Nat.shiftLeft_eq, hpower, Nat.pow_add, ← Nat.mul_assoc]
  refine Nat.mul_le_mul_right _ (Nat.le_trans hsmall ?_)
  exact Nat.le_mul_of_pos_right _ (Nat.two_pow_pos _)

theorem bounded_sub {first second : UnpackedFloat} (hfirst : Unsigned first)
    (hsecond : Unsigned second) :
    Bounded 971 (UnpackedFloat.sub Format.binary64 first second) := by
  cases hfirst with
  | zero sign =>
      cases hsecond with
      | zero sign' =>
          unfold UnpackedFloat.sub
          dsimp only
          split <;> exact .zero _
      | finite h hexponent => exact .finite hexponent
  | @finite mantissa exponent hpos h hexponent =>
      cases hsecond with
      | zero sign => exact .finite hexponent
      | @finite mantissa' exponent' hpos' h' hexponent' =>
          have hle := le_at_lower_place h hexponent (Int.min_le_left exponent exponent')
          have hle' := le_at_lower_place h' hexponent' (Int.min_le_right exponent exponent')
          refine bounded_normalize _ (by omega) ?_
          simp only [Sign.apply]
          generalize mantissa <<< _ = number, mantissa' <<< _ = number', (2 ^ 53 - 1) * 2 ^ _ = bound
            at hle hle' ⊢
          omega

theorem exists_add_eq {first second : UnpackedFloat} (hfirst : Unsigned first)
    {hpos : 0 < mantissa} (hsecond : second = .finite .positive mantissa exponent hpos) :
    ∃ mantissa' exponent',
      UnpackedFloat.add Format.binary64 first second = finiteOrZero .positive mantissa' exponent' := by
  subst hsecond
  cases hfirst with
  | zero sign => exact ⟨mantissa, exponent, finite_eq_finiteOrZero _ _ _ _⟩
  | @finite number place hnumber h hexponent =>
      have hshift : 0 < mantissa <<< (exponent - min place exponent).toNat := by
        rw [Nat.shiftLeft_eq]
        exact Nat.mul_pos hpos (Nat.two_pow_pos _)
      simp only [UnpackedFloat.add, decreaseExponent, Sign.apply, UnpackedFloat.normalize]
      generalize mantissa <<< _ = low, number <<< _ = high at hshift ⊢
      rw [Int.compare_eq_gt.mpr (by omega)]
      exact ⟨_, _, rfl⟩

theorem sign_pack (sign : Sign) (mantissa : Nat) (exponent : Int) (hpos : 0 < mantissa) :
    Sign.ofBitVec (unpackSign (UnpackedFloat.pack Format.binary64
      (.finite sign mantissa exponent hpos))) = sign := by
  simp only [UnpackedFloat.pack, packedInfinity]
  split
  · rw [unpackSign_packComponents, Sign.ofBitVec_toBitVec]
  · split <;> rw [unpackSign_packComponents, Sign.ofBitVec_toBitVec]

theorem unsigned_unpack {bits : BitVec Format.binary64.numBits}
    (hsign : Sign.ofBitVec (unpackSign bits) = .positive)
    (hfinite : (UnpackedFloat.unpack Format.binary64 bits).isFinite = true) :
    Unsigned (UnpackedFloat.unpack Format.binary64 bits) := by
  have hfields := fields_unpack bits
  rw [hsign] at hfields
  generalize hunpack : UnpackedFloat.unpack Format.binary64 bits = number at *
  cases hfields with
  | infinity => cases hfinite
  | notANumber => cases hfinite
  | zero => exact .zero .positive
  | subnormal | normal =>
      obtain ⟨hcanonical, hexponent⟩ := canonical_of_unpack hunpack
      exact .finite hcanonical hexponent

theorem unsigned_unpack_pack {mantissa : Nat} {exponent : Int}
    (h : (Float.Model.pack (finiteOrZero .positive mantissa exponent)).isFinite = true) :
    Unsigned (Float.Model.pack (finiteOrZero .positive mantissa exponent)).unpack := by
  rcases Nat.eq_zero_or_pos mantissa with rfl | hpos
  · rw [finiteOrZero, dif_pos rfl]
    exact Unsigned.zero .positive
  · rw [← finite_eq_finiteOrZero _ _ _ hpos] at h ⊢
    exact unsigned_unpack (sign_pack _ _ _ hpos) h

theorem unpack_two : (2.0 : Float).toModel.unpack = .finite .positive (2 ^ 52) (-51) (by decide) :=
  rfl

def halfPlace (mantissa : Nat) (exponent : Int) : Int := max (mantissa.log2 + exponent - 54) (-1074)

def halfMantissa (mantissa : Nat) (exponent : Int) : Nat :=
  mantissa * 2 ^ (exponent + 51 - halfPlace mantissa exponent).toNat / 2 ^ 52

theorem divCore_two (hlog : mantissa.log2 < 53) (hlow : -1074 ≤ exponent) :
    divCore Format.binary64 mantissa exponent (2 ^ 52) (-51) =
      (halfMantissa mantissa exponent, halfPlace mantissa exponent,
        (divCore Format.binary64 mantissa exponent (2 ^ 52) (-51)).2.2) := by
  have hexponent : exponent - -51 = exponent + 51 := by omega
  have htarget : min (exponent + 51) (Format.binary64.targetExponent
      (totalExponent mantissa exponent - totalExponent (2 ^ 52) (-51))) =
        halfPlace mantissa exponent := by
    have hbits : (Format.binary64.mantissaBits : Int) = 53 := by decide
    have hmin : Format.binary64.minExponent = -1074 := by decide
    simp only [Format.targetExponent, hbits, hmin, halfPlace, totalExponent, Nat.log2_two_pow]
    omega
  simp only [divCore, hexponent, htarget, Nat.shiftLeft_eq, halfMantissa]

theorem div_two_eq (h : Canonical mantissa exponent) (hpos : 0 < mantissa) :
    UnpackedFloat.div Format.binary64 (.finite .positive mantissa exponent hpos)
        (.finite .positive (2 ^ 52) (-51) (by decide)) =
      roundWithAccuracy Format.binary64 .positive (halfMantissa mantissa exponent)
        (halfPlace mantissa exponent)
        (divCore Format.binary64 mantissa exponent (2 ^ 52) (-51)).2.2 := by
  have hlog : mantissa.log2 < 53 := (Nat.log2_lt (Nat.ne_of_gt hpos)).mpr h.small
  rw [UnpackedFloat.div, divCore_two hlog h.low]
  rfl

theorem halfMantissa_pos (h : Canonical mantissa exponent) (hlarge : mantissa ≠ 1 ∨ exponent ≠ -1074)
    (hpos : 0 < mantissa) : 0 < halfMantissa mantissa exponent := by
  refine Nat.div_pos ?_ (Nat.two_pow_pos 52)
  rcases h.leading with hleading | hlowest
  · exact Nat.le_trans hleading (Nat.le_mul_of_pos_right _ (Nat.two_pow_pos _))
  · have hlog : mantissa.log2 < 53 := (Nat.log2_lt (Nat.ne_of_gt hpos)).mpr h.small
    have hplace : halfPlace mantissa exponent = -1074 := by
      unfold halfPlace
      omega
    rw [hplace, hlowest]
    have htwo : 2 ≤ mantissa := by omega
    exact Nat.mul_le_mul_right (2 ^ 51) htwo

theorem half_cases (h : Canonical mantissa exponent) (hpos : 0 < mantissa) :
    2 ^ 52 ≤ mantissa ∧ halfPlace mantissa exponent = exponent - 2 ∧
        halfMantissa mantissa exponent = 2 * mantissa ∨
      halfPlace mantissa exponent = -1074 ∧ exponent ≤ -1020 := by
  have hlog : mantissa.log2 < 53 := (Nat.log2_lt (Nat.ne_of_gt hpos)).mpr h.small
  by_cases hlowest : halfPlace mantissa exponent = -1074
  · refine .inr ⟨hlowest, ?_⟩
    rcases h.leading with hleading | hexponent
    · have := (Nat.le_log2 (Nat.ne_of_gt hpos)).mpr hleading
      unfold halfPlace at hlowest
      omega
    · omega
  · have hleading : 2 ^ 52 ≤ mantissa := by
      refine h.leading.resolve_right fun hexponent => hlowest ?_
      unfold halfPlace
      omega
    have hfull := (Nat.le_log2 (Nat.ne_of_gt hpos)).mpr hleading
    have hplace : halfPlace mantissa exponent = exponent - 2 := by
      unfold halfPlace at hlowest ⊢
      omega
    refine .inl ⟨hleading, hplace, ?_⟩
    have hshift : (exponent + 51 - (exponent - 2)).toNat = 1 + 52 := by omega
    rw [halfMantissa, hplace, hshift, Nat.pow_add, ← Nat.mul_assoc,
      Nat.mul_div_cancel _ (Nat.two_pow_pos 52), Nat.pow_one, Nat.mul_comm]

theorem halfPlace_le (h : Canonical mantissa exponent) (hpos : 0 < mantissa) :
    halfPlace mantissa exponent ≤ lastPlace (halfMantissa mantissa exponent)
      (halfPlace mantissa exponent) := by
  rcases half_cases h hpos with ⟨hleading, hplace, hmantissa⟩ | ⟨hplace, -⟩
  · have hfull := (Nat.le_log2 (Nat.ne_of_gt hpos)).mpr hleading
    rw [hplace, hmantissa, lastPlace, Nat.log2_two_mul (Nat.ne_of_gt hpos)]
    omega
  · rw [hplace]
    exact le_max_right _ _

theorem lastPlace_half_le (h : Canonical mantissa exponent) (hpos : 0 < mantissa)
    (hexponent : exponent ≤ 971) :
    lastPlace (halfMantissa mantissa exponent) (halfPlace mantissa exponent) ≤ 970 := by
  rcases half_cases h hpos with ⟨-, hplace, hmantissa⟩ | ⟨hplace, hlow⟩
  · have hlog : mantissa.log2 < 53 := (Nat.log2_lt (Nat.ne_of_gt hpos)).mpr h.small
    rw [hplace, hmantissa, lastPlace, Nat.log2_two_mul (Nat.ne_of_gt hpos)]
    omega
  · have hsmall : halfMantissa mantissa exponent < 2 ^ 158 := by
      refine Nat.lt_of_le_of_lt (Nat.div_le_self _ _) ?_
      calc
        mantissa * 2 ^ (exponent + 51 - halfPlace mantissa exponent).toNat
          ≤ mantissa * 2 ^ 105 := Nat.mul_le_mul_left _ (Nat.pow_le_pow_right (by decide) (by omega))
        _ < 2 ^ 53 * 2 ^ 105 := Nat.mul_lt_mul_of_pos_right h.small (by decide)
        _ = 2 ^ 158 := by decide
    have hlog : (halfMantissa mantissa exponent).log2 < 158 := by
      by_cases hzero : halfMantissa mantissa exponent = 0
      · simp [hzero]
      · exact (Nat.log2_lt hzero).mpr hsmall
    rw [hplace, lastPlace]
    omega

/-- Only half of the smallest number is rounded to zero. -/
theorem exists_div_two_eq (h : Canonical mantissa exponent) (hpos : 0 < mantissa)
    (hexponent : exponent ≤ 971) (hlarge : mantissa ≠ 1 ∨ exponent ≠ -1074) :
    ∃ mantissa' exponent' hpos', Canonical mantissa' exponent' ∧ exponent' ≤ 971 ∧
      UnpackedFloat.div Format.binary64 (.finite .positive mantissa exponent hpos)
        (.finite .positive (2 ^ 52) (-51) (by decide)) =
          .finite .positive mantissa' exponent' hpos' := by
  have hhalf := halfMantissa_pos h hlarge hpos
  have hplace := halfPlace_le h hpos
  have hhigh := lastPlace_half_le h hpos hexponent
  have hlow : -1074 ≤ halfPlace mantissa exponent := le_max_right _ _
  rw [div_two_eq h hpos, roundWithAccuracy_eq _ _ hplace]
  obtain ⟨mantissa', exponent', hpos', hcanonical, hsettled, hnumber⟩ :=
    exists_settled_eq .positive (rounded_pos hhalf hlow hplace _) (rounded_le _ _ _)
      (low_lastPlace _ _) (leading_rounded hhalf hplace _)
  exact ⟨mantissa', exponent', hpos', hcanonical, by omega, hsettled⟩

end Compositor.Decimal
