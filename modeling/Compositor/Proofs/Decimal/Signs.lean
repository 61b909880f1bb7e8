import Compositor.Decimal.Reading
import Compositor.Proofs.Decimal.Operations
import Compositor.Proofs.Decimal.Zeros

/-!
# Signs of results

A number without a sign is a zero, a positive number or the positive infinity.
Sums of such numbers have no sign either, nor have products with positive numbers
and quotients by them.  Only what is not a number compares with nothing.
-/

namespace Compositor.Decimal

open Float.Model
open Float.Model.UnpackedFloat hiding unpack pack mul neg isFinite ofScientific round normalize sub
  div compare add isNaN

variable {number first second : UnpackedFloat} {value low high : Float}

theorem isNaN_unpack_iff (bits : BitVec Format.binary64.numBits) :
    (UnpackedFloat.unpack Format.binary64 bits).isNaN = true ↔
      (unpackExponent bits).toNat = 2047 ∧ (unpackMantissa bits).toNat ≠ 0 := by
  have hfields := fields_unpack bits
  generalize UnpackedFloat.unpack Format.binary64 bits = number at hfields
  cases hfields with
  | infinity _ hfraction => simp [UnpackedFloat.isNaN, hfraction]
  | notANumber hfield hfraction => simp [UnpackedFloat.isNaN, hfield, hfraction]
  | zero hfield => simp [UnpackedFloat.isNaN, hfield]
  | subnormal hfield => simp [UnpackedFloat.isNaN, hfield]
  | normal _ hfield => simp [UnpackedFloat.isNaN, Nat.ne_of_lt hfield]

theorem isNaN_pack_finite (sign : Sign) (mantissa : Nat) (exponent : Int) (hpos : 0 < mantissa) :
    (UnpackedFloat.unpack Format.binary64 (UnpackedFloat.pack Format.binary64
      (.finite sign mantissa exponent hpos))).isNaN = false := by
  rw [Bool.eq_false_iff, ne_eq, isNaN_unpack_iff]
  have hcapacity : 2 ^ Format.binary64.exponentBits = 2048 := by decide
  simp only [UnpackedFloat.pack, packedInfinity, hcapacity]
  split
  · simp
  · rename_i hfits
    split
    · rw [unpackExponent_packComponents, BitVec.toNat_ofNat, Nat.mod_eq_of_lt]
      · omega
      · have hwidth : 2 ^ 11 = 2048 := by decide
        omega
    · simp

theorem isNaN_unpack_pack (number : UnpackedFloat) :
    (Float.Model.pack number).unpack.isNaN = number.isNaN := by
  cases number with
  | notANumber => rfl
  | infinity sign => cases sign <;> rfl
  | zero sign => cases sign <;> rfl
  | finite sign mantissa exponent hpos => exact isNaN_pack_finite sign mantissa exponent hpos

theorem isNaN_roundWithAccuracy (sign : Sign) (mantissa : Nat) (exponent : Int)
    (accuracy : Accuracy) :
    (roundWithAccuracy Format.binary64 sign mantissa exponent accuracy).isNaN = false := by
  unfold roundWithAccuracy
  dsimp only
  split <;> rfl

/-! ## Comparing -/

theorem compare_eq_none_iff :
    first.compare second = none ↔ first.isNaN = true ∨ second.isNaN = true := by
  cases first with
  | notANumber => simp [UnpackedFloat.compare, UnpackedFloat.isNaN]
  | infinity sign =>
      cases second with
      | notANumber => simp [UnpackedFloat.compare, UnpackedFloat.isNaN]
      | _ => cases sign <;> simp [UnpackedFloat.compare, UnpackedFloat.isNaN]
  | zero sign =>
      cases second with
      | notANumber => simp [UnpackedFloat.compare, UnpackedFloat.isNaN]
      | zero sign' => simp [UnpackedFloat.compare, UnpackedFloat.isNaN]
      | infinity sign' | finite sign' => cases sign' <;> simp [UnpackedFloat.compare, UnpackedFloat.isNaN]
  | finite sign mantissa exponent hpos =>
      cases second with
      | notANumber => simp [UnpackedFloat.compare, UnpackedFloat.isNaN]
      | zero sign' => cases sign <;> simp [UnpackedFloat.compare, UnpackedFloat.isNaN]
      | infinity sign' | finite sign' =>
          cases sign <;> cases sign' <;> simp [UnpackedFloat.compare, UnpackedFloat.isNaN]

theorem compare_swap (first second : UnpackedFloat) :
    second.compare first = (first.compare second).map Ordering.swap := by
  cases first with
  | notANumber => cases second <;> rfl
  | infinity sign =>
      cases second with
      | infinity sign' => cases sign <;> cases sign' <;> rfl
      | _ => cases sign <;> rfl
  | zero sign =>
      cases second with
      | infinity sign' | finite sign' => cases sign' <;> rfl
      | _ => rfl
  | finite sign mantissa exponent hpos =>
      cases second with
      | notANumber => rfl
      | zero sign' => cases sign <;> rfl
      | infinity sign' => cases sign' <;> cases sign <;> rfl
      | finite sign' mantissa' exponent' hpos' =>
          cases sign <;> cases sign' <;>
            simp [UnpackedFloat.compare, Ordering.swap_then, ← Int.compare_swap exponent,
              ← Nat.compare_swap mantissa]

theorem le_of_not_lt (hlow : low.isNaN = false) (hhigh : high.isNaN = false) (h : ¬ high < low) :
    low ≤ high := by
  rw [lt_iff_compare, compare_swap low.toModel.unpack] at h
  rw [le_iff_compare]
  cases hcompare : low.toModel.unpack.compare high.toModel.unpack with
  | none =>
      rcases compare_eq_none_iff.mp hcompare with hnan | hnan
      · exact absurd (hlow.symm.trans hnan) (by decide)
      · exact absurd (hhigh.symm.trans hnan) (by decide)
  | some ordering =>
      rw [hcompare] at h
      cases ordering with
      | gt => exact absurd rfl h
      | lt | eq => rfl

theorem isNaN_of_compare_ne_none (h : low.toModel.unpack.compare high.toModel.unpack ≠ none) :
    low.isNaN = false ∧ high.isNaN = false := by
  rw [ne_eq, compare_eq_none_iff, not_or] at h
  exact ⟨Bool.eq_false_iff.mpr h.1, Bool.eq_false_iff.mpr h.2⟩

theorem isNaN_of_le (h : low ≤ high) : low.isNaN = false ∧ high.isNaN = false := by
  rw [le_iff_compare] at h
  apply isNaN_of_compare_ne_none
  intro hnone
  rw [hnone] at h
  cases h

theorem isNaN_of_lt (h : low < high) : low.isNaN = false ∧ high.isNaN = false := by
  rw [lt_iff_compare] at h
  apply isNaN_of_compare_ne_none
  rw [h]
  exact nofun

/-- Zeros of either sign, positive numbers and the positive infinity. -/
inductive AtLeastZero : UnpackedFloat → Prop
  | infinity : AtLeastZero (.infinity .positive)
  | zero (sign : Sign) : AtLeastZero (.zero sign)
  | finite {mantissa : Nat} {exponent : Int} {hpos : 0 < mantissa} :
      AtLeastZero (.finite .positive mantissa exponent hpos)

theorem zero_le_iff : 0.0 ≤ value ↔ AtLeastZero value.toModel.unpack := by
  have hzero : (0.0 : Float).toModel.unpack = .zero .positive := rfl
  rw [le_iff_compare, hzero]
  cases value.toModel.unpack with
  | notANumber => exact iff_of_false (by simp [UnpackedFloat.compare]) (by rintro ⟨⟩)
  | zero sign => exact iff_of_true (by simp [UnpackedFloat.compare]) (.zero sign)
  | infinity sign =>
      cases sign with
      | positive => exact iff_of_true (by simp [UnpackedFloat.compare]) .infinity
      | negative => exact iff_of_false (by simp [UnpackedFloat.compare]) (by rintro ⟨⟩)
  | finite sign mantissa exponent hpos =>
      cases sign with
      | positive => exact iff_of_true (by simp [UnpackedFloat.compare]) .finite
      | negative => exact iff_of_false (by simp [UnpackedFloat.compare]) (by rintro ⟨⟩)

theorem atLeastZero_roundWithAccuracy (mantissa : Nat) (exponent : Int) (accuracy : Accuracy) :
    AtLeastZero (roundWithAccuracy Format.binary64 .positive mantissa exponent accuracy) := by
  unfold roundWithAccuracy
  dsimp only
  split
  · exact .zero _
  · exact .finite

theorem atLeastZero_of_fields {field fraction : Nat} (h : Fields field fraction .positive number)
    (hnumber : number.isNaN = false) : AtLeastZero number := by
  cases h with
  | notANumber => cases hnumber
  | infinity => exact .infinity
  | zero => exact .zero _
  | subnormal | normal => exact .finite

theorem AtLeastZero.unpack_pack (h : AtLeastZero number) :
    AtLeastZero (Float.Model.pack number).unpack := by
  cases h with
  | infinity => exact .infinity
  | zero sign =>
      cases sign with
      | positive => exact .zero .positive
      | negative => exact .zero .negative
  | @finite mantissa exponent hpos =>
      have hfields := fields_unpack
        (UnpackedFloat.pack Format.binary64 (.finite .positive mantissa exponent hpos))
      rw [sign_pack] at hfields
      exact atLeastZero_of_fields hfields (isNaN_pack_finite .positive mantissa exponent hpos)

/-! ## Arithmetic -/

theorem AtLeastZero.mul {mantissa : Nat} {exponent : Int} {hpos : 0 < mantissa}
    (h : AtLeastZero first) :
    AtLeastZero (UnpackedFloat.mul Format.binary64 first
      (.finite .positive mantissa exponent hpos)) := by
  cases h with
  | infinity => exact .infinity
  | zero sign => exact .zero _
  | finite => exact atLeastZero_roundWithAccuracy _ _ _

theorem AtLeastZero.div {mantissa : Nat} {exponent : Int} {hpos : 0 < mantissa}
    (h : AtLeastZero first) :
    AtLeastZero (UnpackedFloat.div Format.binary64 first
      (.finite .positive mantissa exponent hpos)) := by
  cases h with
  | infinity => exact .infinity
  | zero sign => exact .zero _
  | finite => exact atLeastZero_roundWithAccuracy _ _ _

theorem AtLeastZero.normalize (mantissa : Nat) (exponent : Int) :
    AtLeastZero (UnpackedFloat.normalize Format.binary64 mantissa exponent .positive) := by
  unfold UnpackedFloat.normalize
  split
  · rename_i hsign
    have := Int.compare_eq_lt.mp hsign
    omega
  · exact .zero .positive
  · exact atLeastZero_roundWithAccuracy _ _ _

theorem AtLeastZero.add (hfirst : AtLeastZero first) (hsecond : AtLeastZero second) :
    AtLeastZero (UnpackedFloat.add Format.binary64 first second) := by
  cases hfirst with
  | infinity =>
      cases hsecond with
      | infinity | zero | finite => exact .infinity
  | zero sign =>
      cases hsecond with
      | infinity => exact .infinity
      | finite => exact .finite
      | zero sign' =>
          unfold UnpackedFloat.add
          dsimp only
          split <;> exact .zero _
  | finite =>
      cases hsecond with
      | infinity => exact .infinity
      | zero sign => exact .finite
      | finite =>
          unfold UnpackedFloat.add decreaseExponent
          simp only [Sign.apply, ← Int.natCast_add]
          exact .normalize _ _

def isPositiveFinite : UnpackedFloat → Bool
  | .finite .positive _ _ _ => true
  | _ => false

theorem exists_eq_of_isPositiveFinite (h : isPositiveFinite number = true) :
    ∃ mantissa exponent hpos, number = .finite .positive mantissa exponent hpos := by
  unfold isPositiveFinite at h
  split at h
  · exact ⟨_, _, _, rfl⟩
  · cases h

theorem isPositiveFinite_powersOfTen : ∀ power : Fin Float.exactlyRepresentablePowersOfTen.size,
    isPositiveFinite Float.exactlyRepresentablePowersOfTen[power].toModel.unpack = true := by
  decide

theorem exists_powerOfTen_eq {power : Nat} (h : power < Float.exactlyRepresentablePowersOfTen.size) :
    ∃ mantissa exponent hpos, Float.exactlyRepresentablePowersOfTen[power].toModel.unpack =
      .finite .positive mantissa exponent hpos := by
  exact exists_eq_of_isPositiveFinite (isPositiveFinite_powersOfTen ⟨power, h⟩)

section Doubles

variable {factor other : Float} {mantissa : Nat} {exponent : Int} {hpos : 0 < mantissa}

theorem div_eq (first second : Float) :
    first / second = Float.ofModel (Float.Model.pack
      (UnpackedFloat.div Format.binary64 first.toModel.unpack second.toModel.unpack)) := rfl

theorem isNaN_div (value : Float)
    (hfactor : factor.toModel.unpack = .finite .positive mantissa exponent hpos) :
    (value / factor).isNaN = value.isNaN := by
  rw [div_eq, hfactor]
  refine (isNaN_unpack_pack _).trans ?_
  show _ = value.toModel.unpack.isNaN
  cases value.toModel.unpack with
  | finite sign mantissa' exponent' hpos' => exact isNaN_roundWithAccuracy _ _ _ _
  | _ => rfl

theorem zero_le_pack (h : AtLeastZero number) : 0.0 ≤ Float.ofModel (Float.Model.pack number) :=
  zero_le_iff.mpr h.unpack_pack

theorem zero_le_mul (h : 0.0 ≤ value)
    (hfactor : factor.toModel.unpack = .finite .positive mantissa exponent hpos) :
    0.0 ≤ value * factor := by
  rw [mul_eq, hfactor]
  exact zero_le_pack (zero_le_iff.mp h).mul

theorem zero_le_div (h : 0.0 ≤ value)
    (hfactor : factor.toModel.unpack = .finite .positive mantissa exponent hpos) :
    0.0 ≤ value / factor := by
  rw [div_eq, hfactor]
  exact zero_le_pack (zero_le_iff.mp h).div

theorem zero_le_add (h : 0.0 ≤ value) (hother : 0.0 ≤ other) : 0.0 ≤ value + other :=
  zero_le_pack ((zero_le_iff.mp h).add (zero_le_iff.mp hother))

end Doubles

theorem zero_le_toFloat (word : UInt64) : 0.0 ≤ word.toFloat :=
  zero_le_pack (.normalize word.toNat 0)

theorem atLeastZero_ofScientific (significand : Nat) (scale : Int) :
    AtLeastZero (UnpackedFloat.ofScientific Format.binary64 significand scale) := by
  unfold UnpackedFloat.ofScientific
  split
  · exact .zero _
  · split
    · exact .infinity
    · split
      · exact .zero _
      · split
        · exact atLeastZero_roundWithAccuracy _ _ _
        · exact atLeastZero_roundWithAccuracy _ _ _

theorem zero_le_ofScientific (significand : Nat) (isSmall : Bool) (power : Nat) :
    0.0 ≤ Float.ofScientific significand isSmall power := by
  unfold Float.ofScientific
  split
  · rename_i hfast
    have hsize : power < Float.exactlyRepresentablePowersOfTen.size :=
      Nat.lt_of_le_of_lt hfast.2 (by decide)
    obtain ⟨mantissa, exponent, hpos, hpower⟩ := exists_powerOfTen_eq hsize
    dsimp only
    split
    · exact zero_le_div (zero_le_toFloat _) hpower
    · exact zero_le_mul (zero_le_toFloat _) hpower
  · exact zero_le_pack (atLeastZero_ofScientific _ _)

theorem zero_le_nearest (significand : Nat) (scale : Int) :
    0.0 ≤ nearest false significand scale := by
  simp only [nearest, Bool.false_eq_true, if_false]
  split
  · decide
  · split
    · decide
    · unfold nearestMagnitude
      split
      · exact zero_le_ofScientific _ _ _
      · exact zero_le_ofScientific _ _ _

section Readings

variable {chars : List Char}

theorem zero_le_unsigned? (h : unsigned? false chars = some value) : 0.0 ≤ value := by
  have hparts : ∀ whole fraction rest : List Char,
      (if (whole.isEmpty && fraction.isEmpty) = true then none
        else (exponent? rest).bind fun exponent => some
          (nearest false (wholeValue (whole ++ fraction)) (exponent - fraction.length))) =
        some value → 0.0 ≤ value := by
    intro whole fraction rest h
    split at h
    · cases h
    · obtain ⟨exponent, _, heq⟩ := Option.bind_eq_some_iff.mp h
      cases heq
      exact zero_le_nearest _ _
  exact hparts _ _ _ h

theorem zero_le_float? (hminus : '-' ∉ chars) (hname : 'n' ∉ chars.map asciiLower)
    (h : float? chars = some value) : 0.0 ≤ value := by
  obtain ⟨rest, hsplit, hsuffix⟩ : ∃ rest, splitSign chars = (false, rest) ∧ rest <:+ chars := by
    unfold splitSign
    split
    · exact absurd List.mem_cons_self hminus
    · exact ⟨_, rfl, List.suffix_cons _ _⟩
    · exact ⟨_, rfl, List.suffix_rfl⟩
  have hnot : ∀ name : List Char, 'n' ∈ name →
      String.ofList (rest.map asciiLower) ≠ String.ofList name := by
    intro name hmem heq
    rw [← String.ofList_inj.mp heq] at hmem
    exact hname ((hsuffix.map asciiLower).subset hmem)
  rw [float?, hsplit] at h
  dsimp only at h
  rw [if_neg, if_neg] at h
  · exact zero_le_unsigned? h
  · exact hnot "nan".toList (by decide)
  · rintro (hinf | hinf)
    · exact hnot "inf".toList (by decide) hinf
    · exact hnot "infinity".toList (by decide) hinf

end Readings

end Compositor.Decimal
