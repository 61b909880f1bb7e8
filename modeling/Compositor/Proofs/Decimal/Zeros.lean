import Compositor.Proofs.Decimal.Finite
import Compositor.Quantity

/-!
# The two zeros

A zero is compared equal to the zero of the other sign, and only zeros are equal
to another number.  Sums with a number that is not zero, seconds and whole
milliseconds do not tell the zeros apart; plain text does.
-/

namespace Compositor.Decimal

open Float.Model

def IsZero (value : Float) : Prop := value = 0.0 ∨ value = -0.0

instance (value : Float) : Decidable (IsZero value) :=
  inferInstanceAs (Decidable (value = 0.0 ∨ value = -0.0))

/-- Numbers that are the same, but for the sign of a zero. -/
inductive SameNumber : Float → Float → Prop
  | refl (value : Float) : SameNumber value value
  | zeros {first second : Float} : IsZero first → IsZero second → SameNumber first second

variable {value first second : Float}

theorem ofModel_pack_unpack (value : Float) :
    Float.ofModel (Float.Model.pack value.toModel.unpack) = value :=
  Float.ofBits_toBits value

theorem isZero_iff_unpack : IsZero value ↔ ∃ sign, value.toModel.unpack = .zero sign := by
  constructor
  · rintro (rfl | rfl)
    · exact ⟨.positive, rfl⟩
    · exact ⟨.negative, rfl⟩
  · rintro ⟨sign, hunpack⟩
    rw [← ofModel_pack_unpack value, hunpack]
    cases sign
    · exact .inr rfl
    · exact .inl rfl

theorem lt_iff_compare :
    first < second ↔ first.toModel.unpack.compare second.toModel.unpack = some .lt := by
  have hfloat : first < second ↔ decide (first.toModel < second.toModel) = true := Iff.rfl
  have hmodel : first.toModel < second.toModel ↔
    (first.toModel.unpack.compare second.toModel.unpack == some .lt) = true := Iff.rfl
  rw [hfloat, decide_eq_true_eq, hmodel, beq_iff_eq]

theorem le_iff_compare :
    first ≤ second ↔
      (first.toModel.unpack.compare second.toModel.unpack).any Ordering.isLE = true := by
  have hfloat : first ≤ second ↔ decide (first.toModel ≤ second.toModel) = true := Iff.rfl
  have hmodel : first.toModel ≤ second.toModel ↔
    (first.toModel.unpack.compare second.toModel.unpack).any Ordering.isLE = true := Iff.rfl
  rw [hfloat, decide_eq_true_eq, hmodel]

theorem sameNumber_of_beq (h : (first == second) = true) : SameNumber first second := by
  obtain ⟨-, -, rfl | ⟨rfl, rfl⟩ | ⟨rfl, rfl⟩⟩ := Float.beq_iff_ne_nan_and_eq.mp h
  · exact .refl _
  · exact .zeros (.inl rfl) (.inr rfl)
  · exact .zeros (.inr rfl) (.inl rfl)

theorem SameNumber.eq_of_not_isZero (h : SameNumber first second) (hfirst : ¬ IsZero first) :
    first = second := by
  cases h with
  | refl => rfl
  | zeros hzero _ => exact absurd hzero hfirst

theorem IsZero.isNaN_eq (h : IsZero value) : value.isNaN = false := by
  rcases h with rfl | rfl <;> decide

theorem IsZero.not_pos (h : IsZero value) : ¬ 0.0 < value := by
  rcases h with rfl | rfl <;> decide

theorem IsZero.lt_congr (hfirst : IsZero first) (hsecond : IsZero second) :
    value < first ↔ value < second := by
  obtain ⟨sign, hfirst⟩ := isZero_iff_unpack.mp hfirst
  obtain ⟨sign', hsecond⟩ := isZero_iff_unpack.mp hsecond
  rw [lt_iff_compare, lt_iff_compare, hfirst, hsecond]
  cases value.toModel.unpack with
  | finite sign mantissa exponent hpos => cases sign <;> rfl
  | infinity sign => cases sign <;> rfl
  | _ => rfl

theorem SameNumber.leastFloat (h : SameNumber first second) (value : Float) :
    SameNumber (leastFloat first value) (leastFloat second value) := by
  cases h with
  | refl => exact .refl _
  | zeros hfirst hsecond =>
      simp only [Compositor.leastFloat, hfirst.isNaN_eq, hsecond.isNaN_eq, Bool.false_eq_true,
        if_false, hfirst.lt_congr hsecond]
      split
      · exact .zeros hfirst hsecond
      · split
        · exact .refl value
        · exact .zeros hfirst hsecond

theorem IsZero.add (h : IsZero first) (hsecond : ¬ IsZero second) : first + second = second := by
  obtain ⟨sign, hzero⟩ := isZero_iff_unpack.mp h
  rw [isZero_iff_unpack, not_exists] at hsecond
  have hsum : UnpackedFloat.add Format.binary64 first.toModel.unpack second.toModel.unpack =
      second.toModel.unpack := by
    rw [hzero]
    cases hunpack : second.toModel.unpack with
    | zero sign' => exact absurd hunpack (hsecond sign')
    | _ => rfl
  calc
    first + second = Float.ofModel (Float.Model.pack (UnpackedFloat.add Format.binary64
        first.toModel.unpack second.toModel.unpack)) := rfl
    _ = Float.ofModel (Float.Model.pack second.toModel.unpack) := by rw [hsum]
    _ = second := ofModel_pack_unpack second

theorem SameNumber.add_eq (h : SameNumber first second) (hvalue : ¬ IsZero value) :
    first + value = second + value := by
  cases h with
  | refl => rfl
  | zeros hfirst hsecond => rw [hfirst.add hvalue, hsecond.add hvalue]

theorem sameNumber_ofModel_pack_zero (sign sign' : UnpackedFloat.Sign) :
    SameNumber (Float.ofModel (Float.Model.pack (.zero sign)))
      (Float.ofModel (Float.Model.pack (.zero sign'))) := by
  have hzero (sign : UnpackedFloat.Sign) :
      IsZero (Float.ofModel (Float.Model.pack (.zero sign))) := by
    cases sign
    · exact .inr rfl
    · exact .inl rfl
  exact .zeros (hzero sign) (hzero sign')

theorem SameNumber.trans {third : Float} (h : SameNumber first second)
    (h' : SameNumber second third) : SameNumber first third := by
  cases h with
  | refl => exact h'
  | zeros hfirst hsecond =>
      cases h' with
      | refl => exact .zeros hfirst hsecond
      | zeros _ hthird => exact .zeros hfirst hthird

theorem mul_eq (first second : Float) :
    first * second = Float.ofModel (Float.Model.pack
      (UnpackedFloat.mul Format.binary64 first.toModel.unpack second.toModel.unpack)) := rfl

theorem IsZero.mul (hfirst : IsZero first) (hsecond : IsZero second) (value : Float) :
    SameNumber (first * value) (second * value) := by
  obtain ⟨sign, hfirst⟩ := isZero_iff_unpack.mp hfirst
  obtain ⟨sign', hsecond⟩ := isZero_iff_unpack.mp hsecond
  rw [mul_eq, mul_eq, hfirst, hsecond]
  cases value.toModel.unpack with
  | notANumber | infinity => exact .refl _
  | zero | finite => exact sameNumber_ofModel_pack_zero _ _

theorem mul_comm_sign (sign sign' : UnpackedFloat.Sign) : sign * sign' = sign' * sign := by
  cases sign <;> cases sign' <;> rfl

theorem mul_comm_float (first second : Float) : first * second = second * first := by
  rw [mul_eq, mul_eq]
  congr 2
  cases first.toModel.unpack <;> cases second.toModel.unpack <;>
    simp only [UnpackedFloat.mul, mul_comm_sign, Nat.mul_comm, Int.add_comm]

theorem SameNumber.mul_right (h : SameNumber first second) (value : Float) :
    SameNumber (first * value) (second * value) := by
  cases h with
  | refl => exact .refl _
  | zeros hfirst hsecond => exact hfirst.mul hsecond value

theorem SameNumber.mul {other other' : Float} (h : SameNumber first second)
    (hother : SameNumber other other') : SameNumber (first * other) (second * other') := by
  refine (h.mul_right other).trans ?_
  rw [mul_comm_float second other, mul_comm_float second other']
  exact hother.mul_right second

theorem IsZero.wholeMillis_eq (h : IsZero value) : nearestWord (value * 1000.0) = 0 := by
  rcases h with rfl | rfl <;> decide

theorem SameNumber.wholeMillis_eq (h : SameNumber first second) :
    nearestWord (first * 1000.0) = nearestWord (second * 1000.0) := by
  cases h with
  | refl => rfl
  | zeros hfirst hsecond => rw [hfirst.wholeMillis_eq, hsecond.wholeMillis_eq]

theorem SameNumber.seconds_eq (h : SameNumber first second) : seconds first = seconds second := by
  have hzero {value : Float} (h : IsZero value) : seconds value = "0" := by
    rcases h with rfl | rfl <;> rfl
  cases h with
  | refl => rfl
  | zeros hfirst hsecond => rw [hzero hfirst, hzero hsecond]

theorem SameNumber.plain_eq_iff (h : SameNumber first second) :
    plain first = plain second ↔ first = second := by
  refine ⟨fun htext => ?_, fun heq => by rw [heq]⟩
  cases h with
  | refl => rfl
  | zeros hfirst hsecond =>
      have hplus : plain 0.0 ≠ plain (-0.0) := by decide
      rcases hfirst with rfl | rfl <;> rcases hsecond with rfl | rfl
      · rfl
      · exact absurd htext hplus
      · exact absurd htext.symm hplus
      · rfl

end Compositor.Decimal
