import Compositor.Proofs.Decimal.Quotients
import Compositor.Proofs.Progress.Snapshots
import Compositor.Proofs.Timeline.Problems

/-!
# Fractions of a progress report

What is reached is told in microseconds, which are never negative, or as a clock,
whose three parts may be any numbers.  So a sample tells a part of the whole, and a
time that is finite and not negative, unless a clock was told last that is not such
a time itself.
-/

namespace Compositor

variable {value : List Char} {seconds total number : Float} {before : List (List Char)}
  {sample : Progress}

def IsFraction (number : Float) : Prop := 0.0 ≤ number ∧ number ≤ 1.0

instance (number : Float) : Decidable (IsFraction number) :=
  inferInstanceAs (Decidable (_ ∧ _))

theorem isNaN_of_isFraction (h : IsFraction number) : number.isNaN = false :=
  (Decimal.isNaN_of_le h.1).2

theorem isNaN_of_isNotNegative (h : IsNotNegative number) : number.isNaN = false :=
  (Decimal.isNaN_of_le h.2).2

theorem clampToUnit_of_isNaN (h : number.isNaN = true) : clampToUnit number = number := by
  have hlow : ¬ number < 0.0 := fun hlow =>
    absurd (h.symm.trans (Decimal.isNaN_of_lt hlow).1) (by decide)
  have hhigh : ¬ 1.0 < number := fun hhigh =>
    absurd (h.symm.trans (Decimal.isNaN_of_lt hhigh).2) (by decide)
  rw [clampToUnit, if_neg hlow, if_neg hhigh]

theorem isFraction_clampToUnit (h : number.isNaN = false) : IsFraction (clampToUnit number) := by
  unfold clampToUnit
  split
  · decide
  · rename_i hlow
    split
    · decide
    · rename_i hhigh
      exact ⟨Decimal.le_of_not_lt (by decide) h hlow, Decimal.le_of_not_lt h (by decide) hhigh⟩

theorem lt_of_integer? {micros : Int} (h : Decimal.integer? value = some micros) :
    micros < 2 ^ 63 := by
  unfold Decimal.integer? at h
  generalize Decimal.splitSign value = parts at h
  obtain ⟨magnitude, _, hlimit⟩ := Option.bind_eq_some_iff.mp h
  obtain ⟨hrange, hmicros⟩ := Option.ite_none_right_eq_some.mp hlimit
  cases hmicros
  exact hrange.2

theorem IsMicros.isNotNegative (h : IsMicros value seconds) : IsNotNegative seconds := by
  obtain ⟨micros, hmicros, rfl⟩ := h
  have hsmall : micros.toNat < 2 ^ 64 := by
    have := lt_of_integer? hmicros
    omega
  have hmillion : (1000000.0 : Float).toModel.unpack =
    .finite .positive 8589934592000000 (-33) (by decide) := by rfl
  constructor
  · exact Decimal.isFinite_div (Decimal.isFinite_nearest false hsmall) hmillion (by decide)
  · exact Decimal.zero_le_div (Decimal.zero_le_nearest _ _) hmillion

/-- Digits, points and colons, as in `01:23:45.678`. -/
def IsPlain (value : List Char) : Prop :=
  ∀ char ∈ value, Decimal.isDigit char = true ∨ char = '.' ∨ char = ':'

theorem IsPlain.zero_le_float? (h : IsPlain value) (hread : Decimal.float? value = some number) :
    0.0 ≤ number := by
  have hlower : ∀ char ∈ value, Decimal.asciiLower char ≠ 'n' := by
    intro char hchar
    rcases h char hchar with hdigit | rfl | rfl
    · have hrange : '0' ≤ char ∧ char ≤ '9' := of_decide_eq_true hdigit
      rw [Decimal.asciiLower, if_neg fun hupper => absurd (hupper.1.trans hrange.2) (by decide)]
      rintro rfl
      exact absurd hrange.2 (by decide)
    · decide
    · decide
  apply Decimal.zero_le_float? _ _ hread
  · intro hminus
    exact absurd (h '-' hminus) (by decide)
  · intro hname
    obtain ⟨char, hchar, heq⟩ := List.mem_map.mp hname
    exact hlower char hchar heq

theorem IsPlain.zero_le (h : IsPlain value) (hclock : IsClock value seconds) : 0.0 ≤ seconds := by
  have hunit : (3600.0 : Float).toModel.unpack =
    .finite .positive 7916483719987200 (-41) (by decide) := by rfl
  have hunit' : (60.0 : Float).toModel.unpack =
    .finite .positive 8444249301319680 (-47) (by decide) := by rfl
  obtain ⟨hours, minutes, rest, hour, minute, second, rfl, _, _, hhour, hminute, hsecond, rfl⟩ :=
    hclock
  simp only [IsPlain, List.forall_mem_append, List.forall_mem_cons] at h
  obtain ⟨hhours, _, hminutes, _, hrest⟩ := h
  refine Decimal.zero_le_add (Decimal.zero_le_add ?_ ?_) ?_
  · exact Decimal.zero_le_mul (zero_le_float? hhours hhour) hunit
  · exact Decimal.zero_le_mul (zero_le_float? hminutes hminute) hunit'
  · exact zero_le_float? hrest hsecond

/-- The last of these lines that tells a time tells it as a clock. -/
def LastClock (before : List (List Char)) (seconds : Float) : Prop :=
  ∃ first line value later, before = first ++ line :: later ∧ Gives line "out_time" value ∧
    IsClock value seconds ∧ ∀ other ∈ later, ∀ time, ¬ Tells MeansTime other time

theorem LastClock.eq (h : LastClock before seconds)
    (htold : LastTold (Tells MeansTime) 0.0 before number) : number = seconds := by
  obtain ⟨first, line, value, later, hbefore, hgives, hclock, hlater⟩ := h
  have hlast : LastTold (Tells MeansTime) 0.0 before seconds :=
    .last hbefore ⟨"out_time", value, hgives, .inr ⟨rfl, hclock⟩⟩ hlater
  rw [lastTold_iff (tells_iff meansTime_iff)] at hlast htold
  exact htold.symm.trans hlast

theorem iff_of_lastTold (good : Float → Prop) (hzero : good 0.0)
    (hmicros : ∀ value seconds, IsMicros value seconds → good seconds)
    (htold : LastTold (Tells MeansTime) 0.0 before number) :
    good number ↔ ∀ seconds, LastClock before seconds → good seconds := by
  constructor
  · intro hgood seconds hclock
    exact hclock.eq htold ▸ hgood
  · intro hclock
    cases htold with
    | never => exact hzero
    | @last first line later time hbefore htells hlater =>
        obtain ⟨name, value, hgives, ⟨_, hvalue⟩ | ⟨rfl, hvalue⟩⟩ := htells
        · exact hmicros value number hvalue
        · exact hclock number ⟨first, line, value, later, hbefore, hgives, hvalue, hlater⟩

structure Measured (before : List (List Char)) (sample : Progress) : Prop where
  fraction : IsFraction sample.fraction ↔
    sample.isLast = true ∨ ∀ seconds, LastClock before seconds → seconds.isNaN = false
  inside : IsFraction sample.fraction ∨ sample.fraction.isNaN = true
  reached : IsNotNegative sample.reached ↔
    ∀ seconds, LastClock before seconds → IsNotNegative seconds
  plain : (∀ line ∈ before, ∀ value, Gives line "out_time" value → IsPlain value) →
    IsFraction sample.fraction ∧ 0.0 ≤ sample.reached

namespace Snapshot

theorem fraction_or (htotal : IsPositive total) (h : Snapshot total before value sample) :
    IsFraction sample.fraction ∧ (sample.isLast = true ∨ sample.reached.isNaN = false) ∨
      sample.fraction.isNaN = true ∧ ¬ (sample.isLast = true ∨ sample.reached.isNaN = false) := by
  have hpositive : ¬ total ≤ 0.0 := (not_le_zero_iff htotal.1).1.mpr htotal.2
  obtain ⟨mantissa, exponent, hpos, hunpack⟩ :=
    Bound.admits_positive_iff.mp (Bound.admits_positive.mpr htotal)
  have hquotient : (sample.reached / total).isNaN = sample.reached.isNaN :=
    Decimal.isNaN_div _ hunpack
  cases hlast : sample.isLast with
  | true =>
      rw [h.whole hlast]
      exact .inl ⟨by decide, .inl rfl⟩
  | false =>
      rw [h.measured hlast hpositive]
      cases hreached : sample.reached.isNaN with
      | true =>
          rw [hreached] at hquotient
          rw [clampToUnit_of_isNaN hquotient]
          exact .inr ⟨hquotient, by decide⟩
      | false =>
          rw [hreached] at hquotient
          exact .inl ⟨isFraction_clampToUnit hquotient, .inr rfl⟩

theorem isFraction_iff (htotal : IsPositive total) (h : Snapshot total before value sample) :
    IsFraction sample.fraction ↔ sample.isLast = true ∨ sample.reached.isNaN = false := by
  rcases h.fraction_or htotal with ⟨hfraction, hnumber⟩ | ⟨hfraction, hnot⟩
  · exact iff_of_true hfraction hnumber
  · refine iff_of_false (fun hinside => ?_) hnot
    exact absurd (hfraction.symm.trans (isNaN_of_isFraction hinside)) (by decide)

theorem zero_le_reached (h : Snapshot total before value sample)
    (hplain : ∀ line ∈ before, ∀ value, Gives line "out_time" value → IsPlain value) :
    0.0 ≤ sample.reached := by
  refine (iff_of_lastTold (0.0 ≤ ·) (by decide) (fun _ _ hmicros => hmicros.isNotNegative.2)
    h.reached).mpr ?_
  rintro seconds ⟨first, line, value, later, rfl, hgives, hclock, _⟩
  exact (hplain line (by simp) value hgives).zero_le hclock

end Snapshot

theorem measured_of_snapshot (htotal : IsPositive total)
    (h : Snapshot total before value sample) : Measured before sample where
  fraction := by
    rw [h.isFraction_iff htotal]
    exact or_congr_right (iff_of_lastTold (Float.isNaN · = false) (by decide)
      (fun _ _ hmicros => isNaN_of_isNotNegative hmicros.isNotNegative) h.reached)
  inside := (h.fraction_or htotal).imp And.left And.left
  reached :=
    iff_of_lastTold IsNotNegative (by decide) (fun _ _ hmicros => hmicros.isNotNegative) h.reached
  plain := by
    intro hplain
    have hreached := h.zero_le_reached hplain
    exact ⟨(h.isFraction_iff htotal).mpr (.inr (Decimal.isNaN_of_le hreached).2), hreached⟩

/-- Whatever is reported, it is the last clock alone that can spoil a sample. -/
theorem measured_of_feedAll (htotal : IsPositive total) (before : List (List Char))
    (line : List Char) (after : List (List Char))
    (hsample : ((ProgressState.new total).feedAll (before ++ line :: after))[before.length]? =
      some (some sample)) : Measured before sample := by
  rw [getElem?_feedAll, Option.some.injEq] at hsample
  have hgives : ∃ value, Gives line "progress" value := by
    by_contra hnot
    rw [ProgressState.snd_feed_of_not_gives (not_exists.mp hnot)] at hsample
    cases hsample
  obtain ⟨value, hgives⟩ := hgives
  rw [ProgressState.snd_feed_of_gives hgives, Option.some.injEq] at hsample
  exact measured_of_snapshot htotal (hsample ▸ snapshot_sample total before value)

def clockReport (time : String) : List (List Char) :=
  [("out_time=" ++ time).toList, "progress=continue".toList]

theorem measured_of_feedAll_halfway :
    IsPositive 10.0 ∧ ∃ sample, progressSamples 10.0 (clockReport "00:00:05.00") = [sample] ∧
      Measured ["out_time=00:00:05.00".toList] sample := by
  have htotal : IsPositive 10.0 := ⟨by decide, by decide⟩
  exact ⟨htotal, _, rfl, measured_of_feedAll htotal _ "progress=continue".toList [] rfl⟩

/-- A clock may tell no number, or a time before the start. -/
theorem exists_not_isFraction :
    IsPositive 10.0 ∧
      (∃ sample ∈ progressSamples 10.0 (clockReport "nan:0:0"), ¬ IsFraction sample.fraction) ∧
      ∃ sample ∈ progressSamples 10.0 (clockReport "-577014:32:22.77"),
        ¬ IsNotNegative sample.reached := by
  decide +kernel

end Compositor
