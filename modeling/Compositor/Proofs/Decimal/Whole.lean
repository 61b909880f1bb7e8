import Compositor.Decimal.Reading
import Mathlib.Algebra.Group.Nat.Defs

/-!
# Digits of whole numbers

The digits of a whole number read back to it, so that different numbers are
written differently.  They are never missing, and nothing but digits.
-/

namespace Compositor.Decimal

theorem digitValue_ofNat {digit : Nat} (h : digit < 10) :
    digitValue (Char.ofNat (48 + digit)) = digit := by
  revert h
  revert digit
  decide

theorem isDigit_ofNat {digit : Nat} (h : digit < 10) :
    isDigit (Char.ofNat (48 + digit)) = true := by
  revert h
  revert digit
  decide

theorem wholeDigitsOnto_append (fuel number : Nat) (rest : List Char) :
    wholeDigitsOnto fuel number rest = wholeDigitsOnto fuel number [] ++ rest := by
  induction fuel generalizing number rest with
  | zero => rfl
  | succ fuel ih =>
      simp only [wholeDigitsOnto]
      split
      · rfl
      · rw [ih (number / 10) (_ :: rest), ih (number / 10) [_]]
        simp

theorem isDigit_of_mem_wholeDigitsOnto {fuel number : Nat} {char : Char}
    (h : char ∈ wholeDigitsOnto fuel number []) : isDigit char = true := by
  induction fuel generalizing number with
  | zero => simp [wholeDigitsOnto] at h
  | succ fuel ih =>
      have hlast := isDigit_ofNat (Nat.mod_lt number (by decide : 0 < 10))
      simp only [wholeDigitsOnto] at h
      split at h
      · simp only [List.mem_singleton] at h
        exact h ▸ hlast
      · rw [wholeDigitsOnto_append, List.mem_append, List.mem_singleton] at h
        rcases h with h | rfl
        · exact ih h
        · exact hlast

theorem isDigit_of_mem_wholeDigits {number : Nat} {char : Char}
    (h : char ∈ wholeDigits number) : isDigit char = true :=
  isDigit_of_mem_wholeDigitsOnto h

theorem wholeValue_append_singleton (digits : List Char) (digit : Char) :
    wholeValue (digits ++ [digit]) = 10 * wholeValue digits + digitValue digit := by
  simp [wholeValue, List.foldl_append]

theorem wholeValue_wholeDigitsOnto {fuel number : Nat} (h : number < 10 ^ fuel) :
    wholeValue (wholeDigitsOnto fuel number []) = number := by
  induction fuel generalizing number with
  | zero =>
      have : number = 0 := by simpa using h
      simp [this, wholeDigitsOnto, wholeValue]
  | succ fuel ih =>
      have hlast := digitValue_ofNat (Nat.mod_lt number (by decide : 0 < 10))
      simp only [wholeDigitsOnto]
      split
      · rename_i hsmall
        rw [← List.nil_append [_], wholeValue_append_singleton, hlast]
        simp only [wholeValue, List.foldl_nil]
        omega
      · have hhead : number / 10 < 10 ^ fuel := by
          rw [Nat.pow_succ] at h
          omega
        rw [wholeDigitsOnto_append, wholeValue_append_singleton, ih hhead, hlast]
        omega

theorem lt_ten_pow_log2 (number : Nat) : number < 10 ^ (number.log2 + 1) :=
  calc
    number < 2 ^ (number.log2 + 1) := Nat.lt_log2_self
    _ ≤ 10 ^ (number.log2 + 1) := Nat.pow_le_pow_left (by decide) _

@[simp] theorem wholeValue_wholeDigits (number : Nat) :
    wholeValue (wholeDigits number) = number :=
  wholeValue_wholeDigitsOnto (lt_ten_pow_log2 number)

@[simp] theorem wholeDigits_inj {first second : Nat} :
    wholeDigits first = wholeDigits second ↔ first = second := by
  refine ⟨fun h => ?_, fun h => h ▸ rfl⟩
  simpa using congrArg wholeValue h

@[simp] theorem toList_whole (number : Nat) : (whole number).toList = wholeDigits number := by
  simp [whole]

theorem whole_inj {first second : Nat} : whole first = whole second ↔ first = second := by
  rw [← String.toList_inj, toList_whole, toList_whole, wholeDigits_inj]

theorem exists_wholeDigitsOnto_eq_cons {fuel number : Nat} (hpos : 0 < number)
    (h : number < 10 ^ fuel) (rest : List Char) :
    ∃ digit digits, 0 < digit ∧ digit < 10 ∧
      wholeDigitsOnto fuel number rest = Char.ofNat (48 + digit) :: digits := by
  induction fuel generalizing number rest with
  | zero => simp at h; omega
  | succ fuel ih =>
      simp only [wholeDigitsOnto]
      split
      · exact ⟨number % 10, rest, by omega, by omega, rfl⟩
      · refine ih (by omega) ?_ _
        rw [Nat.pow_succ] at h
        omega

theorem exists_wholeDigits_eq_cons (number : Nat) :
    ∃ digit digits, wholeDigits number = digit :: digits ∧ (digit = '0' → digits = []) := by
  by_cases hzero : number = 0
  · exact ⟨'0', [], by rw [hzero]; rfl, fun _ => rfl⟩
  · obtain ⟨digit, digits, hpos, hlt, heq⟩ :=
      exists_wholeDigitsOnto_eq_cons (Nat.pos_of_ne_zero hzero) (lt_ten_pow_log2 number) []
    refine ⟨Char.ofNat (48 + digit), digits, heq, fun h => ?_⟩
    have hvalue := congrArg digitValue h
    rw [digitValue_ofNat hlt] at hvalue
    simp [digitValue] at hvalue
    omega

theorem wholeDigits_ne_nil (number : Nat) : wholeDigits number ≠ [] := by
  obtain ⟨digit, digits, heq, -⟩ := exists_wholeDigits_eq_cons number
  simp [heq]

theorem length_wholeDigitsOnto_le (fuel number : Nat) :
    (wholeDigitsOnto fuel number []).length ≤ fuel := by
  induction fuel generalizing number with
  | zero => exact Nat.le_refl _
  | succ fuel ih =>
      simp only [wholeDigitsOnto]
      split
      · simp
      · rw [wholeDigitsOnto_append, List.length_append]
        have := ih (number / 10)
        simp only [List.length_singleton]
        omega

theorem digitCount_le {number : Nat} (h : number < 2 ^ 64) : digitCount number ≤ 64 := by
  have hlog : number.log2 < 64 := by
    by_cases hzero : number = 0
    · rw [hzero]
      decide
    · exact (Nat.log2_lt hzero).mpr h
  have := length_wholeDigitsOnto_le (number.log2 + 1) number
  exact Nat.le_trans this hlog

theorem length_wholeDigitsOnto_le_of_lt {fuel number count : Nat} (h : number < 10 ^ (count + 1)) :
    (wholeDigitsOnto fuel number []).length ≤ count + 1 := by
  induction fuel generalizing number count with
  | zero => simp [wholeDigitsOnto]
  | succ fuel ih =>
      simp only [wholeDigitsOnto]
      split
      · simp
      · obtain _ | count := count
        · omega
        · have hhead : number / 10 < 10 ^ (count + 1) := by
            rw [Nat.pow_succ] at h
            omega
          rw [wholeDigitsOnto_append, List.length_append]
          exact Nat.succ_le_succ (ih hhead)

theorem digitCount_le_of_lt {number count : Nat} (h : number < 10 ^ (count + 1)) :
    digitCount number ≤ count + 1 :=
  length_wholeDigitsOnto_le_of_lt h

theorem wholeDigits_ne_cons {number : Nat} {char : Char} {rest : List Char}
    (h : isDigit char = false) : wholeDigits number ≠ char :: rest := by
  intro heq
  have := isDigit_of_mem_wholeDigits (heq ▸ List.mem_cons_self : char ∈ wholeDigits number)
  simp [h] at this

theorem takeWhile_wholeDigits_append {number : Nat} {char : Char} {rest : List Char}
    (h : isDigit char = false) :
    (wholeDigits number ++ char :: rest).takeWhile isDigit = wholeDigits number := by
  rw [List.takeWhile_append_of_pos fun _ => isDigit_of_mem_wholeDigits]
  simp [h]

theorem isDigit_of_mem_paddedWhole {width number : Nat} {char : Char}
    (h : char ∈ (paddedWhole width number).toList) : isDigit char = true := by
  simp only [paddedWhole, String.toList_ofList, List.mem_append] at h
  rcases h with h | h
  · obtain rfl := List.eq_of_mem_replicate h
    rfl
  · exact isDigit_of_mem_wholeDigits h

@[simp] theorem wholeValue_paddedWhole (width number : Nat) :
    wholeValue (paddedWhole width number).toList = number := by
  have hzeros (count : Nat) (digits : List Char) :
      wholeValue (zeros count ++ digits) = wholeValue digits := by
    induction count with
    | zero => rfl
    | succ count ih => exact ih
  simp only [paddedWhole, String.toList_ofList, hzeros, wholeValue_wholeDigits]

theorem eq_of_paddedWhole_append_eq {width first second : Nat} {char char' : Char}
    {rest rest' : List Char} (hchar : isDigit char = false) (hchar' : isDigit char' = false)
    (h : (paddedWhole width first).toList ++ char :: rest =
      (paddedWhole width second).toList ++ char' :: rest') : first = second := by
  have hdigits := congrArg (List.takeWhile isDigit) h
  rw [List.takeWhile_append_of_pos fun _ => isDigit_of_mem_paddedWhole,
    List.takeWhile_append_of_pos fun _ => isDigit_of_mem_paddedWhole] at hdigits
  simpa [hchar, hchar'] using congrArg wholeValue hdigits

theorem wholeDigits_append_inj {first second : Nat} {char char' : Char}
    {rest rest' : List Char} (hchar : isDigit char = false) (hchar' : isDigit char' = false)
    (h : wholeDigits first ++ char :: rest = wholeDigits second ++ char' :: rest') :
    first = second ∧ char = char' ∧ rest = rest' := by
  have hdigits := congrArg (List.takeWhile isDigit) h
  rw [takeWhile_wholeDigits_append hchar, takeWhile_wholeDigits_append hchar',
    wholeDigits_inj] at hdigits
  subst hdigits
  simpa using h

theorem append_wholeDigits_inj {first second : Nat} {char char' : Char}
    {before before' : List Char} (hchar : isDigit char = false) (hchar' : isDigit char' = false)
    (h : before ++ char :: wholeDigits first = before' ++ char' :: wholeDigits second) :
    before = before' ∧ char = char' ∧ first = second := by
  have htake : ∀ (number : Nat) (last : Char) (front : List Char), isDigit last = false →
      (front ++ last :: wholeDigits number).reverse.takeWhile isDigit =
        (wholeDigits number).reverse := by
    intro number last front hlast
    rw [List.reverse_append, List.reverse_cons, List.append_assoc,
      List.takeWhile_append_of_pos fun digit hdigit =>
        isDigit_of_mem_wholeDigits (List.mem_reverse.mp hdigit)]
    simp [hlast]
  have hdigits := congrArg (fun chars => chars.reverse.takeWhile isDigit) h
  simp only [htake _ _ _ hchar, htake _ _ _ hchar', List.reverse_inj, wholeDigits_inj] at hdigits
  subst hdigits
  obtain ⟨hbefore, hrest⟩ := List.append_inj' h rfl
  exact ⟨hbefore, (List.cons_eq_cons.mp hrest).1, rfl⟩

end Compositor.Decimal
