import Compositor.Proofs.Decimal.Whole

/-!
# Characters of printed numbers

Numbers in engine text are made of digits, a sign and a point, or spell an
infinity or something that is not a number.
-/

namespace Compositor.Decimal

def isPlainChar (char : Char) : Bool :=
  isDigit char || ['-', '.', 'N', 'a', 'i', 'n', 'f'].contains char

theorem isPlainChar_of_isDigit {char : Char} (h : isDigit char = true) :
    isPlainChar char = true := by
  simp [isPlainChar, h]

theorem all_isPlainChar_wholeDigits (number : Nat) :
    (wholeDigits number).all isPlainChar = true :=
  List.all_eq_true.mpr fun _ hchar => isPlainChar_of_isDigit (isDigit_of_mem_wholeDigits hchar)

theorem all_isPlainChar_zeros (count : Nat) : (zeros count).all isPlainChar = true := by
  refine List.all_eq_true.mpr fun char hchar => ?_
  rw [List.eq_of_mem_replicate hchar]
  decide

theorem all_isPlainChar_signText (negative : Bool) :
    (signText negative).all isPlainChar = true := by
  cases negative <;> decide

theorem all_isPlainChar_positionalText {digits : List Char} (position : Int)
    (h : digits.all isPlainChar = true) :
    (positionalText [] digits position).all isPlainChar = true := by
  have hzero : isPlainChar '0' = true := by decide
  have hpoint : isPlainChar '.' = true := by decide
  have htake : ∀ count, (digits.take count).all isPlainChar = true := fun count =>
    List.all_eq_true.mpr fun char hchar =>
      List.all_eq_true.mp h char (List.mem_of_mem_take hchar)
  have hdrop : ∀ count, (digits.drop count).all isPlainChar = true := fun count =>
    List.all_eq_true.mpr fun char hchar =>
      List.all_eq_true.mp h char (List.mem_of_mem_drop hchar)
  unfold positionalText
  split
  · simp only [List.all_cons, List.cons_append, List.all_append, hzero, hpoint,
      all_isPlainChar_zeros, h, Bool.and_self]
  · simp only [List.all_cons, hzero, hpoint, h, Bool.and_self]
  · dsimp only
    split
    · simp only [List.append_nil, List.all_append, htake, all_isPlainChar_zeros, Bool.and_self]
    · simp only [List.all_append, List.all_cons, htake, hdrop, hpoint, Bool.and_self]

theorem all_isPlainChar_whole (number : Nat) :
    (whole number).toList.all isPlainChar = true := by
  rw [toList_whole]
  exact all_isPlainChar_wholeDigits number

theorem all_isPlainChar_plain (value : Float) :
    (plain value).toList.all isPlainChar = true := by
  simp only [plain, Layout.text, String.toList_ofList, Layout.chars]
  split
  · decide
  · rw [List.all_append, all_isPlainChar_signText]
    decide
  · rw [List.all_append, all_isPlainChar_signText]
    decide
  · rw [List.all_append, all_isPlainChar_signText]
    exact all_isPlainChar_positionalText _ (all_isPlainChar_wholeDigits _)

theorem all_isPlainChar_seconds (value : Float) :
    (seconds value).toList.all isPlainChar = true := by
  unfold seconds
  split
  · decide
  · exact all_isPlainChar_plain value

end Compositor.Decimal
