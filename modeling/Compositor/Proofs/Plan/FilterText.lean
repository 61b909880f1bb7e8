import Compositor.Filter
import Compositor.Proofs.Decimal.Characters

/-!
# Texts of filters

In the text of a filter quotes are closed, brackets do not occur, and what
separates filters and nodes stands in quotes.
-/

namespace Compositor

namespace GraphText

def quoteMark : Char := '\''

def endsQuoted : Bool → List Char → Bool
  | isQuoted, [] => isQuoted
  | isQuoted, char :: chars =>
    endsQuoted (if char = quoteMark then !isQuoted else isQuoted) chars

/-- The characters outside quotes of a text that begins inside or outside them. -/
def unquoted : Bool → List Char → List Char
  | _, [] => []
  | isQuoted, char :: chars =>
    if char = quoteMark then unquoted (!isQuoted) chars
    else if isQuoted then unquoted isQuoted chars
    else char :: unquoted isQuoted chars

/-- A text in which quotes are closed, without brackets, and with separators only in quotes. -/
structure IsFilter (chars : List Char) : Prop where
  balanced : endsQuoted false chars = false
  unbracketed : ∀ char ∈ chars, char ≠ '[' ∧ char ≠ ']'
  unseparated : ∀ char ∈ unquoted false chars, char ≠ ',' ∧ char ≠ ';'

theorem endsQuoted_append (isQuoted : Bool) (first second : List Char) :
    endsQuoted isQuoted (first ++ second) = endsQuoted (endsQuoted isQuoted first) second := by
  induction first generalizing isQuoted with
  | nil => rfl
  | cons char first ih => exact ih _

theorem unquoted_append (isQuoted : Bool) (first second : List Char) :
    unquoted isQuoted (first ++ second) =
      unquoted isQuoted first ++ unquoted (endsQuoted isQuoted first) second := by
  induction first generalizing isQuoted with
  | nil => rfl
  | cons char first ih =>
      by_cases hmark : char = quoteMark
      · simp only [List.cons_append, unquoted, endsQuoted, if_pos hmark, ih]
      · cases isQuoted <;> simp [unquoted, endsQuoted, hmark, ih]

theorem endsQuoted_of_no_mark {isQuoted : Bool} {chars : List Char} (h : quoteMark ∉ chars) :
    endsQuoted isQuoted chars = isQuoted := by
  induction chars with
  | nil => rfl
  | cons char chars ih =>
      rw [List.mem_cons, not_or] at h
      rw [endsQuoted, if_neg (Ne.symm h.1), ih h.2]

theorem unquoted_of_no_mark {chars : List Char} (h : quoteMark ∉ chars) :
    unquoted true chars = [] := by
  induction chars with
  | nil => rfl
  | cons char chars ih =>
      rw [List.mem_cons, not_or] at h
      rw [unquoted, if_neg (Ne.symm h.1), if_pos rfl, ih h.2]

theorem mem_of_mem_unquoted {isQuoted : Bool} {chars : List Char} {char : Char}
    (h : char ∈ unquoted isQuoted chars) : char ∈ chars := by
  induction chars generalizing isQuoted with
  | nil => cases h
  | cons first chars ih =>
      simp only [unquoted] at h
      split at h
      · exact List.mem_cons_of_mem _ (ih h)
      · split at h
        · exact List.mem_cons_of_mem _ (ih h)
        · rcases List.mem_cons.mp h with rfl | h
          · exact List.mem_cons_self
          · exact List.mem_cons_of_mem _ (ih h)

def Avoids (marks : List Char) (text : String) : Prop := ∀ char ∈ text.toList, char ∉ marks

instance (marks : List Char) (text : String) : Decidable (Avoids marks text) :=
  List.decidableBAll (fun char => char ∉ marks) text.toList

def quotedMarks : List Char := ['[', ']', quoteMark]

def marks : List Char := quotedMarks ++ [',', ';']

namespace Avoids

@[simp] theorem append_iff {marks : List Char} {first second : String} :
    Avoids marks (first ++ second) ↔ Avoids marks first ∧ Avoids marks second := by
  simp only [Avoids, String.toList_append, List.forall_mem_append]

theorem mono {marks fewer : List Char} {text : String} (hmarks : fewer ⊆ marks)
    (h : Avoids marks text) : Avoids fewer text :=
  fun char hchar hmark => h char hchar (hmarks hmark)

theorem of_isPlainChar {marks : List Char} (hmarks : marks.any Decimal.isPlainChar = false)
    {text : String} (h : text.toList.all Decimal.isPlainChar = true) : Avoids marks text := by
  intro char hchar hmark
  have hplain := List.all_eq_true.mp h char hchar
  exact List.any_eq_false.mp hmarks char hmark hplain

@[simp] theorem whole (number : Nat) : Avoids marks (Decimal.whole number) :=
  of_isPlainChar (by decide) (Decimal.all_isPlainChar_whole number)

@[simp] theorem plain (value : Float) : Avoids marks (Decimal.plain value) :=
  of_isPlainChar (by decide) (Decimal.all_isPlainChar_plain value)

@[simp] theorem seconds (value : Float) : Avoids marks (Decimal.seconds value) :=
  of_isPlainChar (by decide) (Decimal.all_isPlainChar_seconds value)

@[simp] theorem seconds_quoted (value : Float) : Avoids quotedMarks (Decimal.seconds value) :=
  mono (List.subset_append_left _ _) (seconds value)

@[simp] theorem name (direction : FadeDirection) : Avoids marks direction.name := by
  cases direction <;> decide

theorem spelled {separator : String} (h : Avoids marks separator) (canvas : Canvas) :
    Avoids marks (canvas.spelled separator) := by
  simp only [Canvas.spelled, append_iff, whole, h, and_self]

theorem condition (window : Window Float) : Avoids quotedMarks window.condition := by
  simp only [Window.condition, append_iff, seconds_quoted, and_true]
  decide

end Avoids

namespace IsFilter

theorem of_avoids {text : String} (h : Avoids marks text) : IsFilter text.toList := by
  have hne : ∀ char ∈ text.toList, ∀ mark ∈ marks, char ≠ mark := by
    rintro char hchar mark hmark rfl
    exact h char hchar hmark
  refine ⟨?_, ?_, ?_⟩
  · apply endsQuoted_of_no_mark
    intro hmem
    exact hne _ hmem quoteMark (by decide) rfl
  · intro char hchar
    exact ⟨hne char hchar '[' (by decide), hne char hchar ']' (by decide)⟩
  · intro char hchar
    have hmem := mem_of_mem_unquoted hchar
    exact ⟨hne char hmem ',' (by decide), hne char hmem ';' (by decide)⟩

theorem append {first second : List Char} (hfirst : IsFilter first) (hsecond : IsFilter second) :
    IsFilter (first ++ second) where
  balanced := by rw [endsQuoted_append, hfirst.balanced, hsecond.balanced]
  unbracketed char hchar :=
    (List.mem_append.mp hchar).elim (hfirst.unbracketed char) (hsecond.unbracketed char)
  unseparated char hchar := by
    rw [unquoted_append, hfirst.balanced] at hchar
    exact (List.mem_append.mp hchar).elim (hfirst.unseparated char) (hsecond.unseparated char)

theorem quoted {text : String} (h : Avoids quotedMarks text) :
    IsFilter (quoteMark :: (text.toList ++ [quoteMark])) := by
  have hmark : quoteMark ∉ text.toList := fun hmem => h _ hmem (by decide)
  have hquoted : endsQuoted true text.toList = true := endsQuoted_of_no_mark hmark
  refine ⟨?_, ?_, ?_⟩
  · simp [endsQuoted, endsQuoted_append, hquoted]
  · intro char hchar
    simp only [List.mem_cons, List.mem_append, List.not_mem_nil, or_false] at hchar
    rcases hchar with rfl | hchar | rfl
    · decide
    · constructor
      · rintro rfl
        exact h '[' hchar (by decide)
      · rintro rfl
        exact h ']' hchar (by decide)
    · decide
  · simp [unquoted, unquoted_append, unquoted_of_no_mark hmark]

end IsFilter

end GraphText

open GraphText

theorem Slide.isFilter_text (slide : Slide Float) : IsFilter slide.text.toList := by
  cases slide with
  | fixed => exact .of_avoids (by decide)
  | slideIn start duration =>
      have hinner : Avoids quotedMarks
          ("min(0,(t-" ++ Decimal.seconds start ++ ")/" ++ Decimal.seconds duration ++ "*W-W)") := by
        simp only [Avoids.append_iff, Avoids.seconds_quoted, and_true]
        decide
      have hquoted := IsFilter.quoted hinner
      simpa [Slide.text, quoteMark] using hquoted

namespace Filter

def IsPlain : Filter Float → Prop
  | .color tint _ _ _ => Avoids marks tint
  | .format pixels => Avoids marks pixels
  | _ => True

theorem text_ne_empty (filter : Filter Float) : filter.text ≠ "" := by
  intro h
  unfold text at h
  cases filter <;> simp at h

theorem avoids_text {filter : Filter Float} (h : filter.IsPlain)
    (hoverlay : ∀ slide window, filter ≠ .overlay slide window) : Avoids marks filter.text := by
  unfold text
  cases filter with
  | overlay slide window => exact absurd rfl (hoverlay slide window)
  | color tint canvas duration rate =>
      have htint : Avoids marks tint := h
      have hcanvas : Avoids marks (canvas.spelled "x") := .spelled (by decide) canvas
      simp only [Avoids.append_iff, htint, hcanvas, Avoids.whole, Avoids.seconds, and_true]
      decide
  | format pixels => exact Avoids.append_iff.mpr ⟨by decide, h⟩
  | scaleCover canvas | centerCrop canvas =>
      have hcanvas : Avoids marks (canvas.spelled ":") := .spelled (by decide) canvas
      simp only [Avoids.append_iff, hcanvas, and_true]
      decide
  | _ =>
      simp only [Avoids.append_iff, Avoids.name, Avoids.whole, Avoids.seconds, Avoids.plain, and_true]
      decide

theorem isFilter_text {filter : Filter Float} (h : filter.IsPlain) :
    IsFilter filter.text.toList := by
  cases filter with
  | overlay slide window =>
      have hname : IsFilter "overlay=x=".toList := .of_avoids (by decide)
      have henable : IsFilter ":y=0:enable=".toList := .of_avoids (by decide)
      have hwindow := IsFilter.quoted (Avoids.condition window)
      have hall := ((hname.append slide.isFilter_text).append henable).append hwindow
      unfold text
      simpa [quoteMark] using hall
  | _ => exact .of_avoids (avoids_text h (by simp))

end Filter

end Compositor
