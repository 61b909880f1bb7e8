import Compositor.Text.Blank
import Mathlib.Data.List.DropRight

/-!
# Trimming and cutting

Trimming leaves the blanks on either side of a text out, and nothing else.  A
text is cut at its first separator, if it has one.
-/

namespace Compositor.Text

variable {chars trimmed : List Char}

/-- What is left of a text without the blanks on either side. -/
structure Trims (chars trimmed : List Char) : Prop where
  between : ∃ before after, chars = before ++ trimmed ++ after ∧
    (∀ char ∈ before, isBlank char = true) ∧ (∀ char ∈ after, isBlank char = true)
  head : ∀ char, trimmed.head? = some char → isBlank char = false
  last : ∀ char, trimmed.getLast? = some char → isBlank char = false

theorem dropWhile_append_of_stops {isDropped : Char → Bool} {before rest : List Char}
    (hbefore : ∀ char ∈ before, isDropped char = true)
    (hrest : ∀ char, rest.head? = some char → isDropped char = false) :
    (before ++ rest).dropWhile isDropped = rest := by
  rw [List.dropWhile_append_of_pos hbefore]
  cases rest with
  | nil => rfl
  | cons char rest =>
      have hchar := hrest char rfl
      rw [List.dropWhile_cons_of_neg (by simp [hchar])]

theorem trimEnd_append {isDropped : Char → Bool} {kept after : List Char}
    (hkept : ∀ char, kept.getLast? = some char → isDropped char = false)
    (hafter : ∀ char ∈ after, isDropped char = true) :
    trimEnd isDropped (kept ++ after) = kept := by
  rw [trimEnd, List.reverse_append, dropWhile_append_of_stops, List.reverse_reverse]
  · simpa using hafter
  · simpa using hkept

theorem exists_trimEnd (isDropped : Char → Bool) (chars : List Char) :
    ∃ after, chars = trimEnd isDropped chars ++ after ∧
      (∀ char ∈ after, isDropped char = true) ∧
      ∀ char, (trimEnd isDropped chars).getLast? = some char → isDropped char = false := by
  refine ⟨(chars.reverse.takeWhile isDropped).reverse, ?_, ?_, ?_⟩
  · rw [trimEnd, ← List.reverse_append, List.takeWhile_append_dropWhile, List.reverse_reverse]
  · intro char hchar
    exact List.mem_takeWhile_imp (List.mem_reverse.mp hchar)
  · intro char hchar
    rw [trimEnd, List.getLast?_reverse] at hchar
    simpa [hchar] using List.head?_dropWhile_not isDropped chars.reverse

theorem trim_eq_of_trims (h : Trims chars trimmed) : trim chars = trimmed := by
  obtain ⟨before, after, rfl, hbefore, hafter⟩ := h.between
  cases trimmed with
  | nil =>
      have hall : ∀ char ∈ before ++ [] ++ after, isBlank char = true := by
        simpa [or_imp, forall_and] using ⟨hbefore, hafter⟩
      rw [trim, List.dropWhile_eq_nil_iff.mpr hall]
      rfl
  | cons char rest =>
      have hdrop : (before ++ (char :: rest) ++ after).dropWhile isBlank =
          char :: rest ++ after := by
        rw [List.append_assoc]
        apply dropWhile_append_of_stops hbefore
        simpa using h.head char rfl
      rw [trim, hdrop, trimEnd_append h.last hafter]

theorem trims_trim (chars : List Char) : Trims chars (trim chars) := by
  obtain ⟨after, hafter, hblank, hlast⟩ := exists_trimEnd isBlank (chars.dropWhile isBlank)
  refine ⟨⟨chars.takeWhile isBlank, after, ?_, ?_, hblank⟩, ?_, hlast⟩
  · rw [List.append_assoc, trim, ← hafter, List.takeWhile_append_dropWhile]
  · exact fun char hchar => List.mem_takeWhile_imp hchar
  · intro char hchar
    have hhead : (chars.dropWhile isBlank).head? = some char := by
      rw [trim] at hchar
      rw [hafter, List.head?_append, hchar, Option.some_or]
    simpa [hhead] using List.head?_dropWhile_not isBlank chars

theorem trims_iff : Trims chars trimmed ↔ trim chars = trimmed :=
  ⟨trim_eq_of_trims, fun h => h ▸ trims_trim chars⟩

theorem Trims.mem_iff (h : Trims chars trimmed) {char : Char} (hchar : isBlank char = false) :
    char ∈ trimmed ↔ char ∈ chars := by
  obtain ⟨before, after, rfl, hbefore, hafter⟩ := h.between
  have hnot : char ∉ before ∧ char ∉ after := by
    constructor
    · intro hmem
      simp [hbefore char hmem] at hchar
    · intro hmem
      simp [hafter char hmem] at hchar
  simp [hnot]

variable {α : Type} {isSeparator : α → Bool} {items before after : List α}

theorem splitFirst?_eq_none_iff :
    splitFirst? isSeparator items = none ↔ ∀ item ∈ items, isSeparator item = false := by
  induction items with
  | nil => simp [splitFirst?]
  | cons item items ih =>
      cases hitem : isSeparator item with
      | true => simp [splitFirst?, hitem]
      | false => simp [splitFirst?, hitem, ih]

theorem splitFirst?_append {item : α} (hitem : isSeparator item = true)
    (hbefore : ∀ other ∈ before, isSeparator other = false) :
    splitFirst? isSeparator (before ++ item :: after) = some (before, after) := by
  induction before with
  | nil => simp [splitFirst?, hitem]
  | cons first before ih =>
      obtain ⟨hfirst, hbefore⟩ := List.forall_mem_cons.mp hbefore
      simp [splitFirst?, hfirst, ih hbefore]

theorem exists_of_splitFirst? (h : splitFirst? isSeparator items = some (before, after)) :
    ∃ item, items = before ++ item :: after ∧ isSeparator item = true ∧
      ∀ other ∈ before, isSeparator other = false := by
  induction items generalizing before with
  | nil => cases h
  | cons first items ih =>
      rw [splitFirst?] at h
      split at h
      · rename_i hfirst
        cases h
        exact ⟨first, rfl, hfirst, by simp⟩
      · rename_i hfirst
        obtain ⟨⟨before', after'⟩, hrest, hpair⟩ := Option.map_eq_some_iff.mp h
        cases hpair
        obtain ⟨item, rfl, hitem, hbefore⟩ := ih hrest
        exact ⟨item, rfl, hitem, List.forall_mem_cons.mpr ⟨by simpa using hfirst, hbefore⟩⟩

theorem splitFirst?_eq_some_iff {mark : Char} {chars before after : List Char} :
    splitFirst? (· == mark) chars = some (before, after) ↔
      chars = before ++ mark :: after ∧ mark ∉ before := by
  constructor
  · intro h
    obtain ⟨item, rfl, hitem, hbefore⟩ := exists_of_splitFirst? h
    obtain rfl : item = mark := by simpa using hitem
    exact ⟨rfl, fun hmem => by simpa using hbefore _ hmem⟩
  · rintro ⟨rfl, hmark⟩
    apply splitFirst?_append (by simp)
    intro other hother
    simpa using fun heq : other = mark => hmark (heq ▸ hother)

end Compositor.Text
