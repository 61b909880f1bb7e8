import Compositor.File.Path
import Mathlib.Data.List.TakeWhile

/-!
# The names on a path

A path is followed by the names between its slashes.  Joining puts the names of
two paths one after the other, and leaving a path drops names from its end.
-/

namespace Compositor

namespace Text

variable {α : Type} {isSeparator : α → Bool}

theorem split_cons_of_separator {item : α} (h : isSeparator item = true) (items : List α) :
    split isSeparator (item :: items) = [] :: split isSeparator items := by
  simp [split, h]

theorem split_cons_of_not_separator {item : α} (h : isSeparator item = false)
    {items piece : List α} {pieces : List (List α)}
    (hitems : split isSeparator items = piece :: pieces) :
    split isSeparator (item :: items) = (item :: piece) :: pieces := by
  unfold split at hitems ⊢
  rw [List.foldr_cons, hitems]
  simp [h]

theorem split_append_separator {item : α} (h : isSeparator item = true)
    (before after : List α) :
    split isSeparator (before ++ item :: after) =
      split isSeparator before ++ split isSeparator after := by
  induction before with
  | nil => simp [split_cons_of_separator h]
  | cons first before ih =>
      cases hfirst : isSeparator first with
      | true =>
          rw [List.cons_append, split_cons_of_separator hfirst,
            split_cons_of_separator hfirst, ih]
          rfl
      | false =>
          obtain ⟨piece, pieces, hpieces⟩ :=
            List.exists_cons_of_ne_nil (split_ne_nil isSeparator before)
          rw [hpieces, List.cons_append] at ih
          rw [List.cons_append, split_cons_of_not_separator hfirst ih,
            split_cons_of_not_separator hfirst hpieces, List.cons_append]

theorem split_of_no_separator {items : List α}
    (h : ∀ item ∈ items, isSeparator item = false) :
    split isSeparator items = [items] := by
  induction items with
  | nil => rfl
  | cons item items ih =>
      exact split_cons_of_not_separator (h item List.mem_cons_self)
        (ih fun other hother => h other (List.mem_cons_of_mem item hother))

end Text

namespace Path

@[simp] theorem names_empty : names "" = [] := by decide

theorem names_append_slash (before after : List Char) :
    names (String.ofList (before ++ '/' :: after)) =
      names (String.ofList before) ++ names (String.ofList after) := by
  simp [names, segments, Text.split_append_separator]

theorem names_of_no_slash {chars : List Char} (hslash : '/' ∉ chars) (hne : chars ≠ []) :
    names (String.ofList chars) = [String.ofList chars] := by
  have hsplit : Text.split (· == '/') chars = [chars] := by
    refine Text.split_of_no_separator fun char hchar => ?_
    have hne : char ≠ '/' := fun heq => hslash (by rwa [heq] at hchar)
    simpa using hne
  have hnonempty : String.ofList chars ≠ "" := by
    intro heq
    exact hne (by simpa using congrArg String.toList heq)
  simp [names, segments, hsplit, hnonempty]

theorem names_ne_nil {path : String} (hrelative : isAbsolute path = false) (hne : path ≠ "") :
    names path ≠ [] := by
  cases hchars : path.toList with
  | nil => exact absurd (String.toList_eq_nil_iff.mp hchars) hne
  | cons char chars =>
      have hchar : (char == '/') = false := by simpa [isAbsolute, hchars] using hrelative
      obtain ⟨piece, pieces, hpieces⟩ :=
        List.exists_cons_of_ne_nil (Text.split_ne_nil (· == '/') chars)
      have hsplit : Text.split (· == '/') path.toList = (char :: piece) :: pieces := by
        rw [hchars]
        apply Text.split_cons_of_not_separator _ hpieces
        exact hchar
      simp [names, segments, hsplit]

theorem names_trimReversed (reversed : List Char) :
    names (String.ofList (trimReversed reversed).reverse) <+:
      names (String.ofList reversed.reverse) := by
  fun_induction trimReversed reversed with
  | case1 => exact List.prefix_rfl
  | case2 chars _ ih =>
      have hnames := names_append_slash chars.reverse []
      simp only [List.reverse_cons, String.ofList_nil, names_empty, List.append_nil] at hnames ⊢
      rwa [hnames]
  | case3 chars ih =>
      have hinner := names_append_slash chars.reverse []
      have houter := names_append_slash chars.reverse ['.']
      simp only [List.reverse_cons, String.ofList_nil, names_empty, List.append_nil,
        List.append_assoc, List.cons_append, List.nil_append] at hinner houter ih ⊢
      rw [hinner] at ih
      rw [houter]
      exact ih.trans (List.prefix_append _ _)
  | case4 => exact List.prefix_rfl

theorem getLast?_trimReversed (reversed : List Char) :
    (trimReversed reversed).getLast? = reversed.getLast? := by
  fun_induction trimReversed reversed with
  | case1 => rfl
  | case2 chars hne ih =>
      rw [ih]
      cases chars with
      | nil => exact absurd rfl hne
      | cons char chars => simp [List.getLast?_cons_cons]
  | case3 chars ih => rw [ih, List.getLast?_cons_cons]
  | case4 => rfl

theorem eq_nil_of_trimReversed_eq {reversed rest : List Char}
    (h : trimReversed reversed = '/' :: rest) : rest = [] := by
  fun_induction trimReversed reversed with
  | case1 => simpa using h.symm
  | case2 chars _ ih => exact ih h
  | case3 chars ih => exact ih h
  | case4 chars hroot hslash _ =>
      subst h
      cases rest with
      | nil => rfl
      | cons char rest => exact absurd rfl (hslash _)

theorem exists_last_of_parent? {path parent : String} (h : parent? path = some parent) :
    ∃ last rest : List Char, last ≠ [] ∧ (∀ char ∈ last, char ≠ '/') ∧
      (rest = [] ∨ ∃ above, rest = '/' :: above) ∧
      trimReversed path.toList.reverse = last ++ rest ∧
      parent = String.ofList (trimReversed rest).reverse := by
  unfold parent? at h
  generalize htrimmed : trimReversed path.toList.reverse = trimmed at h
  split at h
  · cases h
  · cases h
  · rename_i _ hempty hroot
    have hsplit := List.takeWhile_append_dropWhile (p := (· != '/')) (l := trimmed)
    refine ⟨trimmed.takeWhile (· != '/'), trimmed.dropWhile (· != '/'), ?_, ?_, ?_, hsplit.symm,
      (Option.some_inj.mp h).symm⟩
    · cases trimmed with
      | nil => exact absurd rfl hempty
      | cons char rest =>
          have hchar : char ≠ '/' := by
            rintro rfl
            exact hroot (by rw [eq_nil_of_trimReversed_eq htrimmed])
          simp [hchar]
    · intro char hchar
      simpa using List.mem_takeWhile_imp hchar
    · cases hrest : trimmed.dropWhile (· != '/') with
      | nil => exact Or.inl rfl
      | cons char above =>
          have hchar := List.head_dropWhile_not (l := trimmed) (· != '/') (by simp [hrest])
          simp only [hrest, List.head_cons, bne_eq_false_iff_eq] at hchar
          exact Or.inr ⟨above, by rw [hchar]⟩

theorem names_parent? {path parent : String} (h : parent? path = some parent) :
    names parent <+: (names path).dropLast := by
  obtain ⟨last, rest, hne, hlast, hrest, htrimmed, rfl⟩ := exists_last_of_parent? h
  have hpath : names (String.ofList (last ++ rest).reverse) <+: names path := by
    simpa [htrimmed] using names_trimReversed path.toList.reverse
  rcases hrest with rfl | ⟨above, rfl⟩
  · simp [trimReversed]
  · have hparent : names (String.ofList (trimReversed ('/' :: above)).reverse) <+:
        names (String.ofList above.reverse) := by
      have hslash := names_append_slash above.reverse []
      simp only [String.ofList_nil, names_empty, List.append_nil] at hslash
      rw [← hslash, ← List.reverse_cons]
      exact names_trimReversed ('/' :: above)
    have hname : names (String.ofList last.reverse) = [String.ofList last.reverse] :=
      names_of_no_slash (fun hmem => hlast '/' (List.mem_reverse.mp hmem) rfl) (by simpa using hne)
    have hnames := names_append_slash above.reverse last.reverse
    rw [hname] at hnames
    simp only [List.reverse_append, List.reverse_cons, List.append_assoc, List.cons_append,
      List.nil_append] at hpath
    rw [hnames] at hpath
    obtain ⟨more, hmore⟩ := hpath
    rw [← hmore, List.append_assoc, List.dropLast_append_of_ne_nil (by simp)]
    exact hparent.trans (List.prefix_append _ _)

theorem isAbsolute_ofList (chars : List Char) :
    isAbsolute (String.ofList chars) = (chars.head? == some '/') := by
  simp [isAbsolute]

theorem isAbsolute_parent? {path parent : String} (h : parent? path = some parent) :
    isAbsolute parent = isAbsolute path := by
  obtain ⟨last, rest, hne, hlast, hrest, htrimmed, rfl⟩ := exists_last_of_parent? h
  have hpath : isAbsolute path = ((last ++ rest).getLast? == some '/') := by
    rw [← htrimmed, getLast?_trimReversed]
    simp [isAbsolute]
  rw [isAbsolute_ofList, List.head?_reverse, getLast?_trimReversed, hpath]
  rcases hrest with rfl | ⟨above, rfl⟩
  · have hchar : last.getLast hne ≠ '/' := hlast _ (List.getLast_mem hne)
    simp [List.getLast?_eq_some_getLast hne, hchar]
  · simp

/-- A name that a file can have below a directory. -/
structure IsPlain (name : String) : Prop where
  no_slash : '/' ∉ name.toList
  ne_empty : name ≠ ""
  ne_point : name ≠ "."
  ne_upward : name ≠ ".."

theorem IsPlain.names_eq {name : String} (h : IsPlain name) : names name = [name] := by
  have hne : name.toList ≠ [] := fun heq => h.ne_empty (String.toList_eq_nil_iff.mp heq)
  simpa using names_of_no_slash h.no_slash hne

theorem IsPlain.not_isAbsolute {name : String} (h : IsPlain name) : isAbsolute name = false := by
  cases hchars : name.toList with
  | nil => simp [isAbsolute, hchars]
  | cons char chars =>
      have hchar : char ≠ '/' := by
        rintro rfl
        exact h.no_slash (by simp [hchars])
      simp [isAbsolute, hchars, hchar]

theorem join_eq {path : String} (h : isAbsolute path = false) {directory : String}
    (hne : directory ≠ "") :
    ∃ chars : List Char, join directory path = String.ofList (chars ++ '/' :: path.toList) ∧
      (directory = String.ofList chars ∨ directory = String.ofList (chars ++ ['/'])) := by
  by_cases hslash : directory.toList.getLast? = some '/'
  · obtain ⟨chars, hchars⟩ := List.getLast?_eq_some_iff.mp hslash
    refine ⟨chars, ?_, Or.inr (by rw [← hchars, String.ofList_toList])⟩
    have hjoin : join directory path = directory ++ path := by
      simp [join, h, hne, hslash]
    rw [hjoin, List.append_cons, ← hchars, String.ofList_append, String.ofList_toList,
      String.ofList_toList]
  · refine ⟨directory.toList, ?_, Or.inl String.ofList_toList.symm⟩
    have hjoin : join directory path = directory ++ "/" ++ path := by
      simp [join, h, hne, hslash]
    rw [hjoin, List.append_cons, String.ofList_append, String.ofList_append,
      String.ofList_toList, String.ofList_toList]

theorem names_join {path : String} (h : isAbsolute path = false) (directory : String) :
    names (join directory path) = names directory ++ names path := by
  by_cases hne : directory = ""
  · simp [join, hne]
  · obtain ⟨chars, hjoin, rfl | rfl⟩ := join_eq h hne
    · rw [hjoin, names_append_slash, String.ofList_toList]
    · rw [hjoin, names_append_slash, names_append_slash, String.ofList_toList,
        String.ofList_nil, names_empty, List.append_nil]

theorem isAbsolute_join {path : String} (h : isAbsolute path = false) (directory : String) :
    isAbsolute (join directory path) = isAbsolute directory := by
  by_cases hne : directory = ""
  · subst hne
    have hjoin : join "" path = path := by simp [join]
    rw [hjoin, h]
    rfl
  · obtain ⟨chars, hjoin, hchars⟩ := join_eq h hne
    rcases hchars with rfl | rfl
    · rw [hjoin, isAbsolute_ofList, isAbsolute_ofList]
      cases chars with
      | nil => exact absurd rfl hne
      | cons char chars => rfl
    · rw [hjoin, isAbsolute_ofList, isAbsolute_ofList]
      cases chars <;> rfl

theorem IsPlain.names_join {name : String} (h : IsPlain name) (directory : String) :
    names (join directory name) = names directory ++ [name] := by
  rw [Path.names_join h.not_isAbsolute, h.names_eq]

theorem IsPlain.isAbsolute_join {name : String} (h : IsPlain name) (directory : String) :
    isAbsolute (join directory name) = isAbsolute directory :=
  Path.isAbsolute_join h.not_isAbsolute directory

theorem IsPlain.getLast?_join {name : String} (h : IsPlain name) (directory : String) :
    (join directory name).toList.getLast? ≠ some '/' := by
  have hlast : name.toList.getLast? ≠ some '/' := fun hslash =>
    h.no_slash (List.mem_of_getLast? hslash)
  by_cases hne : directory = ""
  · have hjoin : join "" name = name := by simp [join]
    rwa [hne, hjoin]
  · obtain ⟨chars, hjoin, _⟩ := join_eq h.not_isAbsolute hne
    have hchars : name.toList ≠ [] := fun heq => h.ne_empty (String.toList_eq_nil_iff.mp heq)
    have happend : (chars ++ '/' :: name.toList).getLast? = name.toList.getLast? := by
      simp [List.getLast?_append, List.getLast?_eq_some_getLast hchars, List.getLast?_cons]
    rw [hjoin, String.toList_ofList, happend]
    exact hlast

end Path

end Compositor
