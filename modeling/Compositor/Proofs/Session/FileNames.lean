import Compositor.Proofs.Decimal.Whole
import Compositor.Proofs.File.Names
import Compositor.Session.Run
import Mathlib.Data.List.Basic

/-!
# Names of generated files

Staged files and outputs have a stem of portable characters and, after their only
point, an extension of letters and digits.  Below any directory such a name is one
place.  What went into the name can be read off it again: the parts of a staged name
from the left, and those of an output from the right, since a title may hold anything
that stands between its parts.
-/

namespace Compositor

variable {name : String} {stem stem' extension extension' : List Char}

theorem isPortable_of_isDigit {char : Char} (h : Decimal.isDigit char = true) :
    isPortable char = true := by
  simp [isPortable, h]

theorem isPortable_of_isAsciiAlphanumeric {char : Char}
    (h : isAsciiAlphanumeric char = true) : isPortable char = true := by
  simp only [isAsciiAlphanumeric, Bool.and_eq_true] at h
  exact h.1.1

theorem isPortable_of_all {text : String} (hall : text.toList.all isPortable = true) {char : Char}
    (h : char ∈ text.toList) : isPortable char = true :=
  List.all_eq_true.mp hall char h

theorem isPortable_portableChar (char : Char) : isPortable (portableChar char) = true := by
  unfold portableChar
  split
  · assumption
  · decide

theorem isPortable_of_mem_paddedWhole {width number : Nat} {char : Char}
    (h : char ∈ (Decimal.paddedWhole width number).toList) : isPortable char = true :=
  isPortable_of_isDigit (Decimal.isDigit_of_mem_paddedWhole h)

theorem isPortable_hexDigit {digit : Nat} (h : digit < 16) :
    isPortable (Decimal.hexDigit digit) = true := by
  revert h
  revert digit
  decide

theorem exists_of_mem_hexDigits {width number : Nat} {char : Char}
    (h : char ∈ Decimal.hexDigits width number) : ∃ digit < 16, char = Decimal.hexDigit digit := by
  induction width generalizing number with
  | zero => simp [Decimal.hexDigits] at h
  | succ width ih =>
      rw [Decimal.hexDigits, List.mem_append, List.mem_singleton] at h
      rcases h with h | rfl
      · exact ih h
      · exact ⟨number % 16, Nat.mod_lt number (by decide), rfl⟩

theorem isPortable_of_mem_hexDigits {width number : Nat} {char : Char}
    (h : char ∈ Decimal.hexDigits width number) : isPortable char = true := by
  obtain ⟨digit, hdigit, rfl⟩ := exists_of_mem_hexDigits h
  exact isPortable_hexDigit hdigit

theorem isPortable_of_mem_short {id : RunId} {char : Char} (h : char ∈ id.short.toList) :
    isPortable char = true := by
  rw [RunId.short, String.toList_ofList] at h
  exact isPortable_of_mem_hexDigits (List.mem_of_mem_take h)

theorem isPortable_of_mem_fileStem {text : String} {char : Char}
    (h : char ∈ (fileStem text).toList) : isPortable char = true := by
  simp only [fileStem] at h
  split at h
  · exact isPortable_of_all (by decide) h
  · rw [String.toList_ofList, List.mem_map] at h
    obtain ⟨original, _, rfl⟩ := h
    exact isPortable_portableChar original

theorem extension_plain (kind : MediaKind) : kind.extension ≠ "" ∧
    kind.extension.toList.all isAsciiAlphanumeric = true := by
  cases kind with
  | video | image | audio => decide

theorem stagedExtension_plain (asset : Asset) : stagedExtension asset ≠ "" ∧
    (stagedExtension asset).toList.all isAsciiAlphanumeric = true := by
  unfold stagedExtension
  split
  · split
    · rename_i hplain
      rw [Bool.and_eq_true, bne_iff_ne] at hplain
      exact hplain
    · exact extension_plain asset.kind
  · exact extension_plain asset.kind

theorem length_hexDigits (width number : Nat) : (Decimal.hexDigits width number).length = width := by
  induction width generalizing number with
  | zero => rfl
  | succ width ih => rw [Decimal.hexDigits, List.length_append, ih, List.length_singleton]

theorem length_short (run : RunId) : run.short.toList.length = 8 := by
  rw [RunId.short, String.toList_ofList, List.length_take, RunId.digits, length_hexDigits]
  decide

/-- A name of a portable stem and a plain extension. -/
structure Parted (name : String) (stem extension : List Char) : Prop where
  chars : name.toList = stem ++ '.' :: extension
  stem_ne_nil : stem ≠ []
  extension_ne_nil : extension ≠ []
  stem_portable : ∀ char ∈ stem, isPortable char = true
  extension_alphanumeric : ∀ char ∈ extension, isAsciiAlphanumeric char = true

namespace Parted

variable (h : Parted name stem extension)

include h

theorem point_not_mem : '.' ∉ stem ∧ '.' ∉ extension :=
  ⟨fun hpoint => absurd (h.stem_portable '.' hpoint) (by decide),
    fun hpoint => absurd (h.extension_alphanumeric '.' hpoint) (by decide)⟩

theorem portable_of_mem {char : Char} (hchar : char ∈ name.toList) :
    isPortable char = true ∨ char = '.' := by
  rw [h.chars, List.mem_append, List.mem_cons] at hchar
  rcases hchar with hstem | rfl | hextension
  · exact .inl (h.stem_portable char hstem)
  · exact .inr rfl
  · exact .inl (isPortable_of_isAsciiAlphanumeric (h.extension_alphanumeric char hextension))

theorem count_point : name.toList.count '.' = 1 := by
  rw [h.chars, List.count_append, List.count_cons_self,
    List.count_eq_zero_of_not_mem h.point_not_mem.1,
    List.count_eq_zero_of_not_mem h.point_not_mem.2]

theorem head?_ne_point : name.toList.head? ≠ some '.' := by
  obtain ⟨char, chars, hstem⟩ := List.exists_cons_of_ne_nil h.stem_ne_nil
  rw [h.chars, hstem, List.cons_append, List.head?_cons]
  intro hpoint
  cases hpoint
  exact h.point_not_mem.1 (hstem ▸ List.mem_cons_self)

theorem isPlain : Path.IsPlain name := by
  have hlength : 2 < name.toList.length := by
    have hstem := List.length_pos_iff.mpr h.stem_ne_nil
    have hextension := List.length_pos_iff.mpr h.extension_ne_nil
    rw [h.chars, List.length_append, List.length_cons]
    omega
  constructor
  · intro hslash
    exact absurd (h.portable_of_mem hslash) (by decide)
  · rintro rfl
    exact absurd hlength (by decide)
  · rintro rfl
    exact absurd hlength (by decide)
  · rintro rfl
    exact absurd hlength (by decide)

theorem inj (h' : Parted name stem' extension') : stem = stem' ∧ extension = extension' := by
  obtain ⟨hstem, -, hextension⟩ := (List.append_cons_inj_of_notMem h.point_not_mem.1
    h.point_not_mem.2).mp (h.chars.symm.trans h'.chars)
  exact ⟨hstem, hextension⟩

end Parted

variable {index index' : Nat} {id id' : String} {asset asset' : Asset}

def stagedStem (index : Nat) (id : String) : List Char :=
  (Decimal.paddedWhole 3 index).toList ++ '_' :: (fileStem id).toList

theorem parted_stagedName (index : Nat) (id : String) (asset : Asset) :
    Parted (stagedName index id asset) (stagedStem index id) (stagedExtension asset).toList where
  chars := by simp [stagedName, stagedStem]
  stem_ne_nil := List.append_ne_nil_of_right_ne_nil _ (List.cons_ne_nil _ _)
  extension_ne_nil := mt String.toList_eq_nil_iff.mp (stagedExtension_plain asset).1
  stem_portable := by
    intro char hchar
    rcases List.mem_append.mp hchar with hchar | hchar
    · exact isPortable_of_mem_paddedWhole hchar
    · rcases List.mem_cons.mp hchar with rfl | hchar
      · rfl
      · exact isPortable_of_mem_fileStem hchar
  extension_alphanumeric := List.all_eq_true.mp (stagedExtension_plain asset).2

/-- Ids may have underscores, but the number in front has none. -/
theorem stagedStem_inj (h : stagedStem index id = stagedStem index' id') :
    index = index' ∧ fileStem id = fileStem id' := by
  have hscore : Decimal.isDigit '_' = false := by decide
  obtain rfl := Decimal.eq_of_paddedWhole_append_eq hscore hscore h
  refine ⟨rfl, String.toList_inj.mp ?_⟩
  exact (List.cons_eq_cons.mp (List.append_cancel_left h)).2

theorem isPlain_stagedName (index : Nat) (id : String) (asset : Asset) :
    Path.IsPlain (stagedName index id asset) :=
  (parted_stagedName index id asset).isPlain

theorem stagedName_inj_iff : stagedName index id asset = stagedName index' id' asset' ↔
    index = index' ∧ fileStem id = fileStem id' ∧ stagedExtension asset = stagedExtension asset' := by
  constructor
  · intro h
    have hparted := parted_stagedName index id asset
    rw [h] at hparted
    obtain ⟨hstem, hextension⟩ := hparted.inj (parted_stagedName index' id' asset')
    obtain ⟨hindex, hid⟩ := stagedStem_inj hstem
    exact ⟨hindex, hid, String.toList_inj.mp hextension⟩
  · rintro ⟨rfl, hid, hextension⟩
    rw [stagedName, stagedName, hid, hextension]

variable {title title' : String} {run run' : RunId} {millis millis' : Nat}

def outputStem (title : String) (run : RunId) (millis : Nat) : List Char :=
  (fileStem title).toList ++ "_timeline".toList ++ '_' :: Decimal.wholeDigits millis ++
    '_' :: run.short.toList

theorem parted_outputName (title : String) (run : RunId) (millis : Nat) :
    Parted (outputName title run millis) (outputStem title run millis) "mp4".toList where
  chars := by simp [outputName, outputStem]
  stem_ne_nil := List.append_ne_nil_of_right_ne_nil _ (List.cons_ne_nil _ _)
  extension_ne_nil := by decide
  stem_portable := by
    intro char hchar
    simp only [outputStem, List.mem_append, List.mem_cons] at hchar
    rcases hchar with ((hchar | hchar) | rfl | hchar) | rfl | hchar
    · exact isPortable_of_mem_fileStem hchar
    · exact isPortable_of_all (by decide) hchar
    · rfl
    · exact isPortable_of_isDigit (Decimal.isDigit_of_mem_wholeDigits hchar)
    · rfl
    · exact isPortable_of_mem_short hchar
  extension_alphanumeric := List.all_eq_true.mp (by decide)

theorem outputStem_inj (h : outputStem title run millis = outputStem title' run' millis') :
    fileStem title = fileStem title' ∧ millis = millis' ∧ run.short = run'.short := by
  have hscore : Decimal.isDigit '_' = false := by decide
  obtain ⟨hfront, hshort⟩ := List.append_inj' h (by simp [length_short])
  obtain ⟨htitle, -, hmillis⟩ := Decimal.append_wholeDigits_inj hscore hscore hfront
  exact ⟨String.toList_inj.mp (List.append_cancel_right htitle), hmillis,
    String.toList_inj.mp (List.cons_eq_cons.mp hshort).2⟩

theorem isPlain_outputName (title : String) (run : RunId) (millis : Nat) :
    Path.IsPlain (outputName title run millis) :=
  (parted_outputName title run millis).isPlain

theorem outputName_inj_iff : outputName title run millis = outputName title' run' millis' ↔
    fileStem title = fileStem title' ∧ millis = millis' ∧ run.short = run'.short := by
  constructor
  · intro h
    have hparted := parted_outputName title run millis
    rw [h] at hparted
    exact outputStem_inj (hparted.inj (parted_outputName title' run' millis')).1
  · rintro ⟨htitle, rfl, hshort⟩
    rw [outputName, outputName, htitle, hshort]

/-- One component of a path, neither hidden nor a way up. -/
structure IsFileName (name : String) : Prop where
  parted : ∃ stem extension, Parted name stem extension
  one_point : name.toList.count '.' = 1
  visible : name.toList.head? ≠ some '.'
  plain : Path.IsPlain name
  component : Path.names name = [name]
  relative : Path.isAbsolute name = false

theorem Parted.isFileName (h : Parted name stem extension) : IsFileName name where
  parted := ⟨stem, extension, h⟩
  one_point := h.count_point
  visible := h.head?_ne_point
  plain := h.isPlain
  component := h.isPlain.names_eq
  relative := h.isPlain.not_isAbsolute

/-- Generated names are safe, and what tells them apart is what they are made of. -/
theorem generated_names (index index' : Nat) (id id' : String) (asset asset' : Asset)
    (title title' : String) (run run' : RunId) (millis millis' : Nat) :
    IsFileName (stagedName index id asset) ∧ IsFileName (outputName title run millis) ∧
      (stagedName index id asset = stagedName index' id' asset' ↔ index = index' ∧
        fileStem id = fileStem id' ∧ stagedExtension asset = stagedExtension asset') ∧
      (outputName title run millis = outputName title' run' millis' ↔
        fileStem title = fileStem title' ∧ millis = millis' ∧ run.short = run'.short) :=
  ⟨(parted_stagedName index id asset).isFileName, (parted_outputName title run millis).isFileName,
    stagedName_inj_iff, outputName_inj_iff⟩

end Compositor
