import Compositor.Proofs.File.Places
import Mathlib.Logic.Relation

/-!
# Frames

What an operation may have changed.  A frame names the places where anything may
have happened and the places where a directory may have been made; elsewhere the
files are what they were.
-/

namespace Compositor

namespace FileSystem

def Nowhere : Location → Prop := fun _ => False

/-- At a free place anything may have changed, and at a new place a directory may have been
made. -/
structure Frame (isFree isNew : Location → Prop) (before after : FileSystem) : Prop where
  working : after.working = before.working
  entries : ∀ location, isFree location ∨ after.entry? location = before.entry? location ∨
    (isNew location ∧ before.entry? location = none ∧
      after.entry? location = some .directory)

namespace Frame

variable {isFree isNew : Location → Prop} {before middle after : FileSystem}

theorem refl (isFree isNew : Location → Prop) (files : FileSystem) :
    Frame isFree isNew files files :=
  ⟨rfl, fun _ => Or.inr (Or.inl rfl)⟩

theorem trans (h₁ : Frame isFree isNew before middle) (h₂ : Frame isFree isNew middle after) :
    Frame isFree isNew before after := by
  refine ⟨h₂.working.trans h₁.working, fun location => ?_⟩
  rcases h₁.entries location with hfree | hsame | ⟨hnew, hnone, hmade⟩
  · exact Or.inl hfree
  · simpa [hsame] using h₂.entries location
  · rcases h₂.entries location with hfree | hsame | ⟨_, hmissing, _⟩
    · exact Or.inl hfree
    · exact Or.inr (Or.inr ⟨hnew, hnone, hsame.trans hmade⟩)
    · simp [hmade] at hmissing

theorem mono {isFree' isNew' : Location → Prop} (h : Frame isFree isNew before after)
    (hfree : ∀ location, isFree location → isFree' location)
    (hnew : ∀ location, isNew location → isNew' location) :
    Frame isFree' isNew' before after := by
  refine ⟨h.working, fun location => ?_⟩
  rcases h.entries location with hlocation | hsame | ⟨hlocation, hmade⟩
  · exact Or.inl (hfree location hlocation)
  · exact Or.inr (Or.inl hsame)
  · exact Or.inr (Or.inr ⟨hnew location hlocation, hmade⟩)

theorem free_of_new (h : Frame isFree isNew before after) :
    Frame (fun location => isFree location ∨ isNew location) Nowhere before after := by
  refine ⟨h.working, fun location => ?_⟩
  rcases h.entries location with hlocation | hsame | ⟨hlocation, _⟩
  · exact Or.inl (Or.inl hlocation)
  · exact Or.inr (Or.inl hsame)
  · exact Or.inl (Or.inr hlocation)

theorem entry?_eq (h : Frame isFree isNew before after) {location : Location}
    (hfree : ¬ isFree location) (hnew : ¬ isNew location) :
    after.entry? location = before.entry? location := by
  rcases h.entries location with hlocation | hsame | ⟨hlocation, _⟩
  · exact absurd hlocation hfree
  · exact hsame
  · exact absurd hlocation hnew

theorem place_eq (h : Frame isFree isNew before after) (path : String) :
    after.place path = before.place path :=
  place_congr h.working path

theorem keepsDirectories (h : Frame Nowhere isNew before after) :
    before.KeepsDirectories after := by
  intro location hdirectory
  rcases h.entries location with hfree | hsame | ⟨_, hnone, _⟩
  · exact hfree.elim
  · rw [hsame, hdirectory]
  · simp [hdirectory] at hnone

end Frame

variable {files after : FileSystem} {path : String}

theorem makeDirectory_eq_ok (h : files.makeDirectory path = .ok after) :
    files.entry? (files.place path) = none ∧
      after = files.put (files.place path) .directory := by
  simp only [makeDirectory, bind, Except.bind] at h
  split at h
  · cases h
  · rename_i location hlocate
    obtain rfl := locate_eq_ok hlocate
    split at h
    · cases h
    · rename_i hnone
      cases h
      exact ⟨hnone, rfl⟩

theorem place_ne_nil_of_makeDirectory (h : files.makeDirectory path = .ok after) :
    files.place path ≠ [] := by
  intro hroot
  simpa [hroot] using (makeDirectory_eq_ok h).1

theorem frame_makeDirectory (h : files.makeDirectory path = .ok after) :
    Frame Nowhere (· = files.place path) files after := by
  have hne := place_ne_nil_of_makeDirectory h
  obtain ⟨hnone, rfl⟩ := makeDirectory_eq_ok h
  refine ⟨rfl, fun location => ?_⟩
  by_cases heq : location = files.place path
  · subst heq
    exact Or.inr (Or.inr ⟨rfl, hnone, entry?_put_self hne _⟩)
  · exact Or.inr (Or.inl (entry?_put_of_ne heq _))

def MakesOne (paths : List String) (before after : FileSystem) : Prop :=
  ∃ path ∈ paths, before.makeDirectory path = .ok after

theorem frame_makesOne {isNew : Location → Prop} {paths : List String}
    (hsteps : Relation.ReflTransGen (MakesOne paths) files after)
    (hnew : ∀ path ∈ paths, isNew (files.place path)) : Frame Nowhere isNew files after := by
  induction hsteps with
  | refl => exact Frame.refl _ _ _
  | tail _ hstep ih =>
      obtain ⟨path, hpath, hmake⟩ := hstep
      refine ih.trans ((frame_makeDirectory hmake).mono (fun _ => id) ?_)
      rintro location rfl
      rw [ih.place_eq]
      exact hnew path hpath

theorem makesOne_ensureDirectory {paths : List String} (hpath : path ∈ paths)
    (h : files.ensureDirectory path = .ok after) :
    Relation.ReflTransGen (MakesOne paths) files after := by
  unfold ensureDirectory at h
  split at h
  · split at h
    · cases h
      exact .refl
    · cases h
  · exact .single ⟨path, hpath, h⟩

theorem makesOne_ensureAll (files : FileSystem) (paths : List String) :
    Relation.ReflTransGen (MakesOne paths) files (files.ensureAll paths).1 := by
  induction paths with
  | nil => exact .refl
  | cons path above ih =>
      have habove : Relation.ReflTransGen (MakesOne (path :: above)) files
          (files.ensureAll above).1 :=
        ih.lift id fun _ _ ⟨other, hother, hmake⟩ =>
          ⟨other, List.mem_cons_of_mem path hother, hmake⟩
      rw [ensureAll]
      split
      · rename_i hafter
        exact makesOne_ensureDirectory List.mem_cons_self hafter
      · generalize files.ensureAll above = made at habove ⊢
        obtain ⟨middle, _ | _⟩ := made
        · exact habove
        · dsimp only
          split
          · rename_i hafter
            exact habove.trans (makesOne_ensureDirectory List.mem_cons_self hafter)
          · exact habove
      · exact .refl

theorem frame_ensurePath (files : FileSystem) (path : String) :
    Frame Nowhere (files.OnWay path) files (files.ensurePath path).1 :=
  frame_makesOne (makesOne_ensureAll files (ancestors path)) fun above habove =>
    (onWay_place files above).of_mem_ancestors habove

theorem write_eq_ok {content : List UInt8} (h : files.write path content = .ok after) :
    files.locate path = .ok (files.place path) ∧
      files.entry? (files.place path) ≠ some .directory ∧
      after = files.put (files.place path) (.file content) := by
  simp only [write, bind, Except.bind, pure, Except.pure] at h
  split at h
  · cases h
  · rename_i location hlocate
    obtain rfl := locate_eq_ok hlocate
    split at h
    · cases h
    · split at h
      · cases h
      · rename_i hentry
        cases h
        exact ⟨hlocate, hentry, rfl⟩

theorem frame_write {content : List UInt8} (h : files.write path content = .ok after) :
    Frame (· = files.place path) Nowhere files after := by
  obtain ⟨_, _, rfl⟩ := write_eq_ok h
  refine ⟨rfl, fun location => ?_⟩
  by_cases heq : location = files.place path
  · exact Or.inl heq
  · exact Or.inr (Or.inl (entry?_put_of_ne heq _))

theorem keepsDirectories_write {content : List UInt8}
    (h : files.write path content = .ok after) : files.KeepsDirectories after := by
  intro location hdirectory
  obtain ⟨_, hentry, _⟩ := write_eq_ok h
  have hne : location ≠ files.place path := by
    rintro rfl
    exact hentry hdirectory
  rw [(frame_write h).entry?_eq hne id, hdirectory]

theorem stat_eq_ok {entry : FileEntry} (h : files.stat path = .ok entry) :
    files.entry? (files.place path) = some entry := by
  simp only [stat, bind, Except.bind, pure, Except.pure] at h
  split at h
  · cases h
  · rename_i location hlocate
    obtain rfl := locate_eq_ok hlocate
    split at h
    · cases h
    · rename_i hentry
      cases h
      exact hentry
    · rename_i content hentry
      split at h
      · cases h
      · cases h
        exact hentry

theorem removeFile_eq_ok (h : files.removeFile path = .ok after) :
    (∃ content, files.entry? (files.place path) = some (.file content)) ∧
      after = files.erase (files.place path) := by
  simp only [removeFile, bind, Except.bind, pure, Except.pure] at h
  split at h
  · cases h
  · rename_i location hlocate
    obtain rfl := locate_eq_ok hlocate
    split at h
    · cases h
    · rename_i hstat
      split at h
      · cases h
      · cases h
        exact ⟨⟨_, stat_eq_ok hstat⟩, rfl⟩

theorem frame_removeFile (h : files.removeFile path = .ok after) :
    Frame (· = files.place path) Nowhere files after := by
  obtain ⟨_, rfl⟩ := removeFile_eq_ok h
  refine ⟨rfl, fun location => ?_⟩
  by_cases heq : location = files.place path
  · exact Or.inl heq
  · exact Or.inr (Or.inl (entry?_erase_of_ne heq))

theorem entry?_removeFile (h : files.removeFile path = .ok after) :
    after.entry? (files.place path) = none := by
  obtain ⟨⟨content, hfile⟩, rfl⟩ := removeFile_eq_ok h
  refine entry?_erase_self ?_
  intro hroot
  simp [hroot] at hfile

theorem stat_of_file {content : List UInt8}
    (hlocate : files.locate path = .ok (files.place path)) (hslash : endsInSlash path = false)
    (hfile : files.entry? (files.place path) = some (.file content)) :
    files.stat path = .ok (.file content) := by
  simp [stat, hlocate, hfile, hslash, bind, Except.bind, pure, Except.pure]

theorem removeFile_of_file {content : List UInt8}
    (hlocate : files.locate path = .ok (files.place path)) (hslash : endsInSlash path = false)
    (hfile : files.entry? (files.place path) = some (.file content)) :
    files.removeFile path = .ok (files.erase (files.place path)) := by
  simp [removeFile, hlocate, stat_of_file hlocate hslash hfile, bind, Except.bind, pure,
    Except.pure]

end FileSystem

end Compositor
