import Compositor.Proofs.File.Frame
import Compositor.Proofs.Session.FileNames

/-!
# Files of a scratch directory

Making a scratch directory makes directories on the way to its root and nothing
else, and staging writes below the scratch directory only.
-/

namespace Compositor

theorem exists_eq_of_isSome {α ε : Type} {made : α × Except ε Scratch}
    (h : made.2.toOption.isSome = true) : ∃ files scratch, made = (files, .ok scratch) := by
  obtain ⟨files, error | scratch⟩ := made
  · cases h
  · exact ⟨files, scratch, rfl⟩

namespace FileSystem

variable {files after : FileSystem} {root : String} {name : ScratchName} {scratch : Scratch}

theorem exists_makeDirectory_of_makeScratch
    (h : files.makeScratch root name = (after, .ok scratch)) :
    (files.ensurePath root).1.makeDirectory scratch.path = .ok after ∧
      scratch.location = (files.ensurePath root).1.place scratch.path := by
  unfold makeScratch at h
  generalize files.ensurePath root = made at h ⊢
  obtain ⟨middle, _ | _⟩ := made
  · cases h
  · dsimp only at h ⊢
    generalize middle.scratchPath root name = path at h
    split at h
    · rename_i hmake hlocate
      simp only [Prod.mk.injEq, Except.ok.injEq] at h
      obtain ⟨rfl, rfl⟩ := h
      exact ⟨hmake, locate_eq_ok hlocate⟩
    · simp only [Prod.mk.injEq, reduceCtorEq, and_false] at h
    · simp only [Prod.mk.injEq, reduceCtorEq, and_false] at h

theorem nothing_of_makeScratch (h : files.makeScratch root name = (after, .ok scratch)) :
    files.entry? scratch.location = none := by
  obtain ⟨hmake, hlocation⟩ := exists_makeDirectory_of_makeScratch h
  have hnone := (makeDirectory_eq_ok hmake).1
  rw [← hlocation] at hnone
  rcases (frame_ensurePath files root).entries scratch.location with hfree | hsame | ⟨_, hbefore, _⟩
  · exact hfree.elim
  · rw [← hsame, hnone]
  · exact hbefore

theorem kind_makeScratch {error : RenderError}
    (h : files.makeScratch root name = (after, .error error)) : error.kind = "internal" := by
  unfold makeScratch at h
  generalize files.ensurePath root = made at h
  obtain ⟨middle, _ | _⟩ := made
  · cases h
    rfl
  · dsimp only at h
    split at h
    · cases h
    · cases h
      rfl
    · cases h
      rfl

theorem frame_makeScratch_error {error : RenderError}
    (h : files.makeScratch root name = (after, .error error)) :
    Frame Nowhere (files.OnWay root) files after := by
  have hroot := frame_ensurePath files root
  unfold makeScratch at h
  generalize files.ensurePath root = made at h hroot
  obtain ⟨middle, _ | _⟩ := made
  · cases h
    exact hroot
  · dsimp only at h
    split at h
    · cases h
    · cases h
      exact hroot
    · cases h
      exact hroot

/-- A scratch directory that was made, with the changes that making it took. -/
structure IsScratch (root : String) (name : ScratchName) (before after : FileSystem)
    (scratch : Scratch) : Prop where
  path_eq : scratch.path = before.scratchPath root name
  location_eq : scratch.location = before.place scratch.path
  location_ne : scratch.location ≠ []
  there : after.entry? scratch.location = some .directory
  frame : Frame (· = scratch.location) (before.OnWay root) before after

theorem isScratch_makeScratch (h : files.makeScratch root name = (after, .ok scratch)) :
    IsScratch root name files after scratch := by
  have hroot := frame_ensurePath files root
  unfold makeScratch at h
  generalize files.ensurePath root = made at h hroot
  obtain ⟨middle, _ | _⟩ := made
  · cases h
  · have hpath : middle.scratchPath root name = files.scratchPath root name := by
      simp only [scratchPath]
      rw [hroot.working]
    dsimp only at h
    generalize middle.scratchPath root name = path at h hpath
    split at h
    · rename_i location hmake hlocate
      simp only [Prod.mk.injEq, Except.ok.injEq] at h
      obtain ⟨rfl, rfl⟩ := h
      have hlocation := locate_eq_ok hlocate
      refine ⟨hpath, hlocation.trans (hroot.place_eq path), ?_, ?_, ?_⟩
      · exact hlocation ▸ place_ne_nil_of_makeDirectory hmake
      · rw [hlocation, (makeDirectory_eq_ok hmake).2]
        exact entry?_put_self (place_ne_nil_of_makeDirectory hmake) _
      · refine (hroot.mono (fun _ => False.elim) (fun _ => id)).trans ?_
        refine (frame_makeDirectory hmake).free_of_new.mono ?_ (fun _ => False.elim)
        rintro other (hfree | hother)
        · exact hfree.elim
        · exact hother.trans hlocation.symm
    · simp only [Prod.mk.injEq, reduceCtorEq, and_false] at h
    · simp only [Prod.mk.injEq, reduceCtorEq, and_false] at h

theorem frame_makeScratch (h : files.makeScratch root name = (after, .ok scratch)) :
    Frame Nowhere (fun _ => True) files after := by
  have hroot := frame_ensurePath files root
  unfold makeScratch at h
  generalize files.ensurePath root = made at h hroot
  obtain ⟨middle, _ | _⟩ := made
  · cases h
  · dsimp only at h
    generalize middle.scratchPath root name = path at h
    split at h
    · rename_i hmake _
      simp only [Prod.mk.injEq] at h
      obtain ⟨rfl, -⟩ := h
      exact (hroot.mono (fun _ => id) fun _ _ => trivial).trans
        ((frame_makeDirectory hmake).mono (fun _ => id) fun _ _ => trivial)
    · simp only [Prod.mk.injEq, reduceCtorEq, and_false] at h
    · simp only [Prod.mk.injEq, reduceCtorEq, and_false] at h

end FileSystem

open FileSystem

/-- An asset with its answer, and its number among the answers. -/
abbrev Answered := (String × Asset × Except LookupError AssetContent) × Nat

def stagedPlace (scratch : Scratch) (item : Answered) : Location :=
  scratch.location ++ [stagedName item.2 item.1.1 item.1.2.1]

def stagedPath (scratch : Scratch) (item : Answered) : String :=
  Path.join scratch.path (stagedName item.2 item.1.1 item.1.2.1)

theorem stagedPlace_ne {first second : Answered} (h : first.2 ≠ second.2) (scratch : Scratch) :
    stagedPlace scratch first ≠ stagedPlace scratch second := by
  intro heq
  rw [stagedPlace, stagedPlace, List.append_cancel_left_eq, List.cons.injEq] at heq
  exact h (stagedName_inj_iff.mp heq.1).1

theorem endsInSlash_stagedPath (scratch : Scratch) (item : Answered) :
    endsInSlash (stagedPath scratch item) = false :=
  endsInSlash_join (isPlain_stagedName _ _ _) _

variable {scratch : Scratch} {item : Answered}

theorem place_stagedPath {files : FileSystem}
    (hlocation : scratch.location = files.place scratch.path) :
    files.place (stagedPath scratch item) = stagedPlace scratch item := by
  rw [stagedPath, place_join (isPlain_stagedName _ _ _), ← hlocation, stagedPlace]

theorem stage_bytes (files : FileSystem) (scratch : Scratch) (index : Nat) (id : String)
    (asset : Asset) (content : List UInt8) :
    (∃ error, files.stage scratch index id asset (.bytes content) = (files, .error error)) ∨
      ∃ after,
        files.write (Path.join scratch.path (stagedName index id asset)) content = .ok after ∧
        files.stage scratch index id asset (.bytes content) =
          (after, .ok (Path.join scratch.path (stagedName index id asset))) := by
  unfold stage
  dsimp only
  generalize Path.join scratch.path (stagedName index id asset) = path
  cases files.write path content with
  | error error => exact .inl ⟨_, rfl⟩
  | ok after => exact .inr ⟨after, rfl, rfl⟩

namespace Staging

theorem files_add_cases (staging : Staging) (scratch : Scratch) (item : Answered) :
    (staging.add scratch item).files = staging.files ∨
      ∃ content, item.1.2.2 = .ok (.bytes content) ∧
        staging.files.write (stagedPath scratch item) content =
          .ok (staging.add scratch item).files := by
  obtain ⟨⟨id, asset, answer⟩, index⟩ := item
  obtain error | (path | content) := answer
  · exact .inl rfl
  · exact .inl rfl
  · simp only [add]
    rcases stage_bytes staging.files scratch index id asset content with
      ⟨error, hstaged⟩ | ⟨after, hwrite, hstaged⟩
    · rw [hstaged]
      exact .inl rfl
    · rw [hstaged]
      exact .inr ⟨content, rfl, hwrite⟩

theorem frame_add (staging : Staging) (item : Answered)
    (hlocation : scratch.location = staging.files.place scratch.path) :
    Frame (· = stagedPlace scratch item) Nowhere staging.files
      (staging.add scratch item).files := by
  rcases staging.files_add_cases scratch item with hsame | ⟨content, -, hwrite⟩
  · rw [hsame]
    exact Frame.refl _ _ _
  · rw [← place_stagedPath hlocation]
    exact frame_write hwrite

theorem keepsDirectories_add (staging : Staging) (item : Answered) :
    staging.files.KeepsDirectories (staging.add scratch item).files := by
  rcases staging.files_add_cases scratch item with hsame | ⟨content, -, hwrite⟩
  · rw [hsame]
    exact fun _ h => h
  · exact keepsDirectories_write hwrite

theorem frame_foldl_add_places (items : List Answered) (staging : Staging)
    (hlocation : scratch.location = staging.files.place scratch.path) :
    Frame (fun location => ∃ item ∈ items, location = stagedPlace scratch item) Nowhere
      staging.files (items.foldl (Staging.add scratch) staging).files := by
  induction items generalizing staging with
  | nil => exact Frame.refl _ _ _
  | cons item items ih =>
      have hadd := staging.frame_add item hlocation
      have hrest := ih (staging.add scratch item) (hlocation.trans (hadd.place_eq _).symm)
      apply Frame.trans
      · exact hadd.mono (fun _ h => ⟨item, List.mem_cons_self, h⟩) fun _ => id
      · refine hrest.mono (fun _ h => ?_) fun _ => id
        obtain ⟨other, hother, heq⟩ := h
        exact ⟨other, List.mem_cons_of_mem item hother, heq⟩

theorem frame_foldl_add (items : List Answered) (staging : Staging)
    (hlocation : scratch.location = staging.files.place scratch.path) :
    Frame (scratch.location <+: ·) Nowhere staging.files
      (items.foldl (Staging.add scratch) staging).files := by
  apply (frame_foldl_add_places items staging hlocation).mono
  · rintro _ ⟨item, -, rfl⟩
    exact List.prefix_append _ _
  · exact fun _ => id

theorem keepsDirectories_foldl_add (items : List Answered) (staging : Staging) :
    staging.files.KeepsDirectories (items.foldl (Staging.add scratch) staging).files := by
  induction items generalizing staging with
  | nil => exact fun _ h => h
  | cons item items ih =>
      exact fun location h => ih _ location (staging.keepsDirectories_add item location h)

end Staging

theorem frame_stageAll (files : FileSystem)
    (hlocation : scratch.location = files.place scratch.path)
    (answers : List (String × Asset × Except LookupError AssetContent)) :
    Frame (scratch.location <+: ·) Nowhere files (stageAll files scratch answers).files :=
  Staging.frame_foldl_add answers.zipIdx ⟨files, .empty, []⟩ hlocation

end Compositor
