import Compositor.Engine.Ffmpeg
import Compositor.Proofs.File.Frame

/-!
# Engines that write their output

An engine that keeps to its output makes directories above it, writes it and
removes it, as often and in any order as it likes.  Whatever it did, the rest of
the files is as before, and what stands at the output is a file that can be
reached.
-/

namespace Compositor

open FileSystem

variable {output : String} {start before after files : FileSystem}

/-- What an engine may do to the files at a time. -/
inductive OutputStep (output : String) : FileSystem → FileSystem → Prop where
  | directory {parent : String} {before after : FileSystem} :
      Path.parent? output = some parent → MakesOne (ancestors parent) before after →
      OutputStep output before after
  | write {content : List UInt8} {before after : FileSystem} :
      before.write output content = .ok after → OutputStep output before after
  | remove {before after : FileSystem} :
      before.removeFile output = .ok after → OutputStep output before after

/-- Whatever job it is given, the engine does nothing but steps towards its output. -/
def Engine.KeepsToOutput (engine : Engine) : Prop :=
  ∀ job files, Relation.ReflTransGen (OutputStep job.output) files (engine job files).files

def FileSystem.Above (files : FileSystem) (path : String) (location : Location) : Prop :=
  ∃ parent, Path.parent? path = some parent ∧ files.OnWay parent location

theorem above_congr {before after : FileSystem} (h : after.working = before.working)
    (path : String) : after.Above path = before.Above path := by
  funext location
  simp [Above, onWay_congr h]

/-- Nothing but the output and the directories above it has changed, and what is at the output
is a file that can be reached. -/
structure OutputOnly (output : String) (start files : FileSystem) : Prop where
  frame : Frame (· = start.place output) (start.Above output) start files
  reached : ∀ entry, files.entry? (start.place output) = some entry →
    (∃ content, entry = .file content) ∧ files.locate output = .ok (start.place output)

namespace OutputOnly

theorem refl (hnone : files.entry? (files.place output) = none) :
    OutputOnly output files files :=
  ⟨Frame.refl _ _ _, fun entry hentry => by simp [hnone] at hentry⟩

theorem directory (h : OutputOnly output start before)
    (habove : ¬ start.Above output (start.place output)) {parent : String}
    (hparent : Path.parent? output = some parent)
    (hstep : MakesOne (ancestors parent) before after) : OutputOnly output start after := by
  have hframe : Frame Nowhere (start.Above output) before after := by
    refine frame_makesOne (.single hstep) fun path hpath => ?_
    rw [h.frame.place_eq]
    exact ⟨parent, hparent, (onWay_place start path).of_mem_ancestors hpath⟩
  refine ⟨h.frame.trans (hframe.mono (fun _ => False.elim) (fun _ => id)), ?_⟩
  intro entry hentry
  rw [hframe.entry?_eq id habove] at hentry
  obtain ⟨hfile, hlocate⟩ := h.reached entry hentry
  exact ⟨hfile, locate_mono hframe.working hframe.keepsDirectories hlocate⟩

theorem write (h : OutputOnly output start before) {content : List UInt8}
    (hwrite : before.write output content = .ok after) : OutputOnly output start after := by
  have hframe := frame_write hwrite
  have hkeeps := keepsDirectories_write hwrite
  have hworking := hframe.working
  obtain ⟨hlocate, hentry, rfl⟩ := write_eq_ok hwrite
  rw [h.frame.place_eq] at hframe hkeeps hworking hlocate hentry ⊢
  refine ⟨h.frame.trans (hframe.mono (fun _ => id) (fun _ => False.elim)), ?_⟩
  intro entry hfound
  have hne : start.place output ≠ [] := by
    intro hroot
    simp [hroot] at hentry
  rw [entry?_put_self hne, Option.some_inj] at hfound
  exact ⟨⟨content, hfound.symm⟩, locate_mono hworking hkeeps hlocate⟩

theorem remove (h : OutputOnly output start before)
    (hremove : before.removeFile output = .ok after) : OutputOnly output start after := by
  have hframe := frame_removeFile hremove
  have hnone := entry?_removeFile hremove
  rw [h.frame.place_eq] at hframe hnone
  refine ⟨h.frame.trans (hframe.mono (fun _ => id) (fun _ => False.elim)), ?_⟩
  intro entry hentry
  simp [hnone] at hentry

theorem step (h : OutputOnly output start before)
    (habove : ¬ start.Above output (start.place output)) (hstep : OutputStep output before after) :
    OutputOnly output start after := by
  cases hstep with
  | directory hparent hmake => exact h.directory habove hparent hmake
  | write hwrite => exact h.write hwrite
  | remove hremove => exact h.remove hremove

theorem of_steps (hnone : start.entry? (start.place output) = none)
    (habove : ¬ start.Above output (start.place output))
    (hsteps : Relation.ReflTransGen (OutputStep output) start files) :
    OutputOnly output start files := by
  induction hsteps with
  | refl => exact OutputOnly.refl hnone
  | tail _ hstep ih => exact ih.step habove hstep

theorem stat_eq (h : OutputOnly output start files) (hslash : endsInSlash output = false)
    {entry : FileEntry} (hentry : files.entry? (start.place output) = some entry) :
    ∃ content, entry = .file content ∧ files.stat output = .ok (.file content) := by
  obtain ⟨⟨content, rfl⟩, hlocate⟩ := h.reached entry hentry
  rw [← h.frame.place_eq] at hlocate hentry
  exact ⟨content, rfl, stat_of_file hlocate hslash hentry⟩

end OutputOnly

theorem outputStep_ensureParent (files : FileSystem) (output : String) :
    Relation.ReflTransGen (OutputStep output) files (files.ensureParent output).1 := by
  unfold FileSystem.ensureParent
  split
  · exact .refl
  · rename_i parent hparent
    have hmakes := makesOne_ensureAll files (ancestors parent)
    have hsteps : Relation.ReflTransGen (OutputStep output) files
        (files.ensureAll (ancestors parent)).1 :=
      hmakes.lift id fun _ _ hmake => .directory hparent hmake
    split
    · exact .refl
    · rw [ensurePath]
      generalize files.ensureAll (ancestors parent) = made at hsteps ⊢
      obtain ⟨middle, _ | _⟩ := made <;> exact hsteps

/-- The engine keeps to its output if the programs that it starts do. -/
theorem FfmpegOptions.keepsToOutput_engine (options : FfmpegOptions) (programs : Programs)
    (hprograms : ∀ (job : Job) files run,
      programs.start files options.program (options.arguments job.plan job.output) = .ok run →
        Relation.ReflTransGen (OutputStep job.output) files run.files) :
    (options.engine programs).KeepsToOutput := by
  intro job files
  have hparent := outputStep_ensureParent files job.output
  unfold FfmpegOptions.engine
  generalize files.ensureParent job.output = made at hparent ⊢
  obtain ⟨middle, _ | _⟩ := made
  · exact hparent
  · dsimp only
    split
    · exact hparent
    · split
      · exact hparent
      · rename_i run hrun
        exact hparent.trans (hprograms job middle run hrun)

def Engine.writer (content : List UInt8) : Engine := fun job files =>
  match files.ensureParent job.output with
  | (files, .error error) => .failed files error
  | (files, .ok ()) =>
    match files.write job.output content with
    | .ok files => ⟨files, [], .finished 1 (.ok "")⟩
    | .error error => .failed files (.engine error.message "")

theorem Engine.keepsToOutput_writer (content : List UInt8) :
    (Engine.writer content).KeepsToOutput := by
  intro job files
  have hparent := outputStep_ensureParent files job.output
  unfold Engine.writer
  generalize files.ensureParent job.output = made at hparent ⊢
  obtain ⟨middle, _ | _⟩ := made
  · exact hparent
  · dsimp only
    split
    · rename_i hwrite
      exact hparent.tail (.write hwrite)
    · exact hparent

end Compositor
