import Compositor.Engine.Ffmpeg
import Compositor.Proofs.File.Tree
import Compositor.Proofs.Session.Footprint
import Compositor.Proofs.Timeline.Check

/-!
# Refused renders

An engine that may not overwrite refuses a job whose output is there already, and it
changes no file.  The run that asked it takes whatever stands at its output for what is
left of a failed render.  If it is to remove that, it removes a file that was there
before it began; else all files stay.
-/

namespace Compositor

namespace FileSystem

variable {lost : Location → Prop} {before middle after files : FileSystem} {path : String}
  {content : List UInt8}

/-- Whatever was there stays as it was, but for the places that may be lost. -/
structure Keeps (lost : Location → Prop) (before after : FileSystem) : Prop where
  working : after.working = before.working
  entries : ∀ location entry, ¬ lost location → before.entry? location = some entry →
    after.entry? location = some entry

namespace Keeps

theorem refl (files : FileSystem) : Keeps lost files files := ⟨rfl, fun _ _ _ h => h⟩

theorem trans (h₁ : Keeps lost before middle) (h₂ : Keeps lost middle after) :
    Keeps lost before after :=
  ⟨h₂.working.trans h₁.working, fun location entry hkept hentry =>
    h₂.entries location entry hkept (h₁.entries location entry hkept hentry)⟩

theorem of_nowhere (h : Keeps Nowhere before after) : Keeps lost before after :=
  ⟨h.working, fun location entry _ => h.entries location entry id⟩

theorem of_frame {isFree isNew : Location → Prop} (hframe : Frame isFree isNew before after)
    (hnothing : ∀ location, isFree location → before.entry? location = none) :
    Keeps lost before after := by
  refine ⟨hframe.working, fun location entry _ hentry => ?_⟩
  rcases hframe.entries location with hfree | hsame | ⟨-, hnone, -⟩
  · rw [hnothing location hfree] at hentry
    cases hentry
  · rw [hsame, hentry]
  · rw [hnone] at hentry
    cases hentry

theorem keepsDirectories (h : Keeps lost before after)
    (hlost : ∀ location, lost location → before.entry? location ≠ some .directory) :
    before.KeepsDirectories after := fun location hdirectory =>
  h.entries location .directory (fun hlocation => hlost location hlocation hdirectory) hdirectory

theorem locate (h : Keeps (· = before.place path) before after)
    (hstat : before.stat path = .ok (.file content)) :
    after.locate path = .ok (after.place path) := by
  obtain ⟨hlocate, -, hfile⟩ := stat_eq_file_iff.mp hstat
  rw [place_congr h.working]
  refine locate_mono h.working (h.keepsDirectories ?_) hlocate
  rintro location rfl
  simp [hfile]

theorem stat_of_file (h : Keeps (· = before.place path) before after)
    (hstat : before.stat path = .ok (.file content))
    (hfile : after.entry? (before.place path) = some (.file content)) :
    after.stat path = .ok (.file content) := by
  obtain ⟨-, hslash, -⟩ := stat_eq_file_iff.mp hstat
  exact stat_eq_file_iff.mpr ⟨h.locate hstat, hslash, by rwa [place_congr h.working]⟩

theorem stat_of_none (h : Keeps (· = before.place path) before after)
    (hstat : before.stat path = .ok (.file content))
    (hnone : after.entry? (before.place path) = none) : after.stat path = .error .notFound := by
  rw [← place_congr h.working] at hnone
  simp [stat, h.locate hstat, hnone, bind, Except.bind]
  rfl

theorem stat (h : Keeps Nowhere before after) (hstat : before.stat path = .ok (.file content)) :
    after.stat path = .ok (.file content) :=
  h.of_nowhere.stat_of_file hstat (h.entries _ _ id (stat_eq_ok hstat))

end Keeps

theorem keeps_ensureParent (files : FileSystem) (path : String) :
    Keeps Nowhere files (files.ensureParent path).1 := by
  unfold ensureParent
  split
  · exact .refl files
  · rename_i parent _
    split
    · exact .refl files
    · have hframe := frame_ensurePath files parent
      generalize files.ensurePath parent = made at hframe
      obtain ⟨middle, _ | _⟩ := made <;> exact .of_frame hframe fun _ => False.elim

theorem keeps_removeFile (h : files.removeFile path = .ok after) :
    Keeps (· = files.place path) files after :=
  ⟨(frame_removeFile h).working, fun _ _ hkept hentry =>
    ((frame_removeFile h).entry?_eq hkept id).trans hentry⟩

theorem Keeps.eraseTree {location : Location} (h : Keeps lost before after)
    (hnothing : ∀ below, location <+: below → before.entry? below = none) :
    Keeps lost before (after.eraseTree location) := by
  refine ⟨h.working, fun other entry hkept hentry => ?_⟩
  have houtside : ¬ location <+: other := by
    intro hbelow
    rw [hnothing other hbelow] at hentry
    cases hentry
  rw [entry?_eraseTree_outside houtside]
  exact h.entries other entry hkept hentry

end FileSystem

open FileSystem

/-- An engine that may not overwrite fails where its output is, and keeps all files. -/
theorem FfmpegOptions.engine_of_exists {options : FfmpegOptions} (hno : options.overwrite = false)
    (programs : Programs) (job : Job) {files : FileSystem} {content : List UInt8}
    (hstat : files.stat job.output = .ok (.file content)) :
    ∃ after error, options.engine programs job files = .failed after error ∧
      Keeps Nowhere files after := by
  have hkeeps := keeps_ensureParent files job.output
  unfold engine
  generalize files.ensureParent job.output = made at hkeeps ⊢
  obtain ⟨after, error | _⟩ := made
  · exact ⟨after, error, rfl, hkeeps⟩
  · have hexists : after.exists? job.output = true := by
      rw [exists?, hkeeps.stat hstat]
      rfl
    simp only [hno, hexists, Bool.not_false, Bool.and_self, if_true]
    exact ⟨after, _, rfl, hkeeps⟩

/-! ## The run -/

section Runs

variable {options : RunOptions} {draw : RunDraw} {cancellation : Cancellation} {lookup : Lookup}
  {ffmpeg : FfmpegOptions} {programs : Programs} {timeline : Timeline}
  {before files : FileSystem} {path : String} {content : List UInt8}

/-- A run has failed, and of the files that it found it lost at most the one at its output. -/
structure RunReport.Spares (options : RunOptions) (path : String) (content : List UInt8)
    (before : FileSystem) (report : RunReport) : Prop where
  failed : ∃ error, report.outcome = some (.error error)
  others : Keeps (· = before.place path) before report.files
  entry : report.files.entry? (before.place path) =
    if options.removePartial && report.job.isSome then none else some (.file content)

theorem spares_failed (error : RenderError) (hstat : before.stat path = .ok (.file content))
    (hkeeps : Keeps Nowhere before files) :
    (RunReport.failed files error).Spares options path content before where
  failed := ⟨error, rfl⟩
  others := hkeeps.of_nowhere
  entry := by
    have hfile := hkeeps.entries _ _ id (stat_eq_ok hstat)
    simpa [RunReport.failed] using hfile

theorem discardOutput_of_file (options : RunOptions)
    (hstat : before.stat path = .ok (.file content)) (hkeeps : Keeps Nowhere before files) :
    Keeps (· = before.place path) before (discardOutput options files path) ∧
      entry? (discardOutput options files path) (before.place path) =
        if options.removePartial then none else some (.file content) := by
  have hfile := hkeeps.entries _ _ id (stat_eq_ok hstat)
  have hplace := place_congr hkeeps.working path
  unfold discardOutput
  split
  · obtain ⟨hlocate, hslash, hentry⟩ := stat_eq_file_iff.mp (hkeeps.stat hstat)
    have hremove := removeFile_of_file hlocate hslash hentry
    have hremoved := keeps_removeFile hremove
    have hnone := entry?_removeFile hremove
    rw [hplace] at hremove hremoved hnone
    rw [hremove]
    exact ⟨hkeeps.of_nowhere.trans hremoved, hnone⟩
  · exact ⟨hkeeps.of_nowhere, hfile⟩

theorem finishRender_failed (output : String) (error : RenderError) :
    finishRender options output (.failed files error) =
      (discardOutput options files output, some (.error error)) := by
  simp [finishRender, EngineRun.failed, EngineEnd.inTime]

theorem spares_renderStaged (hno : ffmpeg.overwrite = false)
    (hstat : before.stat (outputPath options draw timeline.settings.title) = .ok (.file content))
    (staging : Staging) (hkeeps : Keeps Nowhere before staging.files) :
    (renderStaged options draw cancellation (ffmpeg.engine programs) timeline staging).Spares
      options (outputPath options draw timeline.settings.title) content before := by
  unfold renderStaged
  generalize outputPath options draw timeline.settings.title = path at hstat ⊢
  dsimp only
  split
  · exact spares_failed _ hstat hkeeps
  · generalize hjob : Job.mk _ path _ = job
    obtain rfl : job.output = path := by rw [← hjob]
    obtain ⟨after, error, hengine, hafter⟩ :=
      FfmpegOptions.engine_of_exists hno programs job (hkeeps.stat hstat)
    obtain ⟨hothers, hentry⟩ :=
      discardOutput_of_file options hstat (hkeeps.trans hafter)
    rw [hengine, finishRender_failed]
    exact ⟨⟨error, rfl⟩, hothers, by simpa using hentry⟩

theorem spares_runWithin (hno : ffmpeg.overwrite = false) (htree : before.IsTree)
    (hstat : before.stat (outputPath options draw timeline.settings.title) = .ok (.file content))
    {scratch : Scratch}
    (hmake : before.makeScratch options.scratchRoot draw.scratchName = (files, .ok scratch)) :
    (runWithin options draw cancellation lookup (ffmpeg.engine programs) timeline files
      scratch).Spares options (outputPath options draw timeline.settings.title) content
        before := by
  have hmade := frame_makeScratch hmake
  have hkeeps : Keeps Nowhere before files := .of_frame hmade fun _ => False.elim
  have hlocation : scratch.location = files.place scratch.path := by
    rw [hmade.place_eq]
    exact (isScratch_makeScratch hmake).location_eq
  unfold runWithin
  split
  · exact spares_failed _ hstat hkeeps
  · have hstaged := frame_stageAll files hlocation (timeline.lookupAll lookup)
    have hframe : Frame (scratch.location <+: ·) (fun _ => True) before
        (stageAll files scratch (timeline.lookupAll lookup)).files :=
      (hmade.mono (fun _ => False.elim) fun _ => id).trans
        (hstaged.mono (fun _ => id) fun _ => False.elim)
    refine spares_renderStaged hno hstat _ (.of_frame hframe fun below hbelow => ?_)
    exact htree.nothing_below (nothing_of_makeScratch hmake) hbelow

theorem RunReport.Spares.close {report : RunReport} {location : Location}
    (h : report.Spares options path content before)
    (hstat : before.stat path = .ok (.file content))
    (hnothing : ∀ below, location <+: below → before.entry? below = none) :
    RunReport.Spares options path content before
      { report with files := report.files.eraseTree location } where
  failed := h.failed
  others := h.others.eraseTree hnothing
  entry := by
    have houtside : ¬ location <+: before.place path := by
      intro hbelow
      have hnone := hnothing _ hbelow
      rw [stat_eq_ok hstat] at hnone
      cases hnone
    rw [entry?_eraseTree_outside houtside]
    exact h.entry

theorem spares_run (hno : ffmpeg.overwrite = false) (htree : before.IsTree)
    (hstat : before.stat (outputPath options draw timeline.settings.title) = .ok (.file content)) :
    (run options draw cancellation lookup (ffmpeg.engine programs) timeline before).Spares
      options (outputPath options draw timeline.settings.title) content before := by
  unfold run
  split
  · exact spares_failed _ hstat (.refl before)
  · split
    · exact spares_failed _ hstat (.refl before)
    · split
      · rename_i hmake
        have hframe := frame_makeScratch_error hmake
        exact spares_failed _ hstat (.of_frame hframe fun _ => False.elim)
      · rename_i scratch hmake
        exact (spares_runWithin hno htree hstat hmake).close hstat fun _ =>
          htree.nothing_below (nothing_of_makeScratch hmake)

/-- A valid timeline comes to the engine if a scratch directory can be made and the run is not
cancelled before. -/
theorem isSome_job_run_iff (options : RunOptions) (draw : RunDraw) (cancellation : Cancellation)
    (lookup : Lookup) (engine : Engine) (timeline : Timeline) (before : FileSystem) :
    (run options draw cancellation lookup engine timeline before).job.isSome = true ↔
      timeline.validate = .ok () ∧ (cancellation = .never ∨ cancellation = .duringRender) ∧
        ∃ made scratch,
          before.makeScratch options.scratchRoot draw.scratchName = (made, .ok scratch) := by
  unfold run
  cases timeline.validate with
  | error problem => simp [RunReport.failed]
  | ok =>
      generalize before.makeScratch options.scratchRoot draw.scratchName = made
      obtain ⟨files, _ | scratch⟩ := made <;> cases cancellation <;>
        simp [RunReport.failed, runWithin, renderStaged]

structure RunReport.Refused (options : RunOptions) (draw : RunDraw) (cancellation : Cancellation)
    (timeline : Timeline) (content : List UInt8) (before : FileSystem) (report : RunReport) :
    Prop where
  failed : ∃ error, report.outcome = some (.error error)
  output : report.files.stat (outputPath options draw timeline.settings.title) =
    if options.removePartial && report.job.isSome then .error .notFound else .ok (.file content)
  asked_iff : report.job.isSome = true ↔
    timeline.validate = .ok () ∧ (cancellation = .never ∨ cancellation = .duringRender) ∧
      ∃ made scratch,
        before.makeScratch options.scratchRoot draw.scratchName = (made, .ok scratch)
  others : Keeps (· = before.place (outputPath options draw timeline.settings.title)) before
    report.files

/-- Whatever the timeline, the answers, the programs and the moment of a cancellation, the run
fails, and the file is gone just if the engine was asked and partial outputs are removed. -/
theorem refused_run (options : RunOptions) (draw : RunDraw) (cancellation : Cancellation)
    (lookup : Lookup) (ffmpeg : FfmpegOptions) (programs : Programs) (timeline : Timeline)
    (before : FileSystem) (content : List UInt8) (hno : ffmpeg.overwrite = false)
    (htree : before.IsTree)
    (hstat : before.stat (outputPath options draw timeline.settings.title) = .ok (.file content)) :
    (run options draw cancellation lookup (ffmpeg.engine programs) timeline before).Refused options
      draw cancellation timeline content before := by
  have hrun : (run options draw cancellation lookup (ffmpeg.engine programs) timeline before).Spares
      options (outputPath options draw timeline.settings.title) content before :=
    spares_run hno htree hstat
  have hasked := isSome_job_run_iff options draw cancellation lookup (ffmpeg.engine programs)
    timeline before
  generalize run options draw cancellation lookup (ffmpeg.engine programs) timeline before = report
    at hrun hasked
  refine ⟨hrun.failed, ?_, hasked, hrun.others⟩
  have hentry := hrun.entry
  split at hentry
  · rename_i hlost
    rw [if_pos hlost]
    exact hrun.others.stat_of_none hstat hentry
  · rename_i hkept
    rw [if_neg hkept]
    exact hrun.others.stat_of_file hstat hentry

def occupied : FileSystem :=
  ⟨[(["out"], .directory), (["out", "x_timeline_5_00000000.mp4"], .file [1])], []⟩

def careful : FfmpegOptions := { FfmpegOptions.standard with overwrite := false }

def noPrograms : Programs := ⟨fun _ => none, fun _ => none⟩

theorem isTree_occupied : occupied.IsTree := isTree_of_entries (by decide)

theorem stat_occupied :
    occupied.stat (outputPath plainOptions plainDraw blank.settings.title) = .ok (.file [1]) := by
  decide +kernel

theorem refused_run_occupied : careful.overwrite = false ∧ occupied.IsTree ∧
    occupied.stat (outputPath plainOptions plainDraw blank.settings.title) = .ok (.file [1]) ∧
    (run plainOptions plainDraw .never (lookupTable .empty) (careful.engine noPrograms) blank
      occupied).Refused plainOptions plainDraw .never blank [1] occupied :=
  ⟨rfl, isTree_occupied, stat_occupied,
    refused_run _ _ _ _ _ _ _ _ _ rfl isTree_occupied stat_occupied⟩

/-- A file that was there before is gone after a run whose engine may not overwrite it. -/
theorem lost_occupied : careful.overwrite = false ∧ blank.validate = .ok () ∧
    occupied.stat (outputPath plainOptions plainDraw blank.settings.title) = .ok (.file [1]) ∧
    (run plainOptions plainDraw .never (lookupTable .empty) (careful.engine noPrograms) blank
      occupied).files.stat (outputPath plainOptions plainDraw blank.settings.title) =
        .error .notFound :=
  ⟨rfl, Timeline.validate_of_isNone (by decide +kernel), stat_occupied, by decide +kernel⟩

end Runs

end Compositor
