import Compositor.Proofs.Engine.Output
import Compositor.Proofs.Session.Staging

/-!
# The footprint of a run

A run leaves the files as they were, on each of its ways out, but for the output
and for directories on the way to the output directory and to the root of the
scratch directories.  The output is there with its size after a success, and
after a failure it is gone if that is wanted.
-/

namespace Compositor

open FileSystem

section Outputs

variable {options : RunOptions} {output : String} {start files : FileSystem}

theorem OutputOnly.discard (h : OutputOnly output start files) :
    OutputOnly output start (discardOutput options files output) := by
  unfold discardOutput
  split
  · split
    · rename_i hremove
      exact h.remove hremove
    · exact h
  · exact h

theorem OutputOnly.entry?_discard (h : OutputOnly output start files)
    (hslash : endsInSlash output = false) :
    entry? (discardOutput options files output) (start.place output) =
      if options.removePartial then none else files.entry? (start.place output) := by
  unfold discardOutput
  split
  · split
    · rename_i hremove
      have hnone := entry?_removeFile hremove
      rwa [h.frame.place_eq] at hnone
    · rename_i hremove
      cases hentry : files.entry? (start.place output) with
      | none => rfl
      | some entry =>
          obtain ⟨⟨content, rfl⟩, hlocate⟩ := h.reached entry hentry
          rw [← h.frame.place_eq] at hentry hlocate
          rw [removeFile_of_file hlocate hslash hentry] at hremove
          cases hremove
  · rfl

/-- What stands at the output in the end, if the engine left the files `left`. -/
def OutcomeLeaves (options : RunOptions) (output : Location) (left files : FileSystem) :
    Option (Except RenderError Nat) → Prop
  | none => files.entry? output = left.entry? output
  | some (.ok size) =>
    ∃ content, files.entry? output = some (.file content) ∧ content.length = size ∧ 0 < size
  | some (.error _) =>
    files.entry? output = if options.removePartial then none else left.entry? output

theorem OutcomeLeaves.congr {place : Location} {left after : FileSystem}
    {outcome : Option (Except RenderError Nat)}
    (h : OutcomeLeaves options place left files outcome)
    (hsame : after.entry? place = files.entry? place) :
    OutcomeLeaves options place left after outcome := by
  rcases outcome with _ | _ | _ <;> simpa [OutcomeLeaves, hsame] using h

theorem verifyOutput_leaves (options : RunOptions) (h : OutputOnly output start files)
    (hslash : endsInSlash output = false) :
    OutputOnly output start (verifyOutput options files output).1 ∧
      OutcomeLeaves options (start.place output) files (verifyOutput options files output).1
        (some (verifyOutput options files output).2) := by
  unfold verifyOutput
  split
  · rename_i hstat
    refine ⟨h, ?_⟩
    have hnone : files.entry? (start.place output) = none := by
      by_contra hsome
      obtain ⟨entry, hentry⟩ := Option.ne_none_iff_exists'.mp hsome
      obtain ⟨content, _, hfound⟩ := h.stat_eq hslash hentry
      rw [hfound] at hstat
      cases hstat
    simp [OutcomeLeaves, hnone]
  · rename_i entry hstat
    have hentry := stat_eq_ok hstat
    rw [h.frame.place_eq] at hentry
    obtain ⟨⟨content, rfl⟩, _⟩ := h.reached entry hentry
    split
    · exact ⟨h.discard, h.entry?_discard hslash⟩
    · rename_i hsize
      exact ⟨h, content, hentry, rfl, Nat.pos_of_ne_zero hsize⟩

theorem finishRender_leaves (options : RunOptions) {run : EngineRun} (h : OutputOnly output start run.files)
    (hslash : endsInSlash output = false) :
    OutputOnly output start (finishRender options output run).1 ∧
      OutcomeLeaves options (start.place output) run.files
        (finishRender options output run).1 (finishRender options output run).2 := by
  unfold finishRender
  split
  · exact ⟨h, rfl⟩
  · exact ⟨h.discard, h.entry?_discard hslash⟩
  · exact verifyOutput_leaves options h hslash

end Outputs

/-! ## Fresh names -/

def FileSystem.OnRunWay (files : FileSystem) (options : RunOptions) (location : Location) : Prop :=
  files.OnWay options.scratchRoot location ∨ files.OnWay options.outputDirectory location

/-- Nothing is at a place or below it, and no directory that a run is given leads there. -/
structure IsFresh (options : RunOptions) (files : FileSystem) (location : Location) : Prop where
  nothing : ∀ other, location <+: other → files.entry? other = none
  unnamed : ∀ other, location <+: other → ¬ files.OnRunWay options other

/-- The names that a run draws, of its scratch directory and of its output, are fresh. -/
structure FreshNames (options : RunOptions) (draw : RunDraw) (title : String)
    (files : FileSystem) : Prop where
  scratch : IsFresh options files
    (files.place (files.scratchPath options.scratchRoot draw.scratchName))
  output : IsFresh options files (files.place (outputPath options draw title))
  apart : files.place (files.scratchPath options.scratchRoot draw.scratchName) ≠
    files.place (outputPath options draw title)

section Names

variable {options : RunOptions} {draw : RunDraw} {title : String} {files : FileSystem}

theorem place_outputPath (options : RunOptions) (draw : RunDraw) (title : String)
    (files : FileSystem) :
    files.place (outputPath options draw title) =
      files.place options.outputDirectory ++ [outputName title draw.id draw.millis] :=
  place_join (isPlain_outputName title draw.id draw.millis) files options.outputDirectory

theorem endsInSlash_outputPath (options : RunOptions) (draw : RunDraw) (title : String) :
    endsInSlash (outputPath options draw title) = false :=
  endsInSlash_join (isPlain_outputName title draw.id draw.millis) options.outputDirectory

theorem onRunWay_of_above_outputPath {location : Location}
    (h : files.Above (outputPath options draw title) location) :
    files.OnRunWay options location := by
  obtain ⟨parent, hparent, hway⟩ := h
  exact Or.inr (hway.of_parent?_join (isPlain_outputName title draw.id draw.millis) hparent)

theorem FreshNames.output_outside (h : FreshNames options draw title files) :
    ¬ files.place (files.scratchPath options.scratchRoot draw.scratchName) <+:
      files.place (outputPath options draw title) := by
  intro hbelow
  have hapart := h.apart
  rw [place_outputPath] at hbelow hapart
  rcases List.prefix_concat_iff.mp hbelow with heq | hdirectory
  · exact hapart heq
  · exact h.scratch.unnamed _ hdirectory (Or.inr (onWay_place files options.outputDirectory))

theorem FreshNames.output_unnamed (h : FreshNames options draw title files) :
    ¬ files.OnRunWay options (files.place (outputPath options draw title)) :=
  h.output.unnamed _ List.prefix_rfl

theorem isFresh_of_deep {location : Location}
    (hfree : ∀ entry ∈ files.entries, location.isPrefixOf entry.1 = false)
    (hscratch : (files.route options.scratchRoot).1.length +
      (files.route options.scratchRoot).2.length < location.length)
    (houtput : (files.route options.outputDirectory).1.length +
      (files.route options.outputDirectory).2.length < location.length) :
    IsFresh options files location := by
  refine ⟨fun other hbelow => ?_, fun other hbelow hway => ?_⟩
  · have hdeep := hbelow.length_le
    have hne : other ≠ [] := by
      rintro rfl
      simp only [List.length_nil] at hdeep
      omega
    rw [entry?_of_ne_nil hne, List.lookup_eq_none_iff]
    intro entry hentry
    rw [bne_iff_ne]
    rintro rfl
    have hoccupied := hfree entry hentry
    simp [List.isPrefixOf_iff_prefix.mpr hbelow] at hoccupied
  · have hdeep := hbelow.length_le
    rcases hway with hway | hway
    · have hlength := hway.length_le
      omega
    · have hlength := hway.length_le
      omega

end Names

/-! ## Footprints -/

/-- The files as the engine left them; if it was not asked, as they were before. -/
def RunReport.leftBy (report : RunReport) (engine : Engine) (before : FileSystem) : FileSystem :=
  match report.job with
  | none => before
  | some (job, found) => (engine job found).files

def RunReport.size (report : RunReport) : Option (Except RenderError Nat) :=
  report.outcome.map (·.map RenderResult.byteSize)

/-- What a run did to the files, with its output at `path`. -/
structure RunReport.Footprint (options : RunOptions) (engine : Engine) (path : String)
    (isFree isNew : Location → Prop) (before : FileSystem) (report : RunReport) : Prop where
  frame : Frame isFree isNew before report.files
  leaves : OutcomeLeaves options (before.place path) (report.leftBy engine before) report.files
    report.size
  job_output : ∀ job found, report.job = some (job, found) → job.output = path
  result_path : ∀ result, report.outcome = some (.ok result) → result.outputPath = path

section Runs

variable {options : RunOptions} {draw : RunDraw} {cancellation : Cancellation}
  {lookup : Lookup} {engine : Engine} {timeline : Timeline} {before files : FileSystem}
  {path : String} {isFree isNew : Location → Prop}

theorem footprint_failed (error : RenderError) (hframe : Frame isFree isNew before files)
    (hbefore : before.entry? (before.place path) = none)
    (hsame : files.entry? (before.place path) = before.entry? (before.place path)) :
    (RunReport.failed files error).Footprint options engine path isFree isNew before := by
  refine ⟨hframe, ?_, ?_, ?_⟩
  · simp [RunReport.failed, RunReport.size, RunReport.leftBy, OutcomeLeaves, Except.map, hsame,
      hbefore]
  · intro job found hjob
    cases hjob
  · intro result hresult
    cases hresult

theorem footprint_rendered {job : Job} {found : FileSystem} {samples : List Progress}
    {size : Option (Except RenderError Nat)} {build : Nat → RenderResult}
    (hframe : Frame isFree isNew before files)
    (hleaves : OutcomeLeaves options (before.place path) (engine job found).files files size)
    (houtput : job.output = path)
    (hbuild : ∀ bytes, (build bytes).byteSize = bytes ∧ (build bytes).outputPath = path) :
    (RunReport.mk files (some (job, found)) samples (size.map (·.map build))).Footprint options
      engine path isFree isNew before := by
  have hsize : (size.map (·.map build)).map (·.map RenderResult.byteSize) = size := by
    rcases size with _ | error | bytes
    · rfl
    · rfl
    · simp [Except.map, hbuild bytes]
  refine ⟨hframe, ?_, ?_, ?_⟩
  · rw [RunReport.size, hsize]
    exact hleaves
  · intro other files h
    simp only [Option.some_inj, Prod.mk.injEq] at h
    rw [← h.1, houtput]
  · intro result h
    rcases size with _ | error | bytes
    · cases h
    · cases h
    · simp only [Option.map_some, Except.map, Option.some_inj, Except.ok.injEq] at h
      rw [← h]
      exact (hbuild bytes).2

/-- Where anything may change as long as there is a scratch directory. -/
def FileSystem.Touched (files : FileSystem) (scratch : Location) (path : String)
    (location : Location) : Prop :=
  scratch <+: location ∨ location = files.place path

theorem footprint_renderStaged (hengine : engine.KeepsToOutput) {scratch : Location}
    (hfresh : FreshNames options draw timeline.settings.title before)
    (houtside : ¬ scratch <+: before.place (outputPath options draw timeline.settings.title))
    (staging : Staging)
    (hframe : Frame (scratch <+: ·) (before.OnRunWay options) before staging.files) :
    (renderStaged options draw cancellation engine timeline staging).Footprint options engine
      (outputPath options draw timeline.settings.title)
      (before.Touched scratch (outputPath options draw timeline.settings.title))
      (before.OnRunWay options) before := by
  have hunnamed := hfresh.output_unnamed
  have hbefore := hfresh.output.nothing _ List.prefix_rfl
  have hsame := hframe.entry?_eq houtside hunnamed
  have habove : ∀ location, before.Above (outputPath options draw timeline.settings.title)
      location → before.OnRunWay options location := fun _ => onRunWay_of_above_outputPath
  have hslash := endsInSlash_outputPath options draw timeline.settings.title
  unfold renderStaged
  -- From here on only these facts about the path count; comparing it would evaluate its texts.
  generalize outputPath options draw timeline.settings.title = path at *
  have hstaged : Frame (before.Touched scratch path) (before.OnRunWay options) before
      staging.files := hframe.mono (fun _ => Or.inl) (fun _ => id)
  dsimp only
  split
  · exact footprint_failed _ hstaged hbefore hsame
  · generalize hjob : Job.mk _ path _ = job
    have houtput : job.output = path := by rw [← hjob]
    have hplace := hframe.place_eq path
    have hwritten : OutputOnly path staging.files (engine job staging.files).files := by
      refine OutputOnly.of_steps (by rw [hplace, hsame, hbefore]) ?_
        (houtput ▸ hengine job staging.files)
      rw [hplace, above_congr hframe.working]
      exact fun h => hunnamed (habove _ h)
    obtain ⟨hfinal, hleaves⟩ := finishRender_leaves options hwritten hslash
    rw [hplace] at hleaves
    refine footprint_rendered (hstaged.trans (hfinal.frame.mono ?_ ?_)) hleaves houtput
      fun bytes => ⟨rfl, rfl⟩
    · intro location heq
      exact Or.inr (heq.trans hplace)
    · intro location h
      rw [above_congr hframe.working] at h
      exact habove location h

theorem footprint_runWithin (hengine : engine.KeepsToOutput)
    (hfresh : FreshNames options draw timeline.settings.title before) {scratch : Scratch}
    (hscratch : IsScratch options.scratchRoot draw.scratchName before files scratch) :
    (runWithin options draw cancellation lookup engine timeline files scratch).Footprint options
      engine (outputPath options draw timeline.settings.title)
      (before.Touched scratch.location (outputPath options draw timeline.settings.title))
      (before.OnRunWay options) before := by
  have houtside : ¬ scratch.location <+:
      before.place (outputPath options draw timeline.settings.title) := by
    rw [hscratch.location_eq, hscratch.path_eq]
    exact hfresh.output_outside
  have hmade : Frame (scratch.location <+: ·) (before.OnRunWay options) before files := by
    refine hscratch.frame.mono ?_ (fun _ => Or.inl)
    rintro location rfl
    exact List.prefix_rfl
  unfold runWithin
  split
  · exact footprint_failed _ (hmade.mono (fun _ => Or.inl) (fun _ => id))
      (hfresh.output.nothing _ List.prefix_rfl) (hmade.entry?_eq houtside hfresh.output_unnamed)
  · refine footprint_renderStaged hengine hfresh houtside _ (hmade.trans ?_)
    refine (frame_stageAll files ?_ _).mono (fun _ => id) (fun _ => False.elim)
    rw [hmade.place_eq, hscratch.location_eq]

theorem RunReport.Footprint.close {report : RunReport} {scratch : Scratch}
    (h : report.Footprint options engine path (before.Touched scratch.location path) isNew before)
    (hne : scratch.location ≠ [])
    (hnothing : ∀ location, scratch.location <+: location → before.entry? location = none)
    (houtside : ¬ scratch.location <+: before.place path) :
    RunReport.Footprint options engine path (· = before.place path) isNew before
      { report with files := report.files.closeScratch scratch } := by
  refine ⟨⟨h.frame.working, fun location => ?_⟩, ?_, h.job_output, h.result_path⟩
  · by_cases hbelow : scratch.location <+: location
    · have hroot : location ≠ [] := by
        rintro rfl
        exact hne (List.prefix_nil.mp hbelow)
      refine Or.inr (Or.inl ?_)
      rw [hnothing location hbelow]
      exact entry?_eraseTree_below hroot hbelow
    · have hsame := @entry?_eraseTree_outside report.files _ _ hbelow
      simp only [closeScratch, hsame]
      rcases h.frame.entries location with (hscratch | houtput) | hrest
      · exact absurd hscratch hbelow
      · exact Or.inl houtput
      · exact Or.inr hrest
  · exact h.leaves.congr (entry?_eraseTree_outside houtside)

/-- Whatever the timeline, the answers, the engine and the moment of a cancellation, nothing but
the output and the directories on the way to it and to the scratch root has changed. -/
theorem footprint_run (options : RunOptions) (draw : RunDraw) (cancellation : Cancellation)
    (lookup : Lookup) (engine : Engine) (timeline : Timeline) (files : FileSystem)
    (hengine : engine.KeepsToOutput)
    (hfresh : FreshNames options draw timeline.settings.title files) :
    (run options draw cancellation lookup engine timeline files).Footprint options engine
      (outputPath options draw timeline.settings.title)
      (· = files.place (outputPath options draw timeline.settings.title))
      (files.OnRunWay options) files := by
  have hbefore := hfresh.output.nothing _ List.prefix_rfl
  unfold run
  split
  · exact footprint_failed _ (Frame.refl _ _ _) hbefore rfl
  · split
    · exact footprint_failed _ (Frame.refl _ _ _) hbefore rfl
    · split
      · rename_i hmake
        have hframe := frame_makeScratch_error hmake
        exact footprint_failed _ (hframe.mono (fun _ => False.elim) (fun _ => Or.inl)) hbefore
          (hframe.entry?_eq id fun h => hfresh.output_unnamed (Or.inl h))
      · rename_i hmake
        have hscratch := isScratch_makeScratch hmake
        have hplace := hscratch.location_eq
        rw [hscratch.path_eq] at hplace
        refine (footprint_runWithin hengine hfresh hscratch).close hscratch.location_ne ?_ ?_
        · rw [hplace]
          exact hfresh.scratch.nothing
        · rw [hplace]
          exact hfresh.output_outside

def plainOptions : RunOptions := ⟨"out", "tmp", 1000, true⟩

def plainDraw : RunDraw := ⟨⟨0⟩, "abc", 5⟩

def blank : Timeline := ⟨[], .default "x" 2.0, .empty⟩

def mixed : Timeline :=
  ⟨[⟨"t", .video, "", ["a", "b", "c"].map fun id => ⟨id, id, "t", 0.0, 1.0, 1.0, 0.0, 0.0, .cut⟩,
      false, 1.0⟩],
    .default "x" 2.0, .ofList (["a", "b", "c"].map fun id => (id, .plain .video id))⟩

def mixedLookup : Lookup :=
  lookupTable (.ofList [("a", .bytes [1, 2]), ("b", .path "/media/b.mp4")])

def shelf : FileSystem :=
  ⟨[(["media"], .directory), (["media", "b.mp4"], .file [7]), (["tmp"], .directory),
    (["tmp", "old"], .file [8]), (["out"], .directory), (["out", "x.mp4"], .file [9])], []⟩

/-- A run that stages some bytes among the files that are there, and whose engine writes one. -/
theorem footprint_run_writer :
    let report := run plainOptions plainDraw .never mixedLookup (Engine.writer [0]) mixed shelf
    (Engine.writer [0]).KeepsToOutput ∧
    FreshNames plainOptions plainDraw mixed.settings.title shelf ∧
    report.job.map (fun job => job.2.entries.any (·.2 == .file [1, 2])) = some true ∧
    report.size.bind Except.toOption = some 1 ∧
    report.Footprint plainOptions (Engine.writer [0])
      (outputPath plainOptions plainDraw mixed.settings.title)
      (· = shelf.place (outputPath plainOptions plainDraw mixed.settings.title))
      (shelf.OnRunWay plainOptions) shelf := by
  intro report
  have hengine := Engine.keepsToOutput_writer [0]
  have hfresh : FreshNames plainOptions plainDraw mixed.settings.title shelf :=
    ⟨isFresh_of_deep (by decide +kernel) (by decide +kernel) (by decide +kernel),
      isFresh_of_deep (by decide +kernel) (by decide +kernel) (by decide +kernel),
      by decide +kernel⟩
  exact ⟨hengine, hfresh, by decide +kernel, by decide +kernel,
    footprint_run _ _ _ _ _ _ _ hengine hfresh⟩

end Runs

end Compositor
