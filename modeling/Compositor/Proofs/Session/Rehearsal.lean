import Compositor.CommandLine
import Compositor.Proofs.Asset.Below
import Compositor.Proofs.Session.Accounting
import Compositor.Proofs.Session.Staging
import Compositor.Proofs.Timeline.RoundTrip

/-!
# A compile shows what a render runs

Both commands look the assets up below the same root, one before and one after a
scratch directory is made.  What is found is a file that stays where it is, so
the render stages the paths that the compile has found, gives its engine the plan
that the compile has shown, and reports the assets that the compile has skipped.
-/

namespace Compositor

open FileSystem

def foundAt? (item : String × Asset × Except LookupError AssetContent) : Option (String × String) :=
  match item.2.2 with
  | .ok (.path path) => some (item.1, path)
  | _ => none

def failed? (item : String × Asset × Except LookupError AssetContent) : Option AssetFailure :=
  match item.2.2 with
  | .error error => some ⟨item.1, error.message⟩
  | .ok _ => none

theorem foundPaths_eq (timeline : Timeline) (lookup : Lookup) :
    foundPaths timeline lookup = .ofList ((timeline.lookupAll lookup).filterMap foundAt?) := rfl

theorem foundPaths_congr {lookup lookup' : Lookup} (timeline : Timeline)
    (h : ∀ id asset, (lookup id asset).toOption = (lookup' id asset).toOption) :
    foundPaths timeline lookup = foundPaths timeline lookup' := by
  rw [foundPaths_eq, foundPaths_eq, Timeline.lookupAll, Timeline.lookupAll, List.filterMap_map,
    List.filterMap_map]
  congr 1
  refine List.filterMap_congr fun item _ => ?_
  have hitem := h item.1 item.2
  simp only [Function.comp_apply, foundAt?]
  cases hanswer : lookup item.1 item.2 <;> cases hother : lookup' item.1 item.2 <;>
    simp_all [Except.toOption]

def Timeline.missedIds (timeline : Timeline) (lookup : Lookup) : List String :=
  (timeline.usedAssets.filter fun item => (lookup item.1 item.2).toOption.isNone).map Prod.fst

theorem missedIds_congr {lookup lookup' : Lookup} (timeline : Timeline)
    (h : ∀ id asset, (lookup id asset).toOption = (lookup' id asset).toOption) :
    timeline.missedIds lookup = timeline.missedIds lookup' := by
  simp only [Timeline.missedIds, h]

theorem map_assetId_failed (timeline : Timeline) (lookup : Lookup) :
    ((timeline.lookupAll lookup).filterMap failed?).map AssetFailure.assetId =
      timeline.missedIds lookup := by
  rw [Timeline.lookupAll, List.filterMap_map, Timeline.missedIds, List.map_filterMap]
  induction timeline.usedAssets with
  | nil => rfl
  | cons item items ih =>
      rw [List.filterMap_cons, ih, List.filter_cons]
      cases hanswer : lookup item.1 item.2 <;> simp [failed?, hanswer, Except.toOption]

theorem stage_path (files : FileSystem) (scratch : Scratch) (index : Nat) (id : String)
    (asset : Asset) (path : String) :
    files.stage scratch index id asset (.path path) = (files, .ok path) := rfl

/-- Files stay where they are: staging them records their paths, and nothing is written. -/
theorem Staging.foldl_add_of_paths {scratch : Scratch}
    {items : List ((String × Asset × Except LookupError AssetContent) × Nat)}
    (hpaths : ∀ item ∈ items, ∀ content, item.1.2.2 = .ok content →
      ∃ path, content = .path path) (staging : Staging) :
    items.foldl (Staging.add scratch) staging =
      ⟨staging.files,
        ((items.map Prod.fst).filterMap foundAt?).foldl
          (fun table pair => table.insert pair.1 pair.2) staging.paths,
        staging.failures ++ (items.map Prod.fst).filterMap failed?⟩ := by
  induction items generalizing staging with
  | nil => simp
  | cons item items ih =>
      obtain ⟨hitem, hitems⟩ := List.forall_mem_cons.mp hpaths
      obtain ⟨⟨id, asset, answer⟩, index⟩ := item
      rw [List.foldl_cons, ih hitems]
      cases answer with
      | error error => simp [Staging.add, Staging.fail, List.filterMap_cons, foundAt?, failed?]
      | ok content =>
          obtain ⟨path, rfl⟩ := hitem content rfl
          simp [Staging.add, stage_path, List.filterMap_cons, foundAt?, failed?]

theorem stageAll_lookupBelow (files found : FileSystem) (scratch : Scratch) (root : String)
    (timeline : Timeline) :
    stageAll files scratch (timeline.lookupAll (lookupBelow found root)) =
      ⟨files, foundPaths timeline (lookupBelow found root),
        (timeline.lookupAll (lookupBelow found root)).filterMap failed?⟩ := by
  rw [stageAll, Staging.foldl_add_of_paths]
  · rw [List.zipIdx_map_fst]
    rfl
  · intro item hitem content hcontent
    obtain ⟨answer, hanswer, heq⟩ := List.mem_map.mp (List.fst_mem_of_mem_zipIdx hitem)
    rw [← heq] at hcontent
    obtain ⟨path, -, -, -, hpath⟩ := lookupBelow_eq_ok_iff.mp hcontent
    exact ⟨path, hpath⟩

theorem read_of_loadFile {files : FileSystem} {path : String} {timeline : Timeline}
    (h : Timeline.loadFile files path = .ok timeline) : ∃ bytes, files.read path = .ok bytes := by
  unfold Timeline.loadFile at h
  split at h
  · rename_i bytes hread
    exact ⟨bytes, hread⟩
  · cases h
  · cases h

theorem isSteady_rootBeside {files after : FileSystem} {given : Option String} {input : String}
    {timeline : Timeline} (hload : Timeline.loadFile files input = .ok timeline)
    (hgiven : ∀ root, given = some root → files.IsSteady after root) :
    files.IsSteady after (rootBeside given input) := by
  obtain ⟨bytes, hread⟩ := read_of_loadFile hload
  have hhere : files.IsSteady after "." := .inr (.inr (by decide))
  cases given with
  | some root => exact hgiven root rfl
  | none =>
      rw [rootBeside, Option.getD_none]
      split
      · exact hhere
      · exact hhere
      · rename_i parent hparent
        exact .inl ((Reaches.of_read hread).parent hparent)

/-! ## Both commands -/

def CompileCommand.lookup (command : CompileCommand) (files : FileSystem) : Lookup :=
  lookupBelow files (rootBeside command.assetsRoot command.input)

def RenderCommand.session (command : RenderCommand) (machine : Machine) (timeline : Timeline) :
    Session where
  options := command.runOptions machine
  draw := machine.draw
  lookup := command.lookup machine
  stage := FileSystem.stage
  engine := command.engine machine
  timeline := timeline
  files := machine.files

/-- What a compile shows of a render. -/
structure CompileCommand.Rehearses (preview : CompileCommand) (render : RenderCommand)
    (machine : Machine) (timeline : Timeline) : Prop where
  shown : preview.carryOut machine.files =
    ⟨0, preview.form.print (preview.plan machine.files timeline),
      "plan fingerprint " ++
        Decimal.hex 16 (preview.plan machine.files timeline).fingerprint.toNat ++ "\n",
      machine.files⟩
  run : ∃ job files, (render.run machine timeline).job = some (job, files) ∧
    job.plan = preview.plan machine.files timeline
  manifest : ∀ result, (render.run machine timeline).outcome = some (.ok result) →
    render.carryOut machine = .ofOutcome (render.run machine timeline).files (.ok result) ∧
    (Manifest.ofResult result).fingerprint =
      some (Decimal.hex 16 (preview.plan machine.files timeline).fingerprint.toNat) ∧
    (Manifest.ofResult result).failures.map AssetFailure.assetId =
      timeline.missedIds (preview.lookup machine.files)

@[simp] theorem RunReport.outcome_close (report : RunReport) (scratch : Scratch) :
    (report.close scratch).outcome = report.outcome := rfl

theorem Session.job_rendered (session : Session) (call : Call) (isCancelled : Bool)
    (scratch : Scratch) :
    ((session.rendered call isCancelled).close scratch).job =
      some (call.job isCancelled, call.staging.files) := rfl

theorem Session.of_rendered_eq_ok {session : Session} {call : Call} {isCancelled : Bool}
    {result : RenderResult} (h : (session.rendered call isCancelled).outcome = some (.ok result)) :
    result.failures = call.staging.failures ∧ result.fingerprint = call.plan.fingerprint := by
  obtain ⟨size, rfl⟩ := exists_renderResult h
  exact ⟨rfl, rfl⟩

section Rehearsal

variable {machine : Machine} {preview : CompileCommand} {render : RenderCommand}
  {timeline : Timeline} {files : FileSystem} {scratch : Scratch}

theorem RenderCommand.run_of_made (hmade : (render.session machine timeline).Made files scratch) :
    render.run machine timeline =
      ((render.session machine timeline).rendered
        ((render.session machine timeline).callOf files scratch) false).close scratch :=
  ((Session.Conclusion.rendered false hmade).report_eq rfl).symm

theorem toOption_lookup (htree : machine.files.IsTree) (hinput : preview.input = render.input)
    (hroot : preview.assetsRoot = render.assetsRoot)
    (hmade : (render.session machine timeline).Made files scratch)
    (hsteady : machine.files.IsSteady (render.filesAtLookup machine)
      (rootBeside render.assetsRoot render.input)) (id : String) (asset : Asset) :
    (render.lookup machine id asset).toOption =
      (preview.lookup machine.files id asset).toOption := by
  have hfiles : render.filesAtLookup machine = files := congrArg Prod.fst hmade.made
  rw [hfiles] at hsteady
  rw [RenderCommand.lookup, CompileCommand.lookup, hfiles, hinput, hroot]
  exact toOption_lookupBelow htree (frame_makeScratch hmade.made) hsteady id asset

theorem RenderCommand.staged_eq (files : FileSystem) (scratch : Scratch) :
    (render.session machine timeline).staged files scratch =
      ⟨files, foundPaths timeline (render.lookup machine),
        (timeline.lookupAll (render.lookup machine)).filterMap failed?⟩ := by
  rw [← Session.stageAll_eq rfl]
  exact stageAll_lookupBelow files _ scratch _ timeline

theorem RenderCommand.plan_callOf (files : FileSystem) (scratch : Scratch) :
    ((render.session machine timeline).callOf files scratch).plan =
      timeline.compile (foundPaths timeline (render.lookup machine)) := by
  have hcompiled : ((render.session machine timeline).callOf files scratch).plan =
      timeline.compile ((render.session machine timeline).staged files scratch).paths := rfl
  rw [hcompiled, staged_eq]

theorem RenderCommand.result_of_made
    (hmade : (render.session machine timeline).Made files scratch) {result : RenderResult}
    (hresult : (render.run machine timeline).outcome = some (.ok result)) :
    result.fingerprint =
        (timeline.compile (foundPaths timeline (render.lookup machine))).fingerprint ∧
      result.failures.map AssetFailure.assetId = timeline.missedIds (render.lookup machine) := by
  rw [run_of_made hmade, RunReport.outcome_close] at hresult
  obtain ⟨hfailures, hfingerprint⟩ := Session.of_rendered_eq_ok hresult
  have hstaged : ((render.session machine timeline).callOf files scratch).staging =
      (render.session machine timeline).staged files scratch := rfl
  rw [hstaged, staged_eq] at hfailures
  rw [plan_callOf] at hfingerprint
  exact ⟨hfingerprint, by rw [hfailures, map_assetId_failed]⟩

/-- Under one root that is steady, the plan that is shown is the plan that is run. -/
theorem CompileCommand.rehearses (htree : machine.files.IsTree)
    (hinput : preview.input = render.input) (hroot : preview.assetsRoot = render.assetsRoot)
    (hload : Timeline.loadFile machine.files render.input = .ok timeline)
    (hvalid : timeline.validate = .ok ())
    (hscratch : ∃ files scratch, machine.files.makeScratch
      (render.runOptions machine).scratchRoot machine.draw.scratchName = (files, .ok scratch))
    (hsteady : ∀ root, render.assetsRoot = some root →
      machine.files.IsSteady (render.filesAtLookup machine) root) :
    preview.Rehearses render machine timeline := by
  obtain ⟨files, scratch, hmake⟩ := hscratch
  have hmade : (render.session machine timeline).Made files scratch := ⟨hvalid, hmake⟩
  have hlookup := toOption_lookup htree hinput hroot hmade (isSteady_rootBeside hload hsteady)
  have hplan : timeline.compile (foundPaths timeline (render.lookup machine)) =
      preview.plan machine.files timeline := by
    rw [foundPaths_congr timeline hlookup, plan, lookup]
  refine ⟨?_, ?_, fun result hresult => ?_⟩
  · rw [← hinput] at hload
    unfold carryOut
    rw [hload]
    dsimp only
    rw [hvalid]
  · rw [RenderCommand.run_of_made hmade]
    exact ⟨_, _, Session.job_rendered _ _ _ _,
      (RenderCommand.plan_callOf files scratch).trans hplan⟩
  · obtain ⟨hfingerprint, hfailures⟩ := RenderCommand.result_of_made hmade hresult
    rw [hplan] at hfingerprint
    rw [missedIds_congr timeline hlookup] at hfailures
    refine ⟨?_, ?_, hfailures⟩
    · unfold RenderCommand.carryOut
      rw [hload]
      dsimp only
      rw [hresult]
    · rw [← hfingerprint, Manifest.ofResult]

end Rehearsal

def paired : Timeline where
  tracks := [⟨"t", .audio, "", [⟨"c", "a", "t", 0, 2, 1, 0, 0, .cut⟩,
    ⟨"d", "b", "t", 2, 2, 1, 0, 0, .cut⟩], true, 1⟩]
  settings := .default "" 4
  assets := .ofList [("a", .plain .audio "a.mp3"), ("b", .plain .audio "b.mp3")]

def pairedText : String :=
  "\x7b\"tracks\":[[\"t\",\"audio\",\"\",[[\"c\",\"a\",\"t\",0,2],[\"d\",\"b\",\"t\",2,2]],true]],
  \"projectSettings\":\x7b\"duration\":4\x7d,\"assets\":\x7b
  \"a\":\x7b\"kind\":\"audio\",\"url\":\"a.mp3\"\x7d,
  \"b\":\x7b\"kind\":\"audio\",\"url\":\"b.mp3\"\x7d\x7d\x7d"

/-- A machine with the edit and one of its assets, and a program that copies something. -/
def bench : Machine where
  files := ⟨[(["t.json"], .file (Text.utf8Bytes pairedText)), (["media"], .directory),
    (["media", "a.mp3"], .file [0])], []⟩
  programs :=
    ⟨fun _ => none, fun _ => some fun arguments files =>
      ⟨((files.write (arguments.getLast?.getD "") [0]).toOption).getD files, [], [], .exited 0⟩⟩
  temporary := "tmp"
  draw := ⟨⟨0⟩, "abc", 5⟩

theorem isTree_bench : bench.files.IsTree := FileSystem.isTree_of_entries (by decide)

theorem loadFile_bench : Timeline.loadFile bench.files "t.json" = .ok paired :=
  eq_ok_of_toOption (by decide +kernel)

theorem validate_paired : paired.validate = .ok () := eq_ok_of_toOption (by decide +kernel)

theorem exists_eq_of_isSome_bind {α ε : Type} {outcome : Option (Except ε α)}
    (h : (outcome.bind Except.toOption).isSome = true) : ∃ result, outcome = some (.ok result) := by
  obtain _ | (error | result) := outcome
  · cases h
  · cases h
  · exact ⟨result, rfl⟩

theorem CompileCommand.rehearses_bench :
    let preview : CompileCommand := ⟨"t.json", some "media", .graph⟩
    let render : RenderCommand := ⟨"t.json", some "media", "out", none, 600, "ffmpeg"⟩
    bench.files.IsTree ∧ Timeline.loadFile bench.files render.input = .ok paired ∧
    paired.validate = .ok () ∧
    (∃ files scratch, bench.files.makeScratch (render.runOptions bench).scratchRoot
      bench.draw.scratchName = (files, .ok scratch)) ∧
    (∀ root, render.assetsRoot = some root →
      bench.files.IsSteady (render.filesAtLookup bench) root) ∧
    (∃ result, (render.run bench paired).outcome = some (.ok result)) ∧
    paired.missedIds (preview.lookup bench.files) = ["b"] ∧
    preview.Rehearses render bench paired := by
  intro preview render
  have hscratch : ∃ files scratch, bench.files.makeScratch (render.runOptions bench).scratchRoot
      bench.draw.scratchName = (files, .ok scratch) := exists_eq_of_isSome (by decide +kernel)
  have hsteady : ∀ root, render.assetsRoot = some root →
      bench.files.IsSteady (render.filesAtLookup bench) root := by
    rintro root ⟨⟩
    exact .inr (.inr (by decide))
  have hresult : ((render.run bench paired).outcome.bind Except.toOption).isSome = true := by
    decide +kernel
  have hmissed : paired.missedIds (preview.lookup bench.files) = ["b"] := by decide +kernel
  exact ⟨isTree_bench, loadFile_bench, validate_paired, hscratch, hsteady,
    exists_eq_of_isSome_bind hresult, hmissed,
    CompileCommand.rehearses isTree_bench rfl rfl loadFile_bench validate_paired hscratch hsteady⟩

/-- Below a root that leads upward out of a directory which only the run makes, a compile finds
nothing where the run finds an asset. -/
theorem CompileCommand.not_rehearses_upward :
    ¬ ∀ (machine : Machine) (preview : CompileCommand) (render : RenderCommand)
      (timeline : Timeline), machine.files.IsTree → preview.input = render.input →
      preview.assetsRoot = render.assetsRoot →
      Timeline.loadFile machine.files render.input = .ok timeline →
      timeline.validate = .ok () →
      (∃ files scratch, machine.files.makeScratch (render.runOptions machine).scratchRoot
        machine.draw.scratchName = (files, .ok scratch)) →
      preview.Rehearses render machine timeline := by
  intro h
  let preview : CompileCommand := ⟨"t.json", some "new/../media", .graph⟩
  let render : RenderCommand :=
    ⟨"t.json", some "new/../media", "out", some "new", 600, "ffmpeg"⟩
  have hscratch : ∃ files scratch, bench.files.makeScratch (render.runOptions bench).scratchRoot
      bench.draw.scratchName = (files, .ok scratch) := exists_eq_of_isSome (by decide +kernel)
  obtain ⟨job, files, hjob, hplan⟩ := (h bench preview render paired isTree_bench rfl rfl
    loadFile_bench validate_paired hscratch).run
  have hshown : (preview.plan bench.files paired).isDegenerate = true := by decide +kernel
  have hrun : ((render.run bench paired).job.map fun job => job.1.plan.isDegenerate) =
      some false := by decide +kernel
  rw [hjob, Option.map_some, hplan, hshown] at hrun
  cases hrun

end Compositor
