import Compositor.Compile
import Compositor.Engine.Basic
import Compositor.Plan.Fingerprint
import Compositor.Session.Manifest
import Compositor.Session.Scratch

/-!
# Runs

A run takes one timeline from the check to the rendered file: it makes a
scratch directory, looks the assets up, stages what was fetched, compiles,
renders, looks at the output, and removes the scratch directory again.
-/

namespace Compositor

structure RunOptions where
  outputDirectory : String
  scratchRoot : String
  timeout : Nat
  removePartial : Bool

/-- What a run takes from chance and from the clock. -/
structure RunDraw where
  id : RunId
  suffix : String
  millis : Nat

def RunDraw.scratchName (draw : RunDraw) : ScratchName := ⟨draw.id, draw.suffix⟩

inductive Cancellation where
  | never
  | beforeStart
  | duringLookup
  | beforeRender
  | duringRender
deriving DecidableEq, Repr

structure RunReport where
  files : FileSystem
  job : Option (Job × FileSystem)
  samples : List Progress
  /-- There is no outcome if the engine crashed. -/
  outcome : Option (Except RenderError RenderResult)

def RunReport.failed (files : FileSystem) (error : RenderError) : RunReport :=
  ⟨files, none, [], some (.error error)⟩

structure Staging where
  files : FileSystem
  paths : AssetPaths
  failures : List AssetFailure

def Staging.fail (staging : Staging) (id message : String) : Staging :=
  { staging with failures := staging.failures ++ [⟨id, message⟩] }

def Staging.add (scratch : Scratch) (staging : Staging)
    (item : (String × Asset × Except LookupError AssetContent) × Nat) : Staging :=
  let ((id, asset, answer), index) := item
  match answer with
  | .error error => staging.fail id error.message
  | .ok content =>
    match staging.files.stage scratch index id asset content with
    | (files, .ok path) => { staging with files, paths := staging.paths.insert id path }
    | (files, .error error) => { staging with files }.fail id error.message

def stageAll (files : FileSystem) (scratch : Scratch)
    (answers : List (String × Asset × Except LookupError AssetContent)) : Staging :=
  answers.zipIdx.foldl (Staging.add scratch) ⟨files, .empty, []⟩

def outputName (title : String) (id : RunId) (millis : Nat) : String :=
  fileStem title ++ "_timeline_" ++ Decimal.whole millis ++ "_" ++ id.short ++ ".mp4"

def outputPath (options : RunOptions) (draw : RunDraw) (title : String) : String :=
  Path.join options.outputDirectory (outputName title draw.id draw.millis)

def millisAsSeconds (millis : Nat) : Float :=
  Decimal.nearest false (millis / 1000) 0 +
    Decimal.nearest false (millis % 1000 * 1000000) 0 / 1000000000.0

def timeoutError (options : RunOptions) : RenderError :=
  .engine ("render timed out after " ++ Decimal.plain (millisAsSeconds options.timeout) ++ "s")
    ""

def EngineEnd.inTime (options : RunOptions) : EngineEnd → Option (Except RenderError String)
  | .crashed => none
  | .endless => some (.error (timeoutError options))
  | .finished millis result =>
    some (if options.timeout < millis then .error (timeoutError options) else result)

def discardOutput (options : RunOptions) (files : FileSystem) (output : String) : FileSystem :=
  if options.removePartial then
    match files.removeFile output with
    | .ok files => files
    | .error _ => files
  else files

def verifyOutput (options : RunOptions) (files : FileSystem) (output : String) :
    FileSystem × Except RenderError Nat :=
  match files.stat output with
  | .error _ =>
    (files, .error
      (.engine ("engine reported success but " ++ quoted output ++ " was not written") ""))
  | .ok entry =>
    if entry.size = 0 then
      (discardOutput options files output, .error
        (.engine ("engine produced an empty file at " ++ quoted output) ""))
    else (files, .ok entry.size)

def finishRender (options : RunOptions) (output : String) (run : EngineRun) :
    FileSystem × Option (Except RenderError Nat) :=
  match run.ending.inTime options with
  | none => (run.files, none)
  | some (.error error) => (discardOutput options run.files output, some (.error error))
  | some (.ok _) =>
    let (files, size) := verifyOutput options run.files output
    (files, some size)

section Runs

variable (options : RunOptions) (draw : RunDraw) (cancellation : Cancellation)
  (lookup : Lookup) (engine : Engine) (timeline : Timeline)

def renderResult (output : String) (plan : Plan) (failures : List AssetFailure) (size : Nat) :
    RenderResult :=
  ⟨output, size, timeline.settings.duration, timeline.tracks.length, timeline.clipCount,
    draw.id, plan.fingerprint, failures⟩

def renderStaged (staging : Staging) : RunReport :=
  let plan := timeline.compile staging.paths
  if cancellation = .beforeRender then
    .failed staging.files (.cancelled "cancelled before rendering")
  else
    let output := outputPath options draw timeline.settings.title
    let job : Job := ⟨plan, output, cancellation == .duringRender⟩
    let run := engine job staging.files
    let (files, size) := finishRender options output run
    ⟨files, some (job, staging.files), run.samples,
      size.map (·.map (renderResult draw timeline output plan staging.failures))⟩

def runWithin (files : FileSystem) (scratch : Scratch) : RunReport :=
  if cancellation = .duringLookup then
    .failed files (.cancelled "cancelled while resolving assets")
  else
    renderStaged options draw cancellation engine timeline
      (stageAll files scratch (timeline.lookupAll lookup))

def run (files : FileSystem) : RunReport :=
  match timeline.validate with
  | .error problem => .failed files (.invalid problem)
  | .ok () =>
    if cancellation = .beforeStart then .failed files (.cancelled "cancelled before start")
    else
      match files.makeScratch options.scratchRoot draw.scratchName with
      | (files, .error error) => .failed files error
      | (files, .ok scratch) =>
        let report := runWithin options draw cancellation lookup engine timeline files scratch
        { report with files := report.files.closeScratch scratch }

end Runs

end Compositor
