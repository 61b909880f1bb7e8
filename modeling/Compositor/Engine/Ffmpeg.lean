import Compositor.Engine.Basic
import Compositor.Engine.Diagnostics
import Compositor.Engine.Program
import Compositor.Plan.Text

/-!
# Rendering with ffmpeg

A plan is rendered by one run of the ffmpeg program, which reports its progress
on its standard output and its troubles on its standard error.
-/

namespace Compositor

structure FfmpegOptions where
  program : String
  logLevel : String
  overwrite : Bool
  diagnosticsLimit : Nat

def FfmpegOptions.standard : FfmpegOptions := ⟨"ffmpeg", "error", true, 65536⟩

namespace FfmpegOptions

def globalArguments (options : FfmpegOptions) : List String :=
  ["-hide_banner", "-nostdin", if options.overwrite then "-y" else "-n", "-loglevel",
    options.logLevel, "-progress", "pipe:1", "-nostats"]

def arguments (options : FfmpegOptions) (plan : Plan) (output : String) : List String :=
  options.globalArguments ++ plan.arguments output

def isAvailable (options : FfmpegOptions) (programs : Programs) (files : FileSystem) : Bool :=
  match programs.start files options.program ["-version"] with
  | .ok run => run.ending == .exited 0
  | .error _ => false

end FfmpegOptions

def FileSystem.ensureParent (files : FileSystem) (path : String) :
    FileSystem × Except RenderError Unit :=
  match Path.parent? path with
  | none => (files, .ok ())
  | some parent =>
    if parent = "" then (files, .ok ())
    else
      match files.ensurePath parent with
      | (files, .ok ()) => (files, .ok ())
      | (files, .error error) =>
        (files, .error
          (.internal ("failed to create output directory " ++ quoted parent) [error.message]))

def EngineRun.failed (files : FileSystem) (error : RenderError) : EngineRun :=
  ⟨files, [], .finished 0 (.error error)⟩

def programMillis : Nat := 1

def ProgramRun.engineEnd (run : ProgramRun) (limit : Nat) (isCancelled : Bool) : EngineEnd :=
  let diagnostics := diagnosticsText limit run.stderr
  if isCancelled then
    .finished 0 (.error (.cancelled "render cancelled while ffmpeg was running"))
  else
    match run.ending with
    | .endless => .endless
    | .exited 0 => .finished programMillis (.ok diagnostics)
    | ending =>
      .finished programMillis (.error
        (.engine ("ffmpeg exited with status " ++ ending.text) (Text.trimText diagnostics)))

def FfmpegOptions.engine (options : FfmpegOptions) (programs : Programs) : Engine :=
  fun job files =>
    match files.ensureParent job.output with
    | (files, .error error) => .failed files error
    | (files, .ok ()) =>
      if !options.overwrite && files.exists? job.output then
        .failed files (.engine ("output file " ++ quoted job.output ++ " already exists") "")
      else
        match programs.start files options.program (options.arguments job.plan job.output) with
        | .error error =>
          .failed files (.engine ("failed to spawn " ++ quoted options.program ++
            " (is it installed and on PATH?): " ++ error.message) "")
        | .ok run =>
          let lines := (textLines run.stdout).map String.toList
          ⟨run.files, progressSamples job.plan.encoding.duration lines,
            run.engineEnd options.diagnosticsLimit job.isCancelled⟩

end Compositor
