import Compositor.Engine.Ffmpeg
import Compositor.Plan.Payload
import Compositor.Session.Run
import Compositor.Timeline.Loading

/-!
# The command line

One command prints the plan of a timeline, another renders it and prints the
manifest.
-/

namespace Compositor

inductive PlanForm where
  | json
  | arguments
  | graph
deriving DecidableEq, Repr

structure CompileCommand where
  input : String
  assetsRoot : Option String
  form : PlanForm
deriving DecidableEq

structure RenderCommand where
  input : String
  assetsRoot : Option String
  outputDirectory : String
  scratchRoot : Option String
  timeoutSeconds : Nat
  program : String
deriving DecidableEq

inductive Invocation where
  | version
  | compile (command : CompileCommand)
  | render (command : RenderCommand)
deriving DecidableEq

abbrev Given := String × String

def longOption? (argument : String) : Option (String × Option String) :=
  match argument.toList with
  | '-' :: '-' :: rest =>
    if rest.isEmpty then none
    else
      match Text.splitFirst? (· == '=') rest with
      | some (name, value) => some (String.ofList name, some (String.ofList value))
      | none => some (String.ofList rest, none)
  | _ => none

def isValue (argument : String) : Bool :=
  match argument.toList with
  | '-' :: _ :: _ => false
  | _ => true

def takeOptions (known : List String) : List String → Option (List Given × List String)
  | [] => some ([], [])
  | argument :: rest =>
    match longOption? argument with
    | none => some ([], argument :: rest)
    | some (name, value) =>
      if !known.contains name then some ([], argument :: rest)
      else
        match value, rest with
        | some value, rest => do
          let (given, rest) ← takeOptions known rest
          some ((name, value) :: given, rest)
        | none, [] => none
        | none, value :: rest =>
          if isValue value then do
            let (given, rest) ← takeOptions known rest
            some ((name, value) :: given, rest)
          else none

def globalOptions : List String := ["log-level"]

def compileOptions : List String := globalOptions ++ ["in", "assets-root", "format"]

def renderOptions : List String :=
  globalOptions ++ ["in", "assets-root", "out-dir", "scratch-dir", "timeout-secs", "ffmpeg"]

/-- All options of a command; nothing else may be left, and none may be given twice. -/
def onlyOptions (known : List String) (arguments : List String) : Option (List Given) := do
  let (given, rest) ← takeOptions known arguments
  let names := given.map Prod.fst
  if (rest.isEmpty || rest == ["--"]) && names.eraseDups.length == names.length then some given
  else none

def givenPath? (given : List Given) (name : String) : Option (Option String) :=
  match given.lookup name with
  | none => some none
  | some value => if value = "" then none else some (some value)

def givenForm? (given : List Given) : Option PlanForm :=
  match given.lookup "format" with
  | none | some "json" => some .json
  | some "args" => some .arguments
  | some "graph" => some .graph
  | some _ => none

def givenSeconds? (given : List Given) : Option Nat :=
  match given.lookup "timeout-secs" with
  | none => some 600
  | some value => Decimal.natural? value.toList

def compileCommand? (arguments : List String) : Option CompileCommand := do
  let given ← onlyOptions compileOptions arguments
  let input ← (← givenPath? given "in")
  let assetsRoot ← givenPath? given "assets-root"
  let form ← givenForm? given
  some ⟨input, assetsRoot, form⟩

def renderCommand? (arguments : List String) : Option RenderCommand := do
  let given ← onlyOptions renderOptions arguments
  let input ← (← givenPath? given "in")
  let assetsRoot ← givenPath? given "assets-root"
  let outputDirectory ← givenPath? given "out-dir"
  let scratchRoot ← givenPath? given "scratch-dir"
  let timeoutSeconds ← givenSeconds? given
  let program ← givenPath? given "ffmpeg"
  some ⟨input, assetsRoot, outputDirectory.getD "output", scratchRoot, timeoutSeconds,
    program.getD "ffmpeg"⟩

def isVersionFlag (argument : String) : Bool :=
  argument == "--version" || "-V".toList.isPrefixOf argument.toList

def Invocation.ofArguments? (arguments : List String) : Option Invocation := do
  let (given, rest) ← takeOptions globalOptions arguments
  match rest with
  | [] => none
  | command :: rest =>
    if given.length > 1 then none
    else if isVersionFlag command then some .version
    else if command = "compile" then .compile <$> compileCommand? rest
    else if command = "render" then .render <$> renderCommand? rest
    else none

/-- Without a root, assets are found beside the timeline. -/
def rootBeside (given : Option String) (input : String) : String :=
  given.getD <|
    match Path.parent? input with
    | none | some "" => "."
    | some parent => parent

def Invocation.source? : Invocation → Option (String × String)
  | .version => none
  | .compile command => some (command.input, rootBeside command.assetsRoot command.input)
  | .render command => some (command.input, rootBeside command.assetsRoot command.input)

def Timeline.candidatePaths (timeline : Timeline) (root : String) : List String :=
  timeline.usedAssets.filterMap fun (id, asset) => (candidatePath root id asset).toOption

/-! ## Carrying out -/

structure Response where
  exitCode : Nat
  stdout : String
  stderr : String
  files : FileSystem

def foundPaths (timeline : Timeline) (lookup : Lookup) : AssetPaths :=
  Table.ofList <| (timeline.lookupAll lookup).filterMap fun (id, _, answer) =>
    match answer with
    | .ok (.path path) => some (id, path)
    | _ => none

def PlanForm.print (form : PlanForm) (plan : Plan) : String :=
  match form with
  | .json => plan.toTree.spread ++ "\n"
  | .arguments => String.join ((plan.arguments "out.mp4").map (· ++ "\n"))
  | .graph => plan.graph.text ++ "\n"

def Response.failed (files : FileSystem) (report : String) : Response :=
  ⟨1, "", "error: " ++ report ++ "\n", files⟩

def CompileCommand.plan (command : CompileCommand) (files : FileSystem) (timeline : Timeline) :
    Plan :=
  timeline.compile
    (foundPaths timeline (lookupBelow files (rootBeside command.assetsRoot command.input)))

def CompileCommand.carryOut (command : CompileCommand) (files : FileSystem) : Response :=
  match Timeline.loadFile files command.input with
  | .error problem => .failed files (RenderError.invalid problem).report
  | .ok timeline =>
    match timeline.validate with
    | .error problem => .failed files problem.message
    | .ok () =>
      let plan := command.plan files timeline
      ⟨0, command.form.print plan,
        "plan fingerprint " ++ Decimal.hex 16 plan.fingerprint.toNat ++ "\n", files⟩

structure Machine where
  files : FileSystem
  programs : Programs
  temporary : String
  draw : RunDraw

def RenderCommand.runOptions (command : RenderCommand) (machine : Machine) : RunOptions :=
  ⟨command.outputDirectory, command.scratchRoot.getD machine.temporary,
    1000 * command.timeoutSeconds, true⟩

def RenderCommand.engine (command : RenderCommand) (machine : Machine) : Engine :=
  { FfmpegOptions.standard with program := command.program }.engine machine.programs

/-- Assets are looked up when the scratch directory is there. -/
def RenderCommand.filesAtLookup (command : RenderCommand) (machine : Machine) : FileSystem :=
  (machine.files.makeScratch (command.runOptions machine).scratchRoot machine.draw.scratchName).1

def RenderCommand.lookup (command : RenderCommand) (machine : Machine) : Lookup :=
  lookupBelow (command.filesAtLookup machine) (rootBeside command.assetsRoot command.input)

def RenderCommand.run (command : RenderCommand) (machine : Machine) (timeline : Timeline) :
    RunReport :=
  Compositor.run (command.runOptions machine) machine.draw .never (command.lookup machine)
    (command.engine machine) timeline machine.files

def Response.ofOutcome (files : FileSystem) (outcome : Except RenderError RenderResult) :
    Response :=
  let manifest := Manifest.ofOutcome outcome
  ⟨if manifest.success then 0 else 1, (Manifest.format.toTree manifest).spread ++ "\n", "",
    files⟩

def RenderCommand.carryOut (command : RenderCommand) (machine : Machine) : Response :=
  match Timeline.loadFile machine.files command.input with
  | .error problem => .ofOutcome machine.files (.error (.invalid problem))
  | .ok timeline =>
    let report := command.run machine timeline
    match report.outcome with
    | some outcome => .ofOutcome report.files outcome
    | none => ⟨101, "", "", report.files⟩

def versionText : String := "montage 0.1.0\n"

def usageText : String :=
  "usage: montage [--log-level <LEVEL>] compile --in <FILE> [--assets-root <DIR>]\n" ++
    "         [--format json|args|graph]\n" ++
    "       montage [--log-level <LEVEL>] render --in <FILE> [--assets-root <DIR>]\n" ++
    "         [--out-dir <DIR>] [--scratch-dir <DIR>] [--timeout-secs <SECONDS>]\n" ++
    "         [--ffmpeg <PROGRAM>]\n"

def commandLine (machine : Machine) (arguments : List String) : Response :=
  match Invocation.ofArguments? arguments with
  | none => ⟨2, "", usageText, machine.files⟩
  | some .version => ⟨0, versionText, "", machine.files⟩
  | some (.compile command) => command.carryOut machine.files
  | some (.render command) => command.carryOut machine

end Compositor
