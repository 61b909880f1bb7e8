import Compositor.Plan.Basic
import Compositor.Text.Blank

/-!
# Plans as the engine reads them

The text of a filter graph and the arguments of one run of the engine.
-/

namespace Compositor

def bracketed (text : String) : String := "[" ++ text ++ "]"

def Label.bracketed (label : Label) : String := Compositor.bracketed label.text

def Pad.text : Pad → String
  | .input slot stream => bracketed (Decimal.whole slot ++ ":" ++ stream.letter)
  | .link label => label.bracketed

def Node.text (node : Node) : String :=
  String.join (node.inputs.map Pad.text) ++ ",".intercalate (node.chain.map Filter.text) ++
    String.join (node.outputs.map Label.bracketed)

def Graph.text (graph : Graph) : String := ";".intercalate (graph.nodes.map Node.text)

def Source.arguments : Source → List String
  | .file path => ["-i", path]
  | .still path duration rate =>
    ["-loop", "1", "-framerate", Decimal.whole rate, "-t", Decimal.seconds duration, "-i", path]
  | .color tint canvas duration rate =>
    ["-f", "lavfi", "-i", (Filter.color tint canvas duration rate).text]

namespace Plan

def audioMapArguments (plan : Plan) : List String :=
  match plan.outputs.audio with
  | some label => ["-map", label.bracketed]
  | none => ["-an"]

def audioCodecArguments (plan : Plan) : List String :=
  if plan.outputs.audio.isSome then
    ["-c:a", plan.encoding.audioCodec, "-b:a", plan.encoding.audioRate]
  else []

def videoCodecArguments (plan : Plan) : List String :=
  ["-c:v", plan.encoding.videoCodec, "-preset", plan.encoding.preset, "-crf",
    Decimal.whole plan.encoding.quality, "-pix_fmt", plan.encoding.pixels, "-r",
    Decimal.whole plan.encoding.frameRate.perSecond]

/-- All arguments of one run, but for those that hold for every run. -/
def arguments (plan : Plan) (output : String) : List String :=
  plan.inputs.flatMap (fun binding => binding.source.arguments) ++
    ["-filter_complex", plan.graph.text, "-map", plan.outputs.video.bracketed] ++
    plan.audioMapArguments ++ plan.videoCodecArguments ++ plan.audioCodecArguments ++
    ["-t", Decimal.seconds plan.encoding.duration, "-movflags", "+faststart", output]

end Plan

end Compositor
