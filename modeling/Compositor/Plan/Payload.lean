import Compositor.Plan.Basic

/-!
# The JSON form of plans
-/

namespace Compositor

open Json

def Stream.name : Stream → String
  | .video => "video"
  | .audio => "audio"

def Label.toTree (label : Label) : Tree := .text label.text

def Pad.toTree : Pad → Tree
  | .input slot stream =>
    .record [("input", .record [("slot", .whole slot), ("stream", .text stream.name)])]
  | .link label => .record [("link", label.toTree)]

def Node.toTree (node : Node) : Tree :=
  .record [("inputs", .list (node.inputs.map Pad.toTree)),
    ("chain", .list (node.chain.map Filter.toTree)),
    ("outputs", .list (node.outputs.map Label.toTree))]

def Graph.toTree (graph : Graph) : Tree :=
  .record [("nodes", .list (graph.nodes.map Node.toTree))]

def Source.toTree : Source → Tree
  | .file path => .record [("type", .text "file"), ("path", .text path)]
  | .still path duration rate =>
    .record [("type", .text "still"), ("path", .text path), ("duration", .number duration),
      ("rate", .whole rate)]
  | .color tint canvas duration rate =>
    .record (("type", .text "solid_color") :: colorParameters tint canvas duration rate)

def Binding.toTree (binding : Binding) : Tree :=
  .record [("slot", .whole binding.slot), ("asset_id", .ofOption .text binding.assetId),
    ("source", binding.source.toTree)]

def Outputs.toTree (outputs : Outputs) : Tree :=
  .record [("video", outputs.video.toTree), ("audio", .ofOption Label.toTree outputs.audio)]

def Encoding.toTree (encoding : Encoding) : Tree :=
  .record [("duration", .number encoding.duration), ("canvas", encoding.canvas.toTree),
    ("frame_rate", encoding.frameRate.write), ("pix_fmt", .text encoding.pixels),
    ("video_codec", .text encoding.videoCodec), ("preset", .text encoding.preset),
    ("crf", .whole encoding.quality), ("audio_codec", .text encoding.audioCodec),
    ("audio_bitrate", .text encoding.audioRate)]

def Counts.toTree (counts : Counts) : Tree :=
  .record [("inputs", .whole counts.inputs), ("overlays", .whole counts.overlays),
    ("audio_streams", .whole counts.audioStreams),
    ("unbound_clips", .whole counts.unboundClips), ("muted_clips", .whole counts.mutedClips)]

def Plan.toTree (plan : Plan) : Tree :=
  .record [("inputs", .list (plan.inputs.map Binding.toTree)), ("graph", plan.graph.toTree),
    ("outputs", plan.outputs.toTree), ("encode", plan.encoding.toTree),
    ("stats", plan.counts.toTree)]

end Compositor
