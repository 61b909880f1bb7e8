import Compositor.Filter

/-!
# Render plans

A plan names the inputs of the engine, a graph of filter chains joined by
labelled edges, the labels that are put out, and how they are encoded.
-/

namespace Compositor

inductive Stream where
  | video
  | audio
deriving DecidableEq, Repr

def Stream.letter : Stream → String
  | .video => "v"
  | .audio => "a"

structure Label where
  text : String
deriving DecidableEq, Repr

inductive Pad where
  | input (slot : Nat) (stream : Stream)
  | link (label : Label)
deriving DecidableEq, Repr

structure Node where
  inputs : List Pad
  chain : List (Filter Float)
  outputs : List Label
deriving BEq

structure Graph where
  nodes : List Node
deriving BEq

def Graph.producer? (graph : Graph) (label : Label) : Option Node :=
  graph.nodes.find? fun node => node.outputs.contains label

inductive Source where
  | file (path : String)
  | still (path : String) (duration : Float) (rate : Nat)
  | color (tint : String) (canvas : Canvas) (duration : Float) (rate : Nat)
deriving BEq

def Source.ofMedia (kind : MediaKind) (path : String) (duration : Float) (rate : Nat) :
    Source :=
  match kind with
  | .image => .still path duration rate
  | .video | .audio => .file path

/-- An input of the engine; made-up inputs belong to no asset. -/
structure Binding where
  slot : Nat
  assetId : Option String
  source : Source
deriving BEq

structure Outputs where
  video : Label
  audio : Option Label
deriving BEq

structure Encoding where
  duration : Float
  canvas : Canvas
  frameRate : FrameRate
  pixels : String
  videoCodec : String
  preset : String
  quality : Nat
  audioCodec : String
  audioRate : String
deriving BEq

structure Counts where
  inputs : Nat
  overlays : Nat
  audioStreams : Nat
  unboundClips : Nat
  mutedClips : Nat
deriving DecidableEq, Repr

structure Plan where
  inputs : List Binding
  graph : Graph
  outputs : Outputs
  encoding : Encoding
  counts : Counts
deriving BEq

namespace Plan

/-- Whether the plan shows nothing but a color. -/
def isDegenerate (plan : Plan) : Bool :=
  match plan.inputs with
  | [⟨_, _, .color _ _ _ _⟩] => true
  | _ => false

def binding? (plan : Plan) (assetId : String) : Option Binding :=
  plan.inputs.find? fun binding => binding.assetId == some assetId

end Plan

end Compositor
