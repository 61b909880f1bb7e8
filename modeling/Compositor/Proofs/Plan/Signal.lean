import Compositor.Proofs.Plan.Linear

/-!
# Signals

What a pad carries, written out without labels: the edges of a graph are
followed back to the nodes that put them out, and a branch of a split stream
stands for the stream.  What nodes were added later says nothing about the
pads of those before.
-/

namespace Compositor

inductive Signal where
  | source (slot : Nat) (stream : Stream)
  | filtered (chain : List (Filter Float)) (inputs : List Signal)

namespace Node

def isSplit (node : Node) : Bool :=
  match node.chain with
  | [.split _] | [.audioSplit _] => true
  | _ => false

/-- What a node puts out, given what it reads. -/
def signal (node : Node) (inputs : List Signal) : Signal :=
  match node.isSplit, inputs with
  | true, [input] => input
  | _, inputs => .filtered node.chain inputs

@[simp] theorem signal_of_isSplit {node : Node} {input : Signal} (h : node.isSplit = true) :
    node.signal [input] = input := by
  simp [signal, h]

@[simp] theorem signal_of_not_isSplit {node : Node} {inputs : List Signal}
    (h : node.isSplit = false) : node.signal inputs = .filtered node.chain inputs := by
  simp [signal, h]

end Node

namespace Graph

/-- Follows a pad back over at most `depth` edges. -/
def unfold (graph : Graph) : Nat → Pad → Option Signal
  | _, .input slot stream => some (.source slot stream)
  | 0, .link _ => none
  | depth + 1, .link label => do
    let node ← graph.producer? label
    let inputs ← node.inputs.mapM (graph.unfold depth)
    return node.signal inputs

/-- What a pad carries; on the way back no node comes twice. -/
def signal? (graph : Graph) (pad : Pad) : Option Signal := graph.unfold graph.nodes.length pad

@[simp] theorem unfold_input (graph : Graph) (depth slot : Nat) (stream : Stream) :
    graph.unfold depth (.input slot stream) = some (.source slot stream) := by
  cases depth <;> rfl

theorem producer?_append {nodes more : List Node} {label : Label} {node : Node}
    (h : (Graph.mk nodes).producer? label = some node) :
    (Graph.mk (nodes ++ more)).producer? label = some node := by
  simp only [producer?] at h ⊢
  rw [List.find?_append, h, Option.some_or]

end Graph

theorem mapM_eq_some_iff {α β : Type} {f : α → Option β} {items : List α} {results : List β} :
    items.mapM f = some results ↔
      List.Forall₂ (fun item result => f item = some result) items results := by
  induction items generalizing results with
  | nil =>
      cases results with
      | nil => simp
      | cons result results => simp
  | cons item items ih =>
      cases results with
      | nil => simp [List.mapM_cons, Option.bind_eq_some_iff]
      | cons result results => simp [List.mapM_cons, Option.bind_eq_some_iff, ih]

theorem Graph.unfold_mono {nodes more : List Node} {depth depth' : Nat} {pad : Pad}
    {signal : Signal} (h : (Graph.mk nodes).unfold depth pad = some signal)
    (hle : depth ≤ depth') : (Graph.mk (nodes ++ more)).unfold depth' pad = some signal := by
  induction depth generalizing depth' pad signal with
  | zero =>
      cases pad with
      | input slot stream => simpa using h
      | link label => simp [unfold] at h
  | succ depth ih =>
      obtain ⟨depth', rfl⟩ : ∃ lower, depth' = lower + 1 := ⟨depth' - 1, by omega⟩
      cases pad with
      | input slot stream => simpa using h
      | link label =>
          simp only [unfold, Option.bind_eq_bind, Option.bind_eq_some_iff] at h ⊢
          obtain ⟨node, hnode, inputs, hinputs, hsignal⟩ := h
          refine ⟨node, producer?_append hnode, inputs, ?_, hsignal⟩
          rw [mapM_eq_some_iff] at hinputs ⊢
          exact hinputs.imp fun _ _ hinput => ih hinput (by omega)

def Carries (nodes : List Node) (pad : Pad) (signal : Signal) : Prop :=
  (Graph.mk nodes).signal? pad = some signal

namespace Carries

variable {nodes more : List Node} {node : Node} {label : Label}

theorem input (nodes : List Node) (slot : Nat) (stream : Stream) :
    Carries nodes (.input slot stream) (.source slot stream) := by
  simp [Carries, Graph.signal?]

theorem append {pad : Pad} {signal : Signal} (h : Carries nodes pad signal) :
    Carries (nodes ++ more) pad signal :=
  Graph.unfold_mono h (by simp)

theorem concat {signals : List Signal} (hnodup : (produced (nodes ++ [node])).Nodup)
    (hinputs : List.Forall₂ (Carries nodes) node.inputs signals) (hlabel : label ∈ node.outputs) :
    Carries (nodes ++ [node]) (.link label) (node.signal signals) := by
  have hproducer := Graph.producer?_eq_some ⟨nodes ++ [node]⟩ hnodup
    (by simp : node ∈ nodes ++ [node]) hlabel
  have hsignals : node.inputs.mapM ((Graph.mk (nodes ++ [node])).unfold nodes.length) =
      some signals :=
    mapM_eq_some_iff.mpr (hinputs.imp fun _ _ hinput => Graph.unfold_mono hinput (Nat.le_refl _))
  simp [Carries, Graph.signal?, Graph.unfold, hproducer, hsignals]

theorem branch {source : InputStream} (hnodup : (produced nodes).Nodup) (hnode : node ∈ nodes)
    (hinputs : node.inputs = [source.pad]) (hsplit : node.isSplit = true)
    (hlabel : label ∈ node.outputs) :
    Carries nodes (.link label) (.source source.slot source.stream) := by
  have hproducer := Graph.producer?_eq_some ⟨nodes⟩ hnodup hnode hlabel
  obtain ⟨depth, hdepth⟩ := Nat.exists_eq_succ_of_ne_zero
    (Nat.ne_of_gt (List.length_pos_of_mem hnode))
  simp [Carries, Graph.signal?, hdepth, Graph.unfold, hproducer, hinputs, InputStream.pad, hsplit]

end Carries

end Compositor
