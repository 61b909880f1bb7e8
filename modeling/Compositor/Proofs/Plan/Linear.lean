import Compositor.Compile
import Mathlib.Data.List.Basic
import Mathlib.Data.List.Nodup
import Mathlib.Data.List.Perm.Basic

/-!
# Linear graphs

Every edge of a graph is put out once and read once, by a later node or by the
outputs of the plan, and every stream of an input is read at most once.  While
a graph is built the balance is kept with the edges that still wait for their
reader.
-/

namespace Compositor

namespace Pad

def link? : Pad → Option Label
  | .input _ _ => none
  | .link label => some label

def source? : Pad → Option InputStream
  | .input slot stream => some ⟨slot, stream⟩
  | .link _ => none

@[simp] theorem link?_link (label : Label) : (Pad.link label).link? = some label := rfl

@[simp] theorem link?_pad (source : InputStream) : source.pad.link? = none := rfl

@[simp] theorem source?_link (label : Label) : (Pad.link label).source? = none := rfl

@[simp] theorem source?_pad (source : InputStream) : source.pad.source? = some source := rfl

end Pad

namespace Node

def links (node : Node) : List Label := node.inputs.filterMap Pad.link?

def sources (node : Node) : List InputStream := node.inputs.filterMap Pad.source?

end Node

def produced (nodes : List Node) : List Label := nodes.flatMap Node.outputs

def linked (nodes : List Node) : List Label := nodes.flatMap Node.links

def sourced (nodes : List Node) : List InputStream := nodes.flatMap Node.sources

def LinksEarlier (nodes : List Node) : Prop :=
  ∀ before node after, nodes = before ++ node :: after →
    ∀ label ∈ node.links, label ∈ produced before

def Outputs.labels (outputs : Outputs) : List Label := outputs.video :: outputs.audio.toList

/-- Labels are put out once and read once; streams of inputs are read at most once. -/
structure Plan.IsLinear (plan : Plan) : Prop where
  produced_nodup : (produced plan.graph.nodes).Nodup
  producer_eq : ∀ node ∈ plan.graph.nodes, ∀ label ∈ node.outputs,
    plan.graph.producer? label = some node
  links_earlier : LinksEarlier plan.graph.nodes
  read_once : ∀ label ∈ produced plan.graph.nodes,
    (linked plan.graph.nodes ++ plan.outputs.labels).count label = 1
  sourced_nodup : (sourced plan.graph.nodes).Nodup
  sourced_bound : ∀ source ∈ sourced plan.graph.nodes, source.slot < plan.inputs.length
  outputs_produced : ∀ label ∈ plan.outputs.labels, label ∈ produced plan.graph.nodes

/-- The nodes read what earlier ones put out, each label at most once; the labels that wait
have not been read. -/
structure Wired (nodes : List Node) (waiting : List Label) : Prop where
  balance : (produced nodes).Perm (linked nodes ++ waiting)
  links_earlier : LinksEarlier nodes

@[simp] theorem produced_append (nodes more : List Node) :
    produced (nodes ++ more) = produced nodes ++ produced more := List.flatMap_append

@[simp] theorem linked_append (nodes more : List Node) :
    linked (nodes ++ more) = linked nodes ++ linked more := List.flatMap_append

@[simp] theorem sourced_append (nodes more : List Node) :
    sourced (nodes ++ more) = sourced nodes ++ sourced more := List.flatMap_append

@[simp] theorem produced_cons (node : Node) (nodes : List Node) :
    produced (node :: nodes) = node.outputs ++ produced nodes := rfl

@[simp] theorem linked_cons (node : Node) (nodes : List Node) :
    linked (node :: nodes) = node.links ++ linked nodes := rfl

@[simp] theorem sourced_cons (node : Node) (nodes : List Node) :
    sourced (node :: nodes) = node.sources ++ sourced nodes := rfl

@[simp] theorem produced_nil : produced [] = [] := rfl

@[simp] theorem linked_nil : linked [] = [] := rfl

@[simp] theorem sourced_nil : sourced [] = [] := rfl

theorem Graph.producer?_eq_some (graph : Graph) (hnodup : (produced graph.nodes).Nodup)
    {node : Node} (hnode : node ∈ graph.nodes) {label : Label} (hlabel : label ∈ node.outputs) :
    graph.producer? label = some node := by
  obtain ⟨nodes⟩ := graph
  simp only [producer?] at hnodup hnode ⊢
  induction nodes with
  | nil => simp at hnode
  | cons first nodes ih =>
      rw [produced_cons, List.nodup_append'] at hnodup
      obtain ⟨-, hnodup, hdisjoint⟩ := hnodup
      rcases List.mem_cons.mp hnode with rfl | hnode
      · simp [hlabel]
      · have hlater : label ∈ produced nodes := List.mem_flatMap.mpr ⟨node, hnode, hlabel⟩
        have hfirst : label ∉ first.outputs := fun h => hdisjoint h hlater
        simpa [hfirst] using ih hnodup hnode

theorem LinksEarlier.concat {nodes : List Node} {node : Node} (h : LinksEarlier nodes)
    (hnode : ∀ label ∈ node.links, label ∈ produced nodes) : LinksEarlier (nodes ++ [node]) := by
  intro before reader after heq label hlabel
  rcases List.eq_nil_or_concat after with rfl | ⟨after, last, rfl⟩
  · obtain ⟨rfl, hreader⟩ := List.append_inj' heq rfl
    cases hreader
    exact hnode label hlabel
  · have heq' : nodes ++ [node] = (before ++ reader :: after) ++ [last] := by simpa using heq
    obtain ⟨hinit, -⟩ := List.append_inj' heq' rfl
    exact h before reader after hinit label hlabel

namespace Wired

theorem of_links_eq_nil {nodes : List Node} (h : ∀ node ∈ nodes, node.links = []) :
    Wired nodes (produced nodes) where
  balance := by
    rw [linked, List.flatMap_eq_nil_iff.mpr h, List.nil_append]
  links_earlier before node after heq label hlabel := by
    rw [h node (by simp [heq])] at hlabel
    simp at hlabel

theorem perm {nodes : List Node} {waiting waiting' : List Label} (h : Wired nodes waiting)
    (hperm : waiting.Perm waiting') : Wired nodes waiting' :=
  ⟨h.balance.trans (hperm.append_left _), h.links_earlier⟩

theorem mem_produced {nodes : List Node} {waiting : List Label} (h : Wired nodes waiting)
    {label : Label} (hlabel : label ∈ waiting) : label ∈ produced nodes :=
  h.balance.mem_iff.mpr (List.mem_append_right _ hlabel)

/-- A further node reads labels that wait and puts out labels that wait. -/
theorem concat {nodes : List Node} {waiting : List Label} (node : Node)
    (h : Wired nodes (node.links ++ waiting)) :
    Wired (nodes ++ [node]) (waiting ++ node.outputs) where
  balance := by
    simpa using h.balance.append_right node.outputs
  links_earlier := h.links_earlier.concat fun label hlabel =>
    h.mem_produced (List.mem_append_left _ hlabel)

theorem count_eq_one {nodes : List Node} {waiting : List Label} (h : Wired nodes waiting)
    (hnodup : (produced nodes).Nodup) {label : Label} (hlabel : label ∈ produced nodes) :
    (linked nodes ++ waiting).count label = 1 := by
  rw [← h.balance.count_eq, List.count_eq_one_of_mem hnodup hlabel]

end Wired

end Compositor
