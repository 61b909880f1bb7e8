import Compositor.Proofs.Compile.Parts
import Compositor.Proofs.Compile.Typing
import Compositor.Proofs.Plan.GraphText

/-!
# Texts of compiled graphs

The text of a compiled graph is read back as the graph: no name, number or
expression in it is taken for a separator, a bracket or another kind of pad.
-/

namespace Compositor

open GraphText

namespace Edge

theorem avoids_whole (number : Nat) : Avoids [']', ':'] (Decimal.whole number) :=
  .of_isPlainChar (by decide) (Decimal.all_isPlainChar_whole number)

theorem isPlain_label (edge : Edge) : edge.label.IsPlain := by
  rw [Label.IsPlain]
  cases edge with
  | branch slot stream index =>
      cases stream <;>
        simp only [label, Avoids.append_iff, avoids_whole, and_true, Stream.letter] <;> decide
  | layer index | overlay index | voice index =>
      simp only [label, Avoids.append_iff, avoids_whole, and_true]
      decide
  | _ => decide

end Edge

theorem isPlain_alpha : (Filter.format alphaPixels).IsPlain := by
  change Avoids marks alphaPixels
  decide

theorem isPlain_of_mem_layerChain {canvas : Canvas} {clip : Clip Float} {filter : Filter Float}
    (h : filter ∈ clip.layerChain canvas) : filter.IsPlain := by
  cases htransition : clip.transition <;>
    simp only [Clip.layerChain, Clip.ramps, htransition, List.mem_append, List.mem_cons,
      List.not_mem_nil, or_false] at h <;>
    rcases h with (rfl | rfl | rfl) | (rfl | rfl | rfl) <;>
    first | exact isPlain_alpha | trivial

theorem isPlain_of_mem_audioChain {volume : Float} {clip : Clip Float} {filter : Filter Float}
    (h : filter ∈ clip.audioChain volume) : filter.IsPlain := by
  have hkept := kept?_of_mem_audioChain h
  cases filter <;> first | trivial | cases hkept

namespace Sorting.Part

variable {settings : Settings} {sorting : Sorting} {node : Node}

theorem isPlain (h : sorting.Part settings node) : ∀ filter ∈ node.chain, filter.IsPlain := by
  intro filter hfilter
  cases h with
  | layer index pad hplacement => exact isPlain_of_mem_layerChain hfilter
  | voice index pad hplacement => exact isPlain_of_mem_audioChain hfilter
  | split source count =>
      rw [List.mem_singleton.mp hfilter]
      cases source.stream <;> trivial
  | base =>
      rw [List.mem_singleton.mp hfilter]
      change Avoids marks baseColor
      decide
  | final pad =>
      rw [List.mem_singleton.mp hfilter]
      change Avoids marks outputPixels
      decide
  | _ =>
      rw [List.mem_singleton.mp hfilter]
      trivial

theorem chain_ne_nil (h : sorting.Part settings node) : node.chain ≠ [] := by
  cases h <;> simp [InputStream.splitNode, baseNode, layerNode, overlayNode, voiceNode, mixNode,
    finalNode, Clip.layerChain, Clip.audioChain]

end Sorting.Part

namespace Timeline

variable (timeline : Timeline) (paths : AssetPaths)

theorem isReadable_of_mem_compile {node : Node} (h : node ∈ (timeline.compile paths).graph.nodes) :
    node.IsReadable where
  links := by
    intro label hlabel
    obtain ⟨edge, rfl⟩ := exists_edge_of_mem_links h hlabel
    exact edge.isPlain_label
  outputs := by
    intro label hlabel
    obtain ⟨edge, rfl⟩ := exists_edge_of_mem_outputs h hlabel
    exact edge.isPlain_label
  chain_ne_nil := (part_of_mem_compile h).chain_ne_nil
  filters := by
    intro filter hfilter
    exact ⟨filter.text_ne_empty, Filter.isFilter_text ((part_of_mem_compile h).isPlain filter hfilter)⟩

theorem nodes_compile_ne_nil : (timeline.compile paths).graph.nodes ≠ [] := by
  rw [compile]
  split
  · exact List.cons_ne_nil _ _
  · exact List.append_ne_nil_of_right_ne_nil _ (List.cons_ne_nil _ _)

theorem decode?_text_compile :
    decode? (timeline.compile paths).graph.text =
      some ((timeline.compile paths).graph.nodes.map Node.written) := by
  apply decode?_text (timeline.nodes_compile_ne_nil paths)
  intro node hnode
  exact timeline.isReadable_of_mem_compile paths hnode

/-- The text of a compiled graph says all about its nodes. -/
theorem decode?_compile :
    decode? (timeline.compile paths).graph.text =
        some ((timeline.compile paths).graph.nodes.map Node.written) ∧
      (∀ node ∈ (timeline.compile paths).graph.nodes, ∀ filter ∈ node.chain,
        IsFilter filter.text.toList) ∧
      ∀ (timeline' : Timeline) (paths' : AssetPaths),
        (timeline.compile paths).graph.text = (timeline'.compile paths').graph.text →
        (timeline.compile paths).graph.nodes.map Node.written =
          (timeline'.compile paths').graph.nodes.map Node.written := by
  refine ⟨timeline.decode?_text_compile paths, ?_, ?_⟩
  · intro node hnode filter hfilter
    exact ((timeline.isReadable_of_mem_compile paths hnode).filters filter hfilter).2
  · intro timeline' paths' htext
    have hread := timeline.decode?_text_compile paths
    rw [htext, timeline'.decode?_text_compile paths'] at hread
    exact (Option.some.inj hread).symm

end Timeline

end Compositor
