import Compositor.Proofs.Compile.Linear

/-!
# Nodes of a compiled graph

Each node splits a stream, is the canvas, prepares a clip, lays a clip over what
is below it, or puts voices or the picture out.  What is true of all such nodes
is true of all nodes of a compiled graph.
-/

namespace Compositor

/-- The nodes that the clips of a sorting need. -/
inductive Sorting.Part (settings : Settings) (sorting : Sorting) : Node → Prop
  | split (source : InputStream) (count : Nat) :
      Sorting.Part settings sorting (source.splitNode count)
  | base : Sorting.Part settings sorting (baseNode settings)
  | layer (index : Nat) (pad : Pad) {placement : Placement} : placement ∈ sorting.visual →
      Sorting.Part settings sorting (layerNode settings.canvas index placement.clip pad)
  | overlay (index : Nat) (picture : Label) {placement : Placement} :
      placement ∈ sorting.visual →
      Sorting.Part settings sorting (overlayNode index placement.clip picture)
  | voice (index : Nat) (pad : Pad) {placement : Placement} : placement ∈ sorting.audible →
      Sorting.Part settings sorting (voiceNode index placement pad)
  | mix (voices : List Label) : Sorting.Part settings sorting (mixNode voices)
  | final (pad : Pad) : Sorting.Part settings sorting (finalNode pad)

namespace Wiring

section Parts

variable {settings : Settings} {sorting : Sorting} {wiring : Wiring}

theorem parts_start (inputs : Nat) (uses : List InputStream) :
    ∀ node ∈ (start settings inputs uses).nodes, sorting.Part settings node := by
  intro node hnode
  rcases List.mem_append.mp hnode with hsplit | hbase
  · obtain ⟨source, -, rfl⟩ := List.mem_map.mp hsplit
    exact .split source _
  · rw [List.mem_singleton.mp hbase]
    exact .base

theorem parts_addLayers (h : ∀ node ∈ wiring.nodes, sorting.Part settings node)
    {visual : List Placement} (hvisual : visual ⊆ sorting.visual) :
    ∀ node ∈ (wiring.addLayers settings.canvas visual).nodes, sorting.Part settings node := by
  induction visual using List.reverseRecOn with
  | nil => exact h
  | append_singleton visual placement ih =>
      rw [List.append_subset, List.cons_subset] at hvisual
      intro node hnode
      rw [addLayers_concat] at hnode
      rcases List.mem_append.mp hnode with hold | hnew
      · exact ih hvisual.1 node hold
      · simp only [List.mem_cons, List.not_mem_nil, or_false] at hnew
        rcases hnew with rfl | rfl
        · exact .layer _ _ hvisual.2.1
        · exact .overlay _ _ hvisual.2.1

theorem parts_addVoices (h : ∀ node ∈ wiring.nodes, sorting.Part settings node)
    {audible : List Placement} (haudible : audible ⊆ sorting.audible) :
    ∀ node ∈ (wiring.addVoices audible).nodes, sorting.Part settings node := by
  induction audible using List.reverseRecOn with
  | nil => exact h
  | append_singleton audible placement ih =>
      rw [List.append_subset, List.cons_subset] at haudible
      intro node hnode
      rw [addVoices_concat] at hnode
      rcases List.mem_append.mp hnode with hold | hnew
      · exact ih haudible.1 node hold
      · rw [List.mem_singleton.mp hnew]
        exact .voice _ _ haudible.2.1

theorem parts_graph (h : ∀ node ∈ wiring.nodes, sorting.Part settings node) :
    ∀ node ∈ wiring.graph.nodes, sorting.Part settings node := by
  intro node hnode
  simp only [graph, List.mem_append, List.mem_singleton] at hnode
  rcases hnode with (hnode | hmix) | rfl
  · exact h node hnode
  · unfold mixNodes at hmix
    split at hmix
    · cases hmix
    · rw [List.mem_singleton.mp hmix]
      exact .mix _
  · exact .final _

end Parts

theorem parts_ofSorting (settings : Settings) (inputs : Nat) (sorting : Sorting) :
    ∀ node ∈ (ofSorting settings inputs sorting).graph.nodes, sorting.Part settings node := by
  apply parts_graph
  apply parts_addVoices _ (List.Subset.refl sorting.audible)
  apply parts_addLayers _ (List.Subset.refl sorting.visual)
  exact parts_start inputs sorting.uses

end Wiring

theorem Sorting.Part.exists_edge {settings : Settings} {sorting : Sorting} {node : Node}
    (h : sorting.Part settings node) {label : Label} (hlabel : label ∈ node.outputs) :
    ∃ edge : Edge, label = edge.label := by
  cases h with
  | split source count =>
      obtain ⟨index, -, rfl⟩ := List.mem_map.mp hlabel
      exact ⟨_, rfl⟩
  | _ => exact ⟨_, List.mem_singleton.mp hlabel⟩

namespace Timeline

variable {timeline : Timeline} {paths : AssetPaths} {node : Node} {label : Label}

theorem part_of_mem_compile (h : node ∈ (timeline.compile paths).graph.nodes) :
    (timeline.sort paths).Part timeline.settings node := by
  rw [compile] at h
  split at h
  · rw [List.mem_singleton.mp h]
    exact .final _
  · exact Wiring.parts_ofSorting _ _ _ node h

theorem exists_edge_of_mem_outputs (hnode : node ∈ (timeline.compile paths).graph.nodes)
    (hlabel : label ∈ node.outputs) : ∃ edge : Edge, label = edge.label :=
  (part_of_mem_compile hnode).exists_edge hlabel

theorem exists_edge_of_mem_links (hnode : node ∈ (timeline.compile paths).graph.nodes)
    (hlabel : label ∈ node.links) : ∃ edge : Edge, label = edge.label := by
  obtain ⟨before, after, hsplit⟩ := List.append_of_mem hnode
  have hearlier := (timeline.isLinear_compile paths).links_earlier before node after hsplit label hlabel
  obtain ⟨producer, hproducer, houtput⟩ := List.mem_flatMap.mp hearlier
  have hmem : producer ∈ (timeline.compile paths).graph.nodes := by
    rw [hsplit]
    exact List.mem_append_left _ hproducer
  exact exists_edge_of_mem_outputs hmem houtput

end Timeline

end Compositor
