import Compositor.Proofs.Compile.Wiring

/-!
# Compiled graphs are linear

Whatever the timeline and whichever assets were found, each edge of the graph
has one reader, and each stream of an input at most one.
-/

namespace Compositor

namespace Wiring

variable {inputs : Nat} {uses : List InputStream} {wiring : Wiring}

theorem graph_of_voices_nil (h : wiring.voices = []) :
    wiring.graph.nodes = wiring.nodes ++ [finalNode (.link wiring.picture)] := by
  simp [graph, mixNodes, h]

theorem graph_of_voices_ne_nil (h : wiring.voices ≠ []) :
    wiring.graph.nodes =
      wiring.nodes ++ [mixNode wiring.voices] ++ [finalNode (.link wiring.picture)] := by
  simp [graph, mixNodes, h]

theorem links_mixNode (voices : List Label) : (mixNode voices).links = voices := by
  simp [mixNode, Node.links, List.filterMap_map, Function.comp_def]

theorem Balanced.wired_graph (h : wiring.Balanced inputs uses uses) :
    Wired wiring.graph.nodes wiring.outputs.labels := by
  have hwired : Wired wiring.nodes (wiring.picture :: wiring.voices) := by
    simpa [h.serves.waiting_eq_nil] using h.wired
  rcases eq_or_ne wiring.voices [] with hsilent | hvoices
  · rw [graph_of_voices_nil hsilent]
    rw [hsilent] at hwired
    have hfinal : Wired _ ([] ++ [Edge.picture.label]) :=
      Wired.concat (finalNode (.link wiring.picture)) hwired
    simpa [outputs, Outputs.labels, hsilent] using hfinal
  · rw [graph_of_voices_ne_nil hvoices]
    have hreads : (wiring.picture :: wiring.voices).Perm
        ((mixNode wiring.voices).links ++ [wiring.picture]) := by
      simpa [links_mixNode] using (List.perm_append_singleton _ _).symm
    have hmix := (hwired.perm hreads).concat (mixNode wiring.voices)
    have hfinal : Wired _ ([Edge.mix.label] ++ [Edge.picture.label]) :=
      Wired.concat (finalNode (.link wiring.picture)) hmix
    refine hfinal.perm ?_
    simpa [outputs, Outputs.labels, hvoices] using List.Perm.swap _ _ _

theorem Balanced.sourced_graph (h : wiring.Balanced inputs uses uses) :
    sourced wiring.graph.nodes =
      sharedStreams inputs uses ++ uses.filter fun source => uses.count source < 2 := by
  have hmix : (mixNode wiring.voices).sources = [] := by
    simp [mixNode, Node.sources]
  have hfinal : (finalNode (.link wiring.picture)).sources = [] := rfl
  rcases eq_or_ne wiring.voices [] with hsilent | hvoices
  · simp [graph_of_voices_nil hsilent, hfinal, h.streams]
  · simp [graph_of_voices_ne_nil hvoices, hmix, hfinal, h.streams]

theorem nodup_sourced (inputs : Nat) (uses : List InputStream) :
    (sharedStreams inputs uses ++ uses.filter fun source => uses.count source < 2).Nodup := by
  refine List.nodup_append'.mpr ⟨nodup_sharedStreams inputs uses, ?_, ?_⟩
  · refine List.nodup_iff_count_le_one.mpr fun source => ?_
    rcases Nat.lt_or_ge (uses.count source) 2 with hsole | hshared
    · have := (List.filter_sublist (p := fun source => decide (uses.count source < 2))
        (l := uses)).count_le source
      omega
    · have habsent : source ∉ uses.filter fun source => uses.count source < 2 := fun hmem =>
        Nat.not_lt.mpr hshared (of_decide_eq_true (List.mem_filter.mp hmem).2)
      rw [List.count_eq_zero.mpr habsent]
      exact Nat.zero_le 1
  · simp only [List.disjoint_left, sharedStreams, List.mem_filter, decide_eq_true_eq]
    rintro source ⟨-, hshared⟩ ⟨-, hsole⟩
    omega

theorem nodup_graph (settings : Settings) (inputs : Nat) (sorting : Sorting) :
    (produced (ofSorting settings inputs sorting).graph.nodes).Nodup := by
  have hall := (nodup_allEdges inputs sorting.uses sorting.visual.length
    sorting.audible.length).map Edge.label_injective
  refine hall.sublist ?_
  rcases eq_or_ne (ofSorting settings inputs sorting).voices [] with hsilent | hvoices
  · rw [graph_of_voices_nil hsilent]
    simp [produced_ofSorting, allEdges, finalEdges, finalNode]
  · rw [graph_of_voices_ne_nil hvoices]
    simp [produced_ofSorting, allEdges, finalEdges, finalNode, mixNode]

end Wiring

namespace Timeline

theorem isLinear_emptyPlan (timeline : Timeline) : timeline.emptyPlan.IsLinear where
  produced_nodup := by simp [emptyPlan, finalNode]
  producer_eq node hnode label hlabel :=
    Graph.producer?_eq_some _ (by simp [emptyPlan, finalNode]) hnode hlabel
  links_earlier := (Wired.of_links_eq_nil (by simp [emptyPlan, finalNode, Node.links,
    Pad.link?])).links_earlier
  read_once := by
    simp [emptyPlan, finalNode, Node.links, Pad.link?, Outputs.labels, List.filterMap_cons]
  sourced_nodup := by simp [emptyPlan, finalNode, Node.sources, Pad.source?]
  sourced_bound := by simp [emptyPlan, finalNode, Node.sources, Pad.source?]
  outputs_produced := by simp [emptyPlan, finalNode, Outputs.labels]

section Filled

variable (timeline : Timeline) (paths : AssetPaths)

theorem balanced_wiring :
    (Wiring.ofSorting timeline.settings (timeline.bindings paths).length
      (timeline.sort paths)).Balanced (timeline.bindings paths).length
      (timeline.sort paths).uses (timeline.sort paths).uses :=
  Wiring.balanced_ofSorting _ _ _ fun _ => timeline.slot_lt_of_mem_uses paths

theorem nodup_filledPlan : (produced (timeline.filledPlan paths).graph.nodes).Nodup :=
  Wiring.nodup_graph _ _ _

theorem isLinear_filledPlan : (timeline.filledPlan paths).IsLinear where
  produced_nodup := timeline.nodup_filledPlan paths
  producer_eq _ hnode _ := Graph.producer?_eq_some _ (timeline.nodup_filledPlan paths) hnode
  links_earlier := (timeline.balanced_wiring paths).wired_graph.links_earlier
  read_once _ :=
    (timeline.balanced_wiring paths).wired_graph.count_eq_one (timeline.nodup_filledPlan paths)
  sourced_nodup := by
    rw [filledPlan, (timeline.balanced_wiring paths).sourced_graph]
    exact Wiring.nodup_sourced _ _
  sourced_bound source hsource := by
    rw [filledPlan, (timeline.balanced_wiring paths).sourced_graph, List.mem_append] at hsource
    rcases hsource with hshared | hsole
    · exact mem_inputStreams.mp (List.mem_filter.mp hshared).1
    · exact timeline.slot_lt_of_mem_uses paths (List.mem_filter.mp hsole).1
  outputs_produced _ := (timeline.balanced_wiring paths).wired_graph.mem_produced

end Filled

/-- Every edge of a compiled graph has one reader, which stands behind its node. -/
theorem isLinear_compile (timeline : Timeline) (paths : AssetPaths) :
    (timeline.compile paths).IsLinear := by
  rw [compile]
  split
  · exact timeline.isLinear_emptyPlan
  · exact timeline.isLinear_filledPlan paths

end Timeline

end Compositor
