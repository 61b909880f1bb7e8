import Compositor.Proofs.Compile.Counts
import Compositor.Proofs.Compile.Numbers

/-!
# The counts of a plan and its graph

Each clip of a timeline is counted once, and what a plan counts are the filters
of its graph: one overlay for each layer, and a single mix that has one input for
each voice.
-/

namespace Compositor

def Filter.isOverlay : Filter Float → Bool
  | .overlay _ _ => true
  | _ => false

def Filter.mixed? : Filter Float → Option Nat
  | .audioMix inputs => some inputs
  | _ => none

def Node.mixes (node : Node) : List (Nat × Nat) :=
  (node.chain.filterMap Filter.mixed?).map (·, node.inputs.length)

namespace Graph

def overlayCount (graph : Graph) : Nat := (filters graph.nodes).countP Filter.isOverlay

def mixes (graph : Graph) : List (Nat × Nat) := graph.nodes.flatMap Node.mixes

end Graph

theorem Placement.countP_layerFilters (canvas : Canvas) (placement : Placement) :
    (placement.layerFilters canvas).countP Filter.isOverlay = 1 := by
  cases htransition : placement.clip.transition <;>
    simp [layerFilters, Clip.layerChain, Clip.ramps, htransition, Filter.isOverlay]

theorem mem_fadeFilter {direction : FadeDirection} {start length : Float}
    {filter : Filter Float} (h : filter ∈ fadeFilter direction start length) :
    filter = .audioFade direction start length := by
  rw [fadeFilter] at h
  split at h
  · exact List.mem_singleton.mp h
  · cases h

theorem Clip.of_mem_audioChain {holds : Filter Float → Prop} {clip : Clip Float}
    {trackVolume : Float} (htrim : ∀ stop, holds (.audioTrim stop)) (hrestart : holds .audioRestart)
    (hfade : ∀ direction start length, holds (.audioFade direction start length))
    (hdelay : ∀ millis, holds (.audioDelay millis)) (hgain : ∀ factor, holds (.gain factor)) :
    ∀ filter ∈ clip.audioChain trackVolume, holds filter := by
  intro filter hfilter
  simp only [audioChain, List.mem_append, List.mem_cons, List.not_mem_nil, or_false] at hfilter
  rcases hfilter with (((rfl | rfl) | hinto) | hout) | rfl | rfl
  · exact htrim _
  · exact hrestart
  · exact mem_fadeFilter hinto ▸ hfade _ _ _
  · exact mem_fadeFilter hout ▸ hfade _ _ _
  · exact hdelay _
  · exact hgain _

theorem Placement.countP_voiceFilters (placement : Placement) :
    placement.voiceFilters.countP Filter.isOverlay = 0 := by
  refine List.countP_eq_zero.mpr ?_
  refine Clip.of_mem_audioChain ?_ ?_ ?_ ?_ ?_ <;> simp [Filter.isOverlay]

theorem mixes_layerNode (canvas : Canvas) (index : Nat) (clip : Clip Float) (pad : Pad) :
    (layerNode canvas index clip pad).mixes = [] := by
  cases htransition : clip.transition <;>
    simp [layerNode, Node.mixes, Clip.layerChain, Clip.ramps, htransition, Filter.mixed?]

theorem mixes_overlayNode (index : Nat) (clip : Clip Float) (picture : Label) :
    (overlayNode index clip picture).mixes = [] := rfl

theorem mixes_voiceNode (index : Nat) (placement : Placement) (pad : Pad) :
    (voiceNode index placement pad).mixes = [] := by
  rw [Node.mixes, List.map_eq_nil_iff, List.filterMap_eq_nil_iff]
  exact Clip.of_mem_audioChain (fun _ => rfl) rfl (fun _ _ _ => rfl) (fun _ => rfl) fun _ => rfl

theorem mixes_mixNode (voices : List Label) :
    (mixNode voices).mixes = [(voices.length, voices.length)] := by
  simp [mixNode, Node.mixes, Filter.mixed?]

namespace Wiring

variable (settings : Settings) (inputs : Nat) (sorting : Sorting)

theorem countP_start :
    (filters (start settings inputs sorting.uses).nodes).countP Filter.isOverlay = 0 := by
  refine List.countP_eq_zero.mpr fun filter hfilter => ?_
  obtain ⟨node, hnode, hchain⟩ := List.mem_flatMap.mp hfilter
  rcases List.mem_append.mp hnode with hsplit | hbase
  · obtain ⟨⟨slot, stream⟩, -, rfl⟩ := List.mem_map.mp hsplit
    rw [List.mem_singleton.mp hchain]
    cases stream <;> simp [Filter.isOverlay]
  · rw [List.mem_singleton.mp hbase] at hchain
    rw [List.mem_singleton.mp hchain]
    simp [Filter.isOverlay]

theorem mixes_start : (start settings inputs sorting.uses).nodes.flatMap Node.mixes = [] := by
  refine List.flatMap_eq_nil_iff.mpr fun node hnode => ?_
  rcases List.mem_append.mp hnode with hsplit | hbase
  · obtain ⟨⟨slot, stream⟩, -, rfl⟩ := List.mem_map.mp hsplit
    cases stream <;> rfl
  · rw [List.mem_singleton.mp hbase]
    rfl

theorem mixes_addLayers (canvas : Canvas) (wiring : Wiring) (visual : List Placement) :
    (wiring.addLayers canvas visual).nodes.flatMap Node.mixes =
      wiring.nodes.flatMap Node.mixes := by
  induction visual using List.reverseRecOn with
  | nil => rfl
  | append_singleton visual placement ih =>
      simp [addLayers_concat, addLayer, ih, mixes_layerNode, mixes_overlayNode]

theorem mixes_addVoices (wiring : Wiring) (audible : List Placement) :
    (wiring.addVoices audible).nodes.flatMap Node.mixes = wiring.nodes.flatMap Node.mixes := by
  induction audible using List.reverseRecOn with
  | nil => rfl
  | append_singleton audible placement ih =>
      simp [addVoices_concat, addVoice, ih, mixes_voiceNode]

theorem overlayCount_ofSorting :
    (ofSorting settings inputs sorting).graph.overlayCount = sorting.visual.length := by
  have hmix : (filters (ofSorting settings inputs sorting).mixNodes).countP Filter.isOverlay = 0 := by
    unfold mixNodes
    split <;> simp [filters, mixNode, Filter.isOverlay]
  have hlayers : (sorting.visual.flatMap (Placement.layerFilters settings.canvas)).countP
      Filter.isOverlay = sorting.visual.length := by
    simp [List.countP_flatMap, Function.comp_def, Placement.countP_layerFilters]
  have hvoices : (sorting.audible.flatMap Placement.voiceFilters).countP Filter.isOverlay = 0 := by
    simp [List.countP_flatMap, Function.comp_def, Placement.countP_voiceFilters]
  have hclips : (filters (ofSorting settings inputs sorting).nodes).countP Filter.isOverlay =
      sorting.visual.length := by
    rw [ofSorting, filters_addVoices, filters_addLayers, List.countP_append, List.countP_append,
      countP_start, hlayers, hvoices, Nat.zero_add, Nat.add_zero]
  rw [filters] at hmix hclips
  simp only [Graph.overlayCount, graph, filters, List.flatMap_append, List.countP_append, hclips,
    hmix, Nat.add_zero]
  rfl

theorem mixes_ofSorting :
    (ofSorting settings inputs sorting).graph.mixes =
      if sorting.audible.length = 0 then []
      else [(sorting.audible.length, sorting.audible.length)] := by
  have hlength := length_voices_ofSorting settings inputs sorting
  have hnodes : (ofSorting settings inputs sorting).nodes.flatMap Node.mixes = [] := by
    rw [ofSorting, mixes_addVoices, mixes_addLayers, mixes_start]
  have hfinal : (finalNode (.link (ofSorting settings inputs sorting).picture)).mixes = [] := rfl
  simp only [Graph.mixes, graph, List.flatMap_append, hnodes, List.nil_append,
    List.flatMap_singleton, hfinal, List.append_nil]
  simp only [mixNodes, List.isEmpty_iff, ← List.length_eq_zero_iff, hlength]
  split
  · rfl
  · rw [List.flatMap_singleton, mixes_mixNode, hlength]

end Wiring

namespace Timeline

variable {timeline : Timeline} {paths : AssetPaths} {plan : Plan}

theorem countBound_add_countUnbound (timeline : Timeline) (paths : AssetPaths) :
    timeline.countBound paths Track.isVisual + timeline.countBound paths Track.isAudible +
      timeline.countUnbound paths + timeline.countBound paths Track.isMuted =
        timeline.clipCount := by
  rw [← length_placements]
  simp only [countBound, countUnbound, Track.isVisual, Track.isAudible, Track.isMuted]
  induction timeline.placements with
  | nil => rfl
  | cons item items ih =>
      simp only [List.countP_cons, List.length_cons, ← ih]
      cases timeline.isBound paths item.2.assetId <;> cases item.1.kind.isVisual <;>
        cases item.1.muted <;> simp <;> omega

/-- The counts of a plan add up, and they are those of its inputs, of the filters in its graph
and of the clips. -/
structure Tallies (timeline : Timeline) (paths : AssetPaths) (plan : Plan) : Prop where
  clips : plan.counts.overlays + plan.counts.audioStreams + plan.counts.unboundClips +
    plan.counts.mutedClips = timeline.clipCount
  inputs : plan.counts.inputs = plan.inputs.length
  overlays : plan.counts.overlays = plan.graph.overlayCount
  mixes : plan.graph.mixes = if plan.counts.audioStreams = 0 then []
    else [(plan.counts.audioStreams, plan.counts.audioStreams)]
  mutedClips : plan.counts.mutedClips = timeline.countBound paths Track.isMuted
  unboundClips : plan.counts.unboundClips = timeline.countUnbound paths

theorem tallies_of_counted (hcounted : timeline.Counted paths plan.counts)
    (hinputs : plan.counts.inputs = plan.inputs.length)
    (hoverlays : plan.counts.overlays = plan.graph.overlayCount)
    (hmixes : plan.graph.mixes = if plan.counts.audioStreams = 0 then []
      else [(plan.counts.audioStreams, plan.counts.audioStreams)]) :
    timeline.Tallies paths plan where
  clips := by
    rw [hcounted.overlays, hcounted.audioStreams, hcounted.unboundClips, hcounted.mutedClips]
    exact timeline.countBound_add_countUnbound paths
  inputs := hinputs
  overlays := hoverlays
  mixes := hmixes
  mutedClips := hcounted.mutedClips
  unboundClips := hcounted.unboundClips

theorem tallies_emptyPlan (h : timeline.bindings paths = []) :
    timeline.Tallies paths timeline.emptyPlan :=
  tallies_of_counted (counted_emptyPlan h) rfl rfl rfl

theorem tallies_filledPlan : timeline.Tallies paths (timeline.filledPlan paths) := by
  have hvoices := Wiring.length_voices_ofSorting timeline.settings
    (timeline.bindings paths).length (timeline.sort paths)
  refine tallies_of_counted counted_filledPlan rfl ?_ ?_
  · exact (Wiring.overlayCount_ofSorting _ _ _).symm
  · simp only [filledPlan, Wiring.mixes_ofSorting, hvoices]

theorem tallies_compile (timeline : Timeline) (paths : AssetPaths) :
    timeline.Tallies paths (timeline.compile paths) := by
  unfold compile
  split
  · rename_i hempty
    exact tallies_emptyPlan (List.isEmpty_iff.mp hempty)
  · exact tallies_filledPlan

end Timeline

end Compositor
