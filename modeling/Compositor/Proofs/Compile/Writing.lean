import Compositor.Proofs.Compile.GraphText

/-!
# What is written of a wiring

Two wirings that take the same pads in the same order put out the same edges, so
that all that can differ in their texts are the filters of their clips.
-/

namespace Compositor

def WrittenNode.text (node : WrittenNode) : String :=
  String.join (node.inputs.map Pad.text) ++ ",".intercalate node.filters ++
    String.join (node.outputs.map Label.bracketed)

def writing (nodes : List Node) : List WrittenNode := nodes.map Node.written

theorem Graph.text_eq_writing (graph : Graph) :
    graph.text = ";".intercalate ((writing graph.nodes).map WrittenNode.text) := by
  rw [writing, List.map_map]
  rfl

theorem Timeline.text_compile_eq_iff {first second : Timeline} {paths paths' : AssetPaths} :
    (first.compile paths).graph.text = (second.compile paths').graph.text ↔
      writing (first.compile paths).graph.nodes = writing (second.compile paths').graph.nodes := by
  constructor
  · intro htext
    have hread := first.decode?_text_compile paths
    rw [htext, second.decode?_text_compile paths'] at hread
    exact (Option.some.inj hread).symm
  · intro hwriting
    rw [Graph.text_eq_writing, Graph.text_eq_writing, hwriting]

def Placement.writtenLayer (canvas : Canvas) (placement : Placement) : List String × String :=
  ((placement.clip.layerChain canvas).map Filter.text,
    (Filter.overlay placement.clip.slide placement.clip.window).text)

def Placement.writtenVoice (placement : Placement) : List String :=
  (placement.clip.audioChain placement.track.volume).map Filter.text

namespace Wiring

/-- Wirings that go on in the same way. -/
structure Parallel (first second : Wiring) : Prop where
  fanout : first.fanout = second.fanout
  picture : first.picture = second.picture
  voices : first.voices = second.voices

/-- A step that takes the next pad for a clip, and shows some view of the clip and nothing else. -/
structure Tells {α : Type} (step : Wiring → Placement × Nat → Wiring) (view : Placement → α) :
    Prop where
  parallel : ∀ {first second : Wiring} {placement placement' : Placement} (index : Nat),
    first.Parallel second → placement.slot = placement'.slot →
      (step first (placement, index)).Parallel (step second (placement', index))
  writing_eq_iff : ∀ {first second : Wiring} {placement placement' : Placement} (index : Nat),
    first.Parallel second → placement.slot = placement'.slot →
      (writing (step first (placement, index)).nodes =
          writing (step second (placement', index)).nodes ↔
        writing first.nodes = writing second.nodes ∧ view placement = view placement')

theorem tells_addLayer (canvas : Canvas) :
    Tells (addLayer canvas) (Placement.writtenLayer canvas) where
  parallel index h hslot := by
    simp only [addLayer, h.fanout, hslot]
    exact ⟨rfl, rfl, h.voices⟩
  writing_eq_iff index h hslot := by
    simp only [addLayer, h.fanout, h.picture, hslot, writing, List.map_append]
    rw [List.append_eq_append_iff_of_size_eq_right (by simp)]
    simp [Node.written, layerNode, overlayNode, Placement.writtenLayer]

theorem tells_addVoice : Tells addVoice Placement.writtenVoice where
  parallel index h hslot := by
    simp only [addVoice, h.fanout, h.voices, hslot]
    exact ⟨rfl, h.picture, rfl⟩
  writing_eq_iff index h hslot := by
    simp only [addVoice, h.fanout, hslot, writing, List.map_append]
    rw [List.append_eq_append_iff_of_size_eq_right (by simp)]
    simp [Node.written, voiceNode, Placement.writtenVoice]

theorem Tells.foldl {α : Type} {step : Wiring → Placement × Nat → Wiring} {view : Placement → α}
    (hstep : Tells step view) {placements placements' : List Placement}
    (hslots : placements.map Placement.slot = placements'.map Placement.slot) (index : Nat)
    {first second : Wiring} (h : first.Parallel second) :
    ((placements.zipIdx index).foldl step first).Parallel
        ((placements'.zipIdx index).foldl step second) ∧
      (writing ((placements.zipIdx index).foldl step first).nodes =
          writing ((placements'.zipIdx index).foldl step second).nodes ↔
        writing first.nodes = writing second.nodes ∧ placements.map view = placements'.map view) := by
  -- The wirings stay parallel, so that the clips after the first one take the same pads.
  induction placements generalizing placements' index first second with
  | nil =>
      rw [List.map_nil, eq_comm, List.map_eq_nil_iff] at hslots
      simp [hslots, h]
  | cons placement placements ih =>
      cases placements' with
      | nil => cases hslots
      | cons placement' placements' =>
          obtain ⟨hslot, hslots⟩ := List.cons.inj hslots
          obtain ⟨hall, hrest⟩ := ih hslots (index + 1) (hstep.parallel index h hslot)
          refine ⟨hall, hrest.trans ?_⟩
          rw [hstep.writing_eq_iff index h hslot, List.map_cons, List.map_cons, List.cons.injEq,
            and_assoc]

variable {settings settings' : Settings} {sorting sorting' : Sorting}

theorem tells_ofSorting (inputs : Nat) (hduration : settings.duration = settings'.duration)
    (hcanvas : settings.canvas = settings'.canvas) (hrate : settings.frameRate = settings'.frameRate)
    (hvisual : sorting.visual.map Placement.slot = sorting'.visual.map Placement.slot)
    (haudible : sorting.audible.map Placement.slot = sorting'.audible.map Placement.slot) :
    (ofSorting settings inputs sorting).Parallel (ofSorting settings' inputs sorting') ∧
      (writing (ofSorting settings inputs sorting).nodes =
          writing (ofSorting settings' inputs sorting').nodes ↔
        sorting.visual.map (Placement.writtenLayer settings.canvas) =
            sorting'.visual.map (Placement.writtenLayer settings.canvas) ∧
          sorting.audible.map Placement.writtenVoice =
            sorting'.audible.map Placement.writtenVoice) := by
  have huses (sorting : Sorting) : sorting.uses =
      (sorting.visual.map Placement.slot).map (⟨·, .video⟩) ++
        (sorting.audible.map Placement.slot).map (⟨·, .audio⟩) := by
    simp [Sorting.uses, Function.comp_def]
  have hstart : start settings inputs sorting.uses = start settings' inputs sorting'.uses := by
    simp only [start, baseNode, huses, hvisual, haudible, hduration, hcanvas, hrate]
  have hsame : (start settings inputs sorting.uses).Parallel (start settings inputs sorting.uses) :=
    ⟨rfl, rfl, rfl⟩
  obtain ⟨hlayers, hvisualTells⟩ := (tells_addLayer settings.canvas).foldl hvisual 0 hsame
  obtain ⟨hvoices, haudibleTells⟩ := tells_addVoice.foldl haudible 0 hlayers
  rw [hvisualTells] at haudibleTells
  unfold ofSorting addLayers addVoices
  rw [← hstart, ← hcanvas]
  exact ⟨hvoices, haudibleTells.trans (by simp)⟩

theorem Parallel.writing_graph_eq_iff {first second : Wiring} (h : first.Parallel second) :
    writing first.graph.nodes = writing second.graph.nodes ↔
      writing first.nodes = writing second.nodes := by
  simp only [graph, mixNodes, h.picture, h.voices, writing, List.map_append, List.append_cancel_right_eq]

theorem Parallel.outputs_eq {first second : Wiring} (h : first.Parallel second) :
    first.outputs = second.outputs := by
  rw [outputs, outputs, h.voices]

end Wiring

end Compositor
