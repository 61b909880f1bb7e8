import Compositor.Proofs.Compile.Edge
import Compositor.Proofs.Compile.Fanout
import Compositor.Proofs.Compile.Sorting
import Mathlib.Data.List.Induction

/-!
# The wiring of a compiled graph

What holds after each layer and each voice: which edges have been put out, that
all of them differ, and that the edges without a reader are the picture so far,
the voices so far and the branches that are left.
-/

namespace Compositor

namespace Wiring

def startEdges (inputs : Nat) (uses : List InputStream) : List Edge :=
  ((sharedStreams inputs uses).flatMap fun source =>
    (List.range (uses.count source)).map (.branch source.slot source.stream)) ++ [.base]

def layerEdges (count : Nat) : List Edge :=
  (List.range count).flatMap fun index => [.layer index, .overlay index]

def voiceEdges (count : Nat) : List Edge := (List.range count).map .voice

def finalEdges : List Edge := [.mix, .picture]

theorem nodup_startEdges (inputs : Nat) (uses : List InputStream) :
    (startEdges inputs uses).Nodup := by
  have hbranches : ((sharedStreams inputs uses).flatMap fun source =>
      (List.range (uses.count source)).map (Edge.branch source.slot source.stream)).Nodup := by
    refine List.nodup_flatMap.mpr ⟨fun source _ => ?_, ?_⟩
    · exact List.nodup_range.map fun _ _ h => (Edge.branch.inj h).2.2
    · refine (nodup_sharedStreams inputs uses).imp fun hne => ?_
      simp only [Function.onFun, List.disjoint_left, List.mem_map]
      rintro edge ⟨index, -, rfl⟩ ⟨index', -, h⟩
      obtain ⟨hslot, hstream, -⟩ := Edge.branch.inj h
      exact hne (InputStream.ext hslot.symm hstream.symm)
  refine List.nodup_append'.mpr ⟨hbranches, by simp, ?_⟩
  simp

theorem nodup_layerEdges (count : Nat) : (layerEdges count).Nodup := by
  refine List.nodup_flatMap.mpr ⟨by simp, ?_⟩
  refine List.nodup_range.imp fun hne => ?_
  simp [List.disjoint_left, hne]

theorem nodup_voiceEdges (count : Nat) : (voiceEdges count).Nodup :=
  List.nodup_range.map fun _ _ => Edge.voice.inj

def allEdges (inputs : Nat) (uses : List InputStream) (layers voices : Nat) : List Edge :=
  startEdges inputs uses ++ layerEdges layers ++ voiceEdges voices ++ finalEdges

theorem nodup_allEdges (inputs : Nat) (uses : List InputStream) (layers voices : Nat) :
    (allEdges inputs uses layers voices).Nodup := by
  refine List.nodup_append'.mpr ⟨List.nodup_append'.mpr ⟨List.nodup_append'.mpr
    ⟨nodup_startEdges inputs uses, nodup_layerEdges layers, ?_⟩, nodup_voiceEdges voices, ?_⟩,
    by decide, ?_⟩
  all_goals
    simp only [List.disjoint_left, startEdges, layerEdges, voiceEdges, finalEdges,
      List.mem_append, List.mem_flatMap, List.mem_map, List.mem_cons]
    grind

theorem produced_splitNodes (inputs : Nat) (uses : List InputStream) :
    produced (splitNodes inputs uses) = (sharedStreams inputs uses).flatMap fun source =>
      source.branches (uses.count source) := by
  simp [produced, splitNodes, List.flatMap_map, InputStream.splitNode]

theorem produced_start (settings : Settings) (inputs : Nat) (uses : List InputStream) :
    produced (start settings inputs uses).nodes = (startEdges inputs uses).map Edge.label := by
  simp [start, produced_splitNodes, startEdges, baseNode, List.map_flatMap, InputStream.branches,
    Function.comp_def]

theorem produced_addLayer (canvas : Canvas) (wiring : Wiring) (placement : Placement)
    (index : Nat) :
    produced (wiring.addLayer canvas (placement, index)).nodes =
      produced wiring.nodes ++ [(Edge.layer index).label, (Edge.overlay index).label] := by
  simp [addLayer, layerNode, overlayNode]

theorem produced_addVoice (wiring : Wiring) (placement : Placement) (index : Nat) :
    produced (wiring.addVoice (placement, index)).nodes =
      produced wiring.nodes ++ [(Edge.voice index).label] := by
  simp [addVoice, voiceNode]

@[simp] theorem addLayers_nil (canvas : Canvas) (wiring : Wiring) :
    wiring.addLayers canvas [] = wiring := rfl

theorem addLayers_concat (canvas : Canvas) (wiring : Wiring) (visual : List Placement)
    (placement : Placement) :
    wiring.addLayers canvas (visual ++ [placement]) =
      (wiring.addLayers canvas visual).addLayer canvas (placement, visual.length) := by
  simp [addLayers, List.zipIdx_append]

@[simp] theorem addVoices_nil (wiring : Wiring) : wiring.addVoices [] = wiring := rfl

theorem addVoices_concat (wiring : Wiring) (audible : List Placement) (placement : Placement) :
    wiring.addVoices (audible ++ [placement]) =
      (wiring.addVoices audible).addVoice (placement, audible.length) := by
  simp [addVoices, List.zipIdx_append]

theorem produced_addLayers (canvas : Canvas) (wiring : Wiring) (visual : List Placement) :
    produced (wiring.addLayers canvas visual).nodes =
      produced wiring.nodes ++ (layerEdges visual.length).map Edge.label := by
  induction visual using List.reverseRecOn with
  | nil => simp [layerEdges]
  | append_singleton visual placement ih =>
      rw [addLayers_concat, produced_addLayer, ih]
      simp [layerEdges, List.range_succ]

theorem produced_addVoices (wiring : Wiring) (audible : List Placement) :
    produced (wiring.addVoices audible).nodes =
      produced wiring.nodes ++ (voiceEdges audible.length).map Edge.label := by
  induction audible using List.reverseRecOn with
  | nil => simp [voiceEdges]
  | append_singleton audible placement ih =>
      rw [addVoices_concat, produced_addVoice, ih]
      simp [voiceEdges, List.range_succ]

/-- After the first of the uses have been wired, the edges without a reader are the picture so
far, the voices so far and the branches that are left, and each stream that was read is split
or has no other reader. -/
structure Balanced (inputs : Nat) (uses taken : List InputStream) (wiring : Wiring) : Prop where
  wired : Wired wiring.nodes
    (wiring.picture :: wiring.voices ++ wiring.fanout.waiting inputs)
  serves : wiring.fanout.Serves uses taken
  streams : sourced wiring.nodes =
    sharedStreams inputs uses ++ taken.filter fun source => uses.count source < 2

theorem waiting_ofUses (inputs : Nat) (uses : List InputStream) :
    (Fanout.ofUses uses).waiting inputs = produced (splitNodes inputs uses) := by
  rw [produced_splitNodes, Fanout.waiting, sharedStreams, flatMap_filter]
  refine List.flatMap_congr fun source _ => ?_
  rcases Nat.lt_or_ge (uses.count source) 2 with hsole | hshared
  · rw [Fanout.pending_ofUses_of_sole hsole, if_neg]
    simpa using hsole
  · rw [Fanout.pending_ofUses_of_shared hshared, if_pos]
    simpa using hshared

theorem sourced_splitNodes (inputs : Nat) (uses : List InputStream) :
    sourced (splitNodes inputs uses) = sharedStreams inputs uses := by
  simp [sourced, splitNodes, List.flatMap_map, InputStream.splitNode, Node.sources]

theorem balanced_start (settings : Settings) (inputs : Nat) (uses : List InputStream) :
    (start settings inputs uses).Balanced inputs uses [] where
  wired := by
    have hlinks : ∀ node ∈ (start settings inputs uses).nodes, node.links = [] := by
      simp only [start, splitNodes, List.mem_append, List.mem_map, List.mem_singleton]
      rintro node (⟨source, -, rfl⟩ | rfl) <;> rfl
    refine (Wired.of_links_eq_nil hlinks).perm ?_
    simp only [start, produced_append, waiting_ofUses, List.nil_append, List.cons_append]
    exact List.perm_append_comm
  serves := Fanout.serves_ofUses uses
  streams := by
    simp [start, sourced_splitNodes, baseNode, Node.sources]

namespace Balanced

variable {inputs : Nat} {uses taken : List InputStream} {wiring : Wiring} {source : InputStream}

theorem wired_read (h : wiring.Balanced inputs uses taken) (node : Node) (hslot : source.slot < inputs)
    (hnode : node.inputs = [(wiring.fanout.take source).1]) :
    Wired (wiring.nodes ++ [node])
      (wiring.picture :: wiring.voices ++ (wiring.fanout.take source).2.waiting inputs ++
        node.outputs) := by
  have hlinks : node.links = (wiring.fanout.take source).1.link?.toList := by
    simp only [Node.links, hnode, List.filterMap_cons, List.filterMap_nil]
    cases (wiring.fanout.take source).1.link? <;> rfl
  refine (h.wired.perm ?_).concat node
  rw [hlinks]
  calc
    (wiring.picture :: wiring.voices ++ wiring.fanout.waiting inputs).Perm
        (wiring.picture :: wiring.voices ++ ((wiring.fanout.take source).1.link?.toList ++
          (wiring.fanout.take source).2.waiting inputs)) :=
      (wiring.fanout.waiting_take (mem_inputStreams.mpr hslot)).append_left _
    List.Perm _ _ := List.perm_append_comm_assoc _ _ _

theorem sourced_read (h : wiring.Balanced inputs uses taken) (node : Node)
    (htaken : taken ++ [source] <+: uses)
    (hnode : node.inputs = [(wiring.fanout.take source).1]) :
    sourced (wiring.nodes ++ [node]) =
      sharedStreams inputs uses ++
        (taken ++ [source]).filter fun source => uses.count source < 2 := by
  simp only [sourced_append, h.streams, sourced_cons, sourced_nil, Node.sources, hnode,
    List.filterMap_cons, List.filterMap_nil, h.serves.source?_take htaken, List.filter_append,
    List.filter_cons, List.filter_nil, List.append_nil, List.append_assoc]
  by_cases hsole : uses.count source < 2 <;> simp [hsole]

theorem addLayer (h : wiring.Balanced inputs uses taken) (canvas : Canvas)
    (placement : Placement) (index : Nat) (hslot : placement.slot < inputs)
    (htaken : taken ++ [⟨placement.slot, .video⟩] <+: uses) :
    (wiring.addLayer canvas (placement, index)).Balanced inputs uses
      (taken ++ [⟨placement.slot, .video⟩]) where
  wired := by
    let waiting := (wiring.fanout.take ⟨placement.slot, .video⟩).2.waiting inputs
    have hlayer : Wired _ (wiring.picture :: wiring.voices ++ waiting ++
        [(Edge.layer index).label]) :=
      h.wired_read (layerNode canvas index placement.clip _) hslot rfl
    have hreads : (wiring.picture :: wiring.voices ++ waiting ++ [(Edge.layer index).label]).Perm
        ([wiring.picture, (Edge.layer index).label] ++ (wiring.voices ++ waiting)) :=
      .cons _ (List.perm_append_singleton _ _)
    have hoverlay := (hlayer.perm hreads).concat
      (overlayNode index placement.clip wiring.picture)
    rw [List.append_assoc] at hoverlay
    exact hoverlay.perm (List.perm_append_singleton _ _)
  serves := h.serves.take htaken
  streams := by
    have hlayer := h.sourced_read (layerNode canvas index placement.clip _) htaken rfl
    simpa [Wiring.addLayer, overlayNode, Node.sources, List.filterMap_cons] using hlayer

theorem addVoice (h : wiring.Balanced inputs uses taken) (placement : Placement) (index : Nat)
    (hslot : placement.slot < inputs) (htaken : taken ++ [⟨placement.slot, .audio⟩] <+: uses) :
    (wiring.addVoice (placement, index)).Balanced inputs uses
      (taken ++ [⟨placement.slot, .audio⟩]) where
  wired := by
    have hvoice := h.wired_read
      (voiceNode index placement (wiring.fanout.take ⟨placement.slot, .audio⟩).1) hslot rfl
    refine hvoice.perm ?_
    simp only [Wiring.addVoice, voiceNode, List.cons_append, List.append_assoc]
    exact .cons _ (List.perm_append_comm.append_left _)
  serves := h.serves.take htaken
  streams := h.sourced_read (voiceNode index placement _) htaken rfl

theorem addLayers (h : wiring.Balanced inputs uses taken) (canvas : Canvas)
    (visual : List Placement) (hslots : ∀ placement ∈ visual, placement.slot < inputs)
    (htaken : taken ++ visual.map (⟨·.slot, .video⟩) <+: uses) :
    (wiring.addLayers canvas visual).Balanced inputs uses
      (taken ++ visual.map (⟨·.slot, .video⟩)) := by
  induction visual using List.reverseRecOn with
  | nil => simpa using h
  | append_singleton visual placement ih =>
      rw [List.map_append, ← List.append_assoc] at htaken ⊢
      rw [addLayers_concat]
      have hvisual := ih (fun other hother => hslots other (by simp [hother]))
        ((List.prefix_append _ _).trans htaken)
      exact hvisual.addLayer canvas placement _ (hslots placement (by simp)) htaken

theorem addVoices (h : wiring.Balanced inputs uses taken) (audible : List Placement)
    (hslots : ∀ placement ∈ audible, placement.slot < inputs)
    (htaken : taken ++ audible.map (⟨·.slot, .audio⟩) <+: uses) :
    (wiring.addVoices audible).Balanced inputs uses
      (taken ++ audible.map (⟨·.slot, .audio⟩)) := by
  induction audible using List.reverseRecOn with
  | nil => simpa using h
  | append_singleton audible placement ih =>
      rw [List.map_append, ← List.append_assoc] at htaken ⊢
      rw [addVoices_concat]
      have haudible := ih (fun other hother => hslots other (by simp [hother]))
        ((List.prefix_append _ _).trans htaken)
      exact haudible.addVoice placement _ (hslots placement (by simp)) htaken

end Balanced

section Sorted

variable (settings : Settings) (inputs : Nat) (sorting : Sorting)

theorem balanced_ofSorting (hslots : ∀ source ∈ sorting.uses, source.slot < inputs) :
    (ofSorting settings inputs sorting).Balanced inputs sorting.uses sorting.uses := by
  have hvisual : ∀ placement ∈ sorting.visual, placement.slot < inputs := fun placement h =>
    hslots _ (List.mem_append_left _ (List.mem_map_of_mem h))
  have haudible : ∀ placement ∈ sorting.audible, placement.slot < inputs := fun placement h =>
    hslots _ (List.mem_append_right _ (List.mem_map_of_mem h))
  have hlayers := (balanced_start settings inputs sorting.uses).addLayers settings.canvas
    sorting.visual hvisual (List.prefix_append _ _)
  exact hlayers.addVoices sorting.audible haudible (List.prefix_refl _)

theorem produced_ofSorting :
    produced (ofSorting settings inputs sorting).nodes =
      (startEdges inputs sorting.uses ++ layerEdges sorting.visual.length ++
        voiceEdges sorting.audible.length).map Edge.label := by
  simp [ofSorting, produced_addVoices, produced_addLayers, produced_start]

theorem voices_addLayers (canvas : Canvas) (wiring : Wiring) (visual : List Placement) :
    (wiring.addLayers canvas visual).voices = wiring.voices := by
  induction visual using List.reverseRecOn with
  | nil => rfl
  | append_singleton visual placement ih => simpa [addLayers_concat, addLayer] using ih

theorem voices_addVoices (wiring : Wiring) (audible : List Placement) :
    (wiring.addVoices audible).voices =
      wiring.voices ++ (voiceEdges audible.length).map Edge.label := by
  induction audible using List.reverseRecOn with
  | nil => simp [voiceEdges]
  | append_singleton audible placement ih =>
      simp [addVoices_concat, addVoice, ih, voiceEdges, List.range_succ]

theorem voices_ofSorting :
    (ofSorting settings inputs sorting).voices =
      (voiceEdges sorting.audible.length).map Edge.label := by
  simp [ofSorting, voices_addVoices, voices_addLayers, start]

end Sorted

end Wiring

end Compositor
