import Compositor.Proofs.Compile.Linear
import Compositor.Proofs.Timeline.Check

/-!
# Streams of a compiled graph

Each edge of a compiled graph carries pictures or sound, and each node reads and
puts out what its filters work on.  In a timeline that passes the check no input
is asked for a stream that its asset cannot have.
-/

namespace Compositor

def Filter.kept? {S : Type} : Filter S → Option Stream
  | .scaleCover _ | .centerCrop _ | .squarePixels | .format _ | .fade _ _ _ => some .video
  | .audioTrim _ | .audioRestart | .audioFade _ _ _ | .audioDelay _ | .gain _ => some .audio
  | .color _ _ _ _ | .overlay _ _ | .split _ | .audioSplit _ | .audioMix _ => none

def Pad.stream (type : Label → Stream) : Pad → Stream
  | .input _ stream => stream
  | .link label => type label

/-- The nodes that are well formed if labels carry what `type` says. -/
inductive Node.Typed (type : Label → Stream) : Node → Prop
  | color {tint : String} {canvas : Canvas} {duration : Float} {rate : Nat} {label : Label} :
      type label = .video → Node.Typed type ⟨[], [.color tint canvas duration rate], [label]⟩
  | chain (stream : Stream) {pad : Pad} {chain : List (Filter Float)} {label : Label} :
      chain ≠ [] → (∀ filter ∈ chain, filter.kept? = some stream) →
      pad.stream type = stream → type label = stream → Node.Typed type ⟨[pad], chain, [label]⟩
  | overlay {below above : Pad} {slide : Slide Float} {window : Window Float} {label : Label} :
      below.stream type = .video → above.stream type = .video → type label = .video →
      Node.Typed type ⟨[below, above], [.overlay slide window], [label]⟩
  | split {pad : Pad} {labels : List Label} :
      pad.stream type = .video → 2 ≤ labels.length → (∀ label ∈ labels, type label = .video) →
      Node.Typed type ⟨[pad], [.split labels.length], labels⟩
  | audioSplit {pad : Pad} {labels : List Label} :
      pad.stream type = .audio → 2 ≤ labels.length → (∀ label ∈ labels, type label = .audio) →
      Node.Typed type ⟨[pad], [.audioSplit labels.length], labels⟩
  | mix {pads : List Pad} {label : Label} :
      1 ≤ pads.length → (∀ pad ∈ pads, pad.stream type = .audio) → type label = .audio →
      Node.Typed type ⟨pads, [.audioMix pads.length], [label]⟩

structure Plan.TypedBy (plan : Plan) (type : Label → Stream) : Prop where
  nodes : ∀ node ∈ plan.graph.nodes, node.Typed type
  video : type plan.outputs.video = .video
  audio : ∀ label, plan.outputs.audio = some label → type label = .audio

namespace Edge

def stream : Edge → Stream
  | .base | .layer _ | .overlay _ | .picture => .video
  | .voice _ | .mix => .audio
  | .branch _ stream _ => stream

instance : Nonempty Edge := ⟨.base⟩

end Edge

noncomputable def Label.stream (label : Label) : Stream := (Function.invFun Edge.label label).stream

@[simp] theorem Label.stream_label (edge : Edge) : edge.label.stream = edge.stream := by
  rw [Label.stream, Function.leftInverse_invFun Edge.label_injective]

namespace InputStream

theorem stream_of_mem_branches {source : InputStream} {count : Nat} {label : Label}
    (h : label ∈ source.branches count) : label.stream = source.stream := by
  obtain ⟨index, -, rfl⟩ := List.mem_map.mp h
  rw [Label.stream_label, Edge.stream]

theorem typed_splitNode (source : InputStream) {count : Nat} (h : 2 ≤ count) :
    (source.splitNode count).Typed Label.stream := by
  have hlength : (source.branches count).length = count := by simp [branches]
  have hmany : 2 ≤ (source.branches count).length := by rwa [hlength]
  have hlabels : ∀ label ∈ source.branches count, label.stream = source.stream := fun _ =>
    stream_of_mem_branches
  obtain ⟨slot, stream⟩ := source
  cases stream with
  | video =>
      have htyped : Node.Typed Label.stream ⟨[pad ⟨slot, .video⟩], [.split _], _⟩ :=
        .split rfl hmany hlabels
      rwa [hlength] at htyped
  | audio =>
      have htyped : Node.Typed Label.stream ⟨[pad ⟨slot, .audio⟩], [.audioSplit _], _⟩ :=
        .audioSplit rfl hmany hlabels
      rwa [hlength] at htyped

end InputStream

theorem kept?_of_mem_layerChain {canvas : Canvas} {clip : Clip Float} {filter : Filter Float}
    (h : filter ∈ clip.layerChain canvas) : filter.kept? = some .video := by
  cases htransition : clip.transition <;>
    simp only [Clip.layerChain, Clip.ramps, htransition, List.mem_append, List.mem_cons,
      List.not_mem_nil, or_false] at h <;>
    rcases h with (rfl | rfl | rfl) | (rfl | rfl | rfl) <;> rfl

theorem kept?_of_mem_fadeFilter {direction : FadeDirection} {start length : Float}
    {filter : Filter Float} (h : filter ∈ fadeFilter direction start length) :
    filter.kept? = some .audio := by
  unfold fadeFilter at h
  split at h
  · rw [List.mem_singleton.mp h]
    rfl
  · cases h

theorem kept?_of_mem_audioChain {volume : Float} {clip : Clip Float} {filter : Filter Float}
    (h : filter ∈ clip.audioChain volume) : filter.kept? = some .audio := by
  simp only [Clip.audioChain, List.mem_append, List.mem_cons, List.not_mem_nil, or_false] at h
  rcases h with (((rfl | rfl) | hinto) | hout) | (rfl | rfl)
  · rfl
  · rfl
  · exact kept?_of_mem_fadeFilter hinto
  · exact kept?_of_mem_fadeFilter hout
  · rfl
  · rfl

namespace Wiring

/-! ## Typed wirings -/

/-- All nodes so far are well formed, and the edges without a reader carry what their readers
will ask for. -/
structure IsTyped (wiring : Wiring) : Prop where
  nodes : ∀ node ∈ wiring.nodes, node.Typed Label.stream
  picture : wiring.picture.stream = .video
  voices : ∀ label ∈ wiring.voices, label.stream = .audio
  pending : ∀ source, ∀ label ∈ wiring.fanout.pending source, label.stream = source.stream

theorem isTyped_start (settings : Settings) (inputs : Nat) (uses : List InputStream) :
    (start settings inputs uses).IsTyped where
  nodes := by
    intro node hnode
    rcases List.mem_append.mp hnode with hsplit | hbase
    · obtain ⟨source, hsource, rfl⟩ := List.mem_map.mp hsplit
      exact source.typed_splitNode (of_decide_eq_true (List.mem_filter.mp hsource).2)
    · rw [List.mem_singleton.mp hbase]
      exact .color (Label.stream_label .base)
  picture := Label.stream_label .base
  voices := by simp [start]
  pending := by
    intro source label hlabel
    simp only [start, Fanout.ofUses] at hlabel
    split at hlabel
    · cases hlabel
    · exact InputStream.stream_of_mem_branches hlabel

namespace IsTyped

variable {wiring : Wiring}

theorem stream_take (h : wiring.IsTyped) (source : InputStream) :
    (wiring.fanout.take source).1.stream Label.stream = source.stream := by
  cases hpending : wiring.fanout.pending source with
  | nil =>
      rw [Fanout.take_of_pending_nil hpending]
      rfl
  | cons label labels =>
      rw [Fanout.take_of_pending_cons hpending]
      exact h.pending source label (by simp [hpending])

theorem pending_take (h : wiring.IsTyped) (source : InputStream) :
    ∀ other, ∀ label ∈ (wiring.fanout.take source).2.pending other,
      label.stream = other.stream := by
  cases hpending : wiring.fanout.pending source with
  | nil =>
      rw [Fanout.take_of_pending_nil hpending]
      exact h.pending
  | cons first labels =>
      rw [Fanout.take_of_pending_cons hpending]
      intro other label hlabel
      rcases eq_or_ne other source with rfl | hne
      · simp only [if_pos] at hlabel
        exact h.pending other label (by simp [hpending, hlabel])
      · simp only [if_neg hne] at hlabel
        exact h.pending other label hlabel

theorem addLayer (h : wiring.IsTyped) (canvas : Canvas) (placement : Placement) (index : Nat) :
    (wiring.addLayer canvas (placement, index)).IsTyped where
  nodes := by
    intro node hnode
    rcases List.mem_append.mp hnode with hold | hnew
    · exact h.nodes node hold
    · simp only [List.mem_cons, List.not_mem_nil, or_false] at hnew
      rcases hnew with rfl | rfl
      · exact .chain .video (by simp [Clip.layerChain]) (fun _ => kept?_of_mem_layerChain)
          (h.stream_take _) (Label.stream_label _)
      · exact .overlay h.picture (Label.stream_label _) (Label.stream_label _)
  picture := Label.stream_label (.overlay index)
  voices := h.voices
  pending := h.pending_take _

theorem addVoice (h : wiring.IsTyped) (placement : Placement) (index : Nat) :
    (wiring.addVoice (placement, index)).IsTyped where
  nodes := by
    intro node hnode
    rcases List.mem_append.mp hnode with hold | hnew
    · exact h.nodes node hold
    · rw [List.mem_singleton.mp hnew]
      exact .chain .audio (by simp [Clip.audioChain]) (fun _ => kept?_of_mem_audioChain)
        (h.stream_take _) (Label.stream_label _)
  picture := h.picture
  voices := by
    intro label hlabel
    rcases List.mem_append.mp hlabel with hold | hnew
    · exact h.voices label hold
    · rw [List.mem_singleton.mp hnew]
      exact Label.stream_label _
  pending := h.pending_take _

theorem addLayers (h : wiring.IsTyped) (canvas : Canvas) (visual : List Placement) :
    (wiring.addLayers canvas visual).IsTyped := by
  induction visual using List.reverseRecOn with
  | nil => exact h
  | append_singleton visual placement ih =>
      rw [addLayers_concat]
      exact ih.addLayer canvas placement _

theorem addVoices (h : wiring.IsTyped) (audible : List Placement) :
    (wiring.addVoices audible).IsTyped := by
  induction audible using List.reverseRecOn with
  | nil => exact h
  | append_singleton audible placement ih =>
      rw [addVoices_concat]
      exact ih.addVoice placement _

theorem graph (h : wiring.IsTyped) : ∀ node ∈ wiring.graph.nodes, node.Typed Label.stream := by
  intro node hnode
  simp only [Wiring.graph, List.mem_append, List.mem_singleton] at hnode
  rcases hnode with (hnode | hmix) | rfl
  · exact h.nodes node hnode
  · unfold mixNodes at hmix
    split at hmix
    · cases hmix
    · rename_i hvoices
      rw [List.mem_singleton.mp hmix, mixNode, ← List.length_map Pad.link]
      refine .mix ?_ ?_ (Label.stream_label .mix)
      · rw [List.length_map]
        exact List.length_pos_iff.mpr fun hnil => hvoices (List.isEmpty_iff.mpr hnil)
      · intro pad hpad
        obtain ⟨label, hlabel, rfl⟩ := List.mem_map.mp hpad
        exact h.voices label hlabel
  · exact .chain .video (by simp) (by simp [Filter.kept?]) h.picture (Label.stream_label .picture)

end IsTyped

theorem isTyped_ofSorting (settings : Settings) (inputs : Nat) (sorting : Sorting) :
    (ofSorting settings inputs sorting).IsTyped :=
  ((isTyped_start settings inputs sorting.uses).addLayers settings.canvas sorting.visual).addVoices
    sorting.audible

end Wiring

def MediaKind.Has (kind : MediaKind) : Stream → Prop
  | .video => kind = .video ∨ kind = .image
  | .audio => kind = .audio ∨ kind = .video

/-- A stream of an input that its asset can have; the plain color has pictures. -/
inductive Plan.Supplies (plan : Plan) (timeline : Timeline) : InputStream → Prop
  | asset {slot : Nat} {stream : Stream} {id : String} {source : Source} {asset : Asset} :
      plan.inputs[slot]? = some ⟨slot, some id, source⟩ →
      timeline.assets.get? id = some asset → asset.kind.Has stream →
      Plan.Supplies plan timeline ⟨slot, stream⟩
  | color {slot : Nat} {tint : String} {canvas : Canvas} {duration : Float} {rate : Nat} :
      plan.inputs[slot]? = some ⟨slot, none, .color tint canvas duration rate⟩ →
      Plan.Supplies plan timeline ⟨slot, .video⟩

theorem MediaKind.has_of_accepts {track asset : MediaKind} (h : track.accepts asset = true) :
    asset.Has (if track.isVisual then .video else .audio) := by
  cases track <;> cases asset <;> simp_all [accepts, isVisual, Has]

namespace Timeline

variable {timeline : Timeline} {paths : AssetPaths}

theorem exists_item_of_mem_placed {isKept : Track → Bool} {placement : Placement}
    (h : placement ∈ timeline.placed paths isKept) :
    ∃ item ∈ timeline.placements, isKept item.1 = true ∧
      timeline.slot? paths item.2.assetId = some placement.slot := by
  obtain ⟨item, hitem, hplace⟩ := List.mem_filterMap.mp h
  simp only [Sorting.place?, Option.ite_none_right_eq_some, Option.map_eq_some_iff] at hplace
  obtain ⟨hkept, slot, hslot, rfl⟩ := hplace
  exact ⟨item, hitem, hkept, hslot⟩

theorem supplies_of_mem_placed (hvalid : timeline.validate = .ok ()) {isKept : Track → Bool}
    {placement : Placement} (h : placement ∈ timeline.placed paths isKept) {stream : Stream}
    (hstream : ∀ track, isKept track = true →
      (if track.kind.isVisual then Stream.video else .audio) = stream) :
    (timeline.filledPlan paths).Supplies timeline ⟨placement.slot, stream⟩ := by
  obtain ⟨item, hitem, hkept, hslot⟩ := exists_item_of_mem_placed h
  obtain ⟨asset, hasset, haccepts⟩ := (admits_of_validate hvalid hitem).asset
  obtain ⟨source, hinput⟩ := timeline.exists_input_of_slot? paths hslot
  refine .asset hinput hasset ?_
  rw [← hstream item.1 hkept]
  exact MediaKind.has_of_accepts haccepts

theorem supplies_of_mem_uses (hvalid : timeline.validate = .ok ()) {source : InputStream}
    (h : source ∈ (timeline.sort paths).uses) :
    (timeline.filledPlan paths).Supplies timeline source := by
  rw [Sorting.uses, visual_sort, audible_sort, List.mem_append] at h
  rcases h with hvisual | haudible
  · obtain ⟨placement, hplacement, rfl⟩ := List.mem_map.mp hvisual
    refine supplies_of_mem_placed hvalid hplacement fun track hkept => ?_
    exact if_pos hkept
  · obtain ⟨placement, hplacement, rfl⟩ := List.mem_map.mp haudible
    refine supplies_of_mem_placed hvalid hplacement fun track hkept => ?_
    simp only [Track.isAudible, Bool.and_eq_true, Bool.not_eq_true'] at hkept
    simp [hkept.1]

theorem mem_uses_of_mem_sourced {source : InputStream}
    (h : source ∈ sourced (timeline.filledPlan paths).graph.nodes) :
    source ∈ (timeline.sort paths).uses := by
  rw [filledPlan, (timeline.balanced_wiring paths).sourced_graph, List.mem_append] at h
  rcases h with hshared | hsole
  · have hmany := of_decide_eq_true (List.mem_filter.mp hshared).2
    exact List.count_pos_iff.mp (by omega)
  · exact (List.mem_filter.mp hsole).1

/-! ## Typed plans -/

theorem typedBy_filledPlan : (timeline.filledPlan paths).TypedBy Label.stream where
  nodes := (Wiring.isTyped_ofSorting _ _ _).graph
  video := Label.stream_label .picture
  audio := by
    intro label hlabel
    simp only [filledPlan, Wiring.outputs] at hlabel
    split at hlabel
    · cases hlabel
    · rw [← Option.some.inj hlabel]
      exact Label.stream_label .mix

theorem typedBy_emptyPlan : timeline.emptyPlan.TypedBy Label.stream where
  nodes := by
    intro node hnode
    rw [List.mem_singleton.mp hnode]
    exact .chain .video (by simp) (by simp [Filter.kept?]) rfl (Label.stream_label .picture)
  video := Label.stream_label .picture
  audio := by simp [emptyPlan]

theorem mem_sourced {nodes : List Node} {node : Node} (hnode : node ∈ nodes) {slot : Nat}
    {stream : Stream} (hpad : Pad.input slot stream ∈ node.inputs) :
    (⟨slot, stream⟩ : InputStream) ∈ sourced nodes :=
  List.mem_flatMap.mpr ⟨node, hnode, List.mem_filterMap.mpr ⟨_, hpad, rfl⟩⟩

/-- The graph of a timeline that passes the check is well typed, and its inputs have the streams
that they are asked for. -/
theorem typed_compile (hvalid : timeline.validate = .ok ()) :
    (∃ type, (timeline.compile paths).TypedBy type) ∧
    ∀ node ∈ (timeline.compile paths).graph.nodes, ∀ slot stream,
      Pad.input slot stream ∈ node.inputs →
        (timeline.compile paths).Supplies timeline ⟨slot, stream⟩ := by
  rw [compile]
  split
  · refine ⟨⟨_, typedBy_emptyPlan⟩, ?_⟩
    intro node hnode slot stream hpad
    rw [List.mem_singleton.mp hnode] at hpad
    obtain ⟨rfl, rfl⟩ := Pad.input.inj (List.mem_singleton.mp hpad)
    exact .color rfl
  · refine ⟨⟨_, typedBy_filledPlan⟩, ?_⟩
    intro node hnode slot stream hpad
    exact supplies_of_mem_uses hvalid (mem_uses_of_mem_sourced (mem_sourced hnode hpad))

def screening : Timeline where
  tracks :=
    [⟨"t", .video, "", [⟨"c", "film", "t", 0.0, 1.0, 1.0, 0.0, 0.0, .cut⟩,
      ⟨"d", "still", "t", 0.0, 1.0, 1.0, 0.0, 0.0, .wipe⟩,
      ⟨"e", "film", "t", 1.0, 1.0, 1.0, 0.0, 0.0, .fade⟩], false, 1.0⟩,
    ⟨"u", .audio, "", [⟨"f", "film", "u", 0.0, 2.0, 0.5, 0.1, 0.1, .cut⟩,
      ⟨"g", "film", "u", 1.0, 1.0, 0.5, 0.0, 0.0, .cut⟩], false, 1.0⟩]
  settings := .default "x" 2.0
  assets := .ofList [("film", .plain .video "film.mp4"), ("still", .plain .image "still.jpg")]

theorem typed_compile_screening :
    screening.validate = .ok () ∧
    (∃ type, (screening.compile (.ofList [("film", "/film.mp4"), ("still", "/still.jpg")])).TypedBy
      type) ∧
    ∀ node ∈ (screening.compile
        (.ofList [("film", "/film.mp4"), ("still", "/still.jpg")])).graph.nodes,
      ∀ slot stream, Pad.input slot stream ∈ node.inputs →
        (screening.compile (.ofList [("film", "/film.mp4"), ("still", "/still.jpg")])).Supplies
          screening ⟨slot, stream⟩ := by
  have hvalid : screening.validate = .ok () := rfl
  exact ⟨hvalid, typed_compile hvalid⟩

end Timeline

end Compositor
