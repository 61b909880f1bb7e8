import Compositor.Proofs.Compile.Feeding
import Compositor.Proofs.Compile.Linear

/-!
# The picture of a compiled graph

Followed back from its output, the picture is the plain canvas with the visual
clips whose assets are bound laid over it, one after the other in the order in
which they are declared, each read from the input of its own asset.
-/

namespace Compositor

namespace Signal

def canvas (settings : Settings) : Signal :=
  .filtered [.color "black" settings.canvas settings.duration settings.frameRate.perSecond] []

/-- A clip fills the canvas; soft transitions need alpha and fade in and out. -/
def layer (canvas : Canvas) (clip : Clip Float) (slot : Nat) : Signal :=
  let ramp := rampLength clip.duration
  let ramps := if clip.transition = .fade ∨ clip.transition = .dissolve then
      [.format "yuva420p", .fade .into clip.start ramp,
        .fade .out (clip.start + clip.duration - ramp) ramp]
    else []
  .filtered ([.scaleCover canvas, .centerCrop canvas, .squarePixels] ++ ramps)
    [.source slot .video]

/-- A clip is laid over what is under it for as long as it lasts. -/
def overlaid (canvas : Canvas) (under : Signal) (placement : Placement) : Signal :=
  let clip := placement.clip
  let slide := if clip.transition = .wipe then
      .slideIn clip.start (rampLength clip.duration)
    else .fixed
  .filtered [.overlay slide ⟨clip.start, clip.start + clip.duration⟩]
    [under, layer canvas clip placement.slot]

def stack (settings : Settings) (visual : List Placement) : Signal :=
  visual.foldl (overlaid settings.canvas) (canvas settings)

def picture (settings : Settings) (visual : List Placement) : Signal :=
  .filtered [.format "yuv420p"] [stack settings visual]

end Signal

@[simp] theorem isSplit_layerNode (canvas : Canvas) (index : Nat) (clip : Clip Float)
    (pad : Pad) : (layerNode canvas index clip pad).isSplit = false := rfl

@[simp] theorem isSplit_overlayNode (index : Nat) (clip : Clip Float) (picture : Label) :
    (overlayNode index clip picture).isSplit = false := rfl

theorem layer_eq (canvas : Canvas) (clip : Clip Float) (slot : Nat) :
    Signal.layer canvas clip slot =
      .filtered (clip.layerChain canvas) [.source slot .video] := by
  cases htransition : clip.transition <;>
    simp [Signal.layer, Clip.layerChain, Clip.ramps, htransition, alphaPixels]

theorem overlaid_eq (canvas : Canvas) (under : Signal) (placement : Placement) :
    Signal.overlaid canvas under placement =
      .filtered [.overlay placement.clip.slide placement.clip.window]
        [under, .layer canvas placement.clip placement.slot] := by
  cases htransition : placement.clip.transition <;>
    simp [Signal.overlaid, Clip.slide, Clip.window, Window.ofDuration, htransition]

namespace Wiring

theorem carries_addLayer {settings : Settings} {visual : List Placement} {wiring : Wiring}
    (hfeeds : wiring.fanout.Feeds wiring.nodes)
    (hpicture : Carries wiring.nodes (.link wiring.picture) (.stack settings visual))
    (placement : Placement) (index : Nat)
    (hnodup : (produced (wiring.addLayer settings.canvas (placement, index)).nodes).Nodup) :
    Carries (wiring.addLayer settings.canvas (placement, index)).nodes
      (.link (Edge.overlay index).label) (.stack settings (visual ++ [placement])) := by
  let pad := (wiring.fanout.take ⟨placement.slot, .video⟩).1
  let layered := wiring.nodes ++ [layerNode settings.canvas index placement.clip pad]
  let last := overlayNode index placement.clip wiring.picture
  have hnodes : (wiring.addLayer settings.canvas (placement, index)).nodes =
      layered ++ [last] := by
    simp [addLayer, layered, last, pad]
  rw [hnodes] at hnodup ⊢
  have hlayered : (produced layered).Nodup := by
    rw [produced_append] at hnodup
    exact (List.nodup_append'.mp hnodup).1
  have hlayer : Carries layered (.link (Edge.layer index).label)
      (.layer settings.canvas placement.clip placement.slot) := by
    rw [layer_eq]
    exact .concat hlayered (.cons (hfeeds.carries_take _) .nil) (by simp [layerNode])
  rw [Signal.stack, List.foldl_append, List.foldl_cons, List.foldl_nil, overlaid_eq]
  exact .concat hnodup (.cons hpicture.append (.cons hlayer .nil)) (by simp [last, overlayNode])

theorem carries_addLayers (settings : Settings) (inputs : Nat) (uses : List InputStream)
    (hslots : ∀ source ∈ uses, source.slot < inputs) (visual : List Placement) :
    Carries ((start settings inputs uses).addLayers settings.canvas visual).nodes
      (.link ((start settings inputs uses).addLayers settings.canvas visual).picture)
      (.stack settings visual) := by
  induction visual using List.reverseRecOn with
  | nil =>
      exact .concat (nodup_addLayers settings inputs uses settings.canvas []) .nil
        (by simp [baseNode, start])
  | append_singleton visual placement ih =>
      have hnodup := nodup_addLayers settings inputs uses settings.canvas (visual ++ [placement])
      have hfeeds := feeds_addLayers (feeds_start settings inputs uses hslots) settings.canvas
        visual
      rw [addLayers_concat] at hnodup ⊢
      exact carries_addLayer hfeeds ih placement visual.length hnodup

theorem carries_picture_addVoices {wiring : Wiring} {signal : Signal}
    (h : Carries wiring.nodes (.link wiring.picture) signal) (audible : List Placement) :
    Carries (wiring.addVoices audible).nodes (.link (wiring.addVoices audible).picture)
      signal := by
  induction audible using List.reverseRecOn with
  | nil => exact h
  | append_singleton audible placement ih =>
      rw [addVoices_concat]
      exact ih.append

theorem carries_graph_picture {settings : Settings} {visual : List Placement} {wiring : Wiring}
    (h : Carries wiring.nodes (.link wiring.picture) (.stack settings visual))
    (hnodup : (produced wiring.graph.nodes).Nodup) :
    Carries wiring.graph.nodes (.link wiring.outputs.video) (.picture settings visual) :=
  .concat hnodup (.cons h.append .nil) (by simp [finalNode, outputs])

end Wiring

namespace Timeline

variable (timeline : Timeline) (paths : AssetPaths)

theorem picture_filledPlan :
    (timeline.filledPlan paths).graph.signal? (.link (timeline.filledPlan paths).outputs.video) =
      some (.picture timeline.settings (timeline.placed paths Track.isVisual)) := by
  have hlayers := Wiring.carries_addLayers timeline.settings (timeline.bindings paths).length
    (timeline.sort paths).uses (fun _ => timeline.slot_lt_of_mem_uses paths)
    (timeline.sort paths).visual
  have hvoices := Wiring.carries_picture_addVoices hlayers (timeline.sort paths).audible
  rw [← visual_sort]
  exact Wiring.carries_graph_picture hvoices (timeline.nodup_filledPlan paths)

/-- The picture is the stack of the visual clips whose assets are bound. -/
theorem picture_compile
    (h : ∃ id ∈ timeline.referencedIds, timeline.isBound paths id = true) :
    ∃ visual : List Placement,
      (timeline.compile paths).Places (timeline.boundClips paths Track.isVisual) visual ∧
      (timeline.compile paths).graph.signal?
          (.link (timeline.compile paths).outputs.video) =
        some (.picture timeline.settings visual) := by
  obtain ⟨id, hused, hbound⟩ := h
  rw [timeline.compile_of_isBound paths hused hbound]
  exact ⟨_, timeline.places_placed paths Track.isVisual, timeline.picture_filledPlan paths⟩

/-- Two clips share an asset, and a third between them has none. -/
def sharing : Timeline where
  tracks :=
    [⟨"t", .video, "", [⟨"c", "a", "t", 0.0, 1.0, 1.0, 0.0, 0.0, .cut⟩,
      ⟨"d", "b", "t", 0.0, 1.0, 1.0, 0.0, 0.0, .cut⟩,
      ⟨"e", "a", "t", 1.0, 1.0, 1.0, 0.0, 0.0, .fade⟩], false, 1.0⟩]
  settings := .default "x" 2.0
  assets := Table.empty.insert "a" (.plain .video "a.mp4")

theorem picture_compile_sharing :
    (∃ id ∈ sharing.referencedIds,
      sharing.isBound (Table.empty.insert "a" "/a.mp4") id = true) ∧
    ∃ visual : List Placement,
      (sharing.compile (Table.empty.insert "a" "/a.mp4")).Places
        (sharing.boundClips (Table.empty.insert "a" "/a.mp4") Track.isVisual) visual ∧
      (sharing.compile (Table.empty.insert "a" "/a.mp4")).graph.signal?
          (.link (sharing.compile (Table.empty.insert "a" "/a.mp4")).outputs.video) =
        some (.picture sharing.settings visual) :=
  ⟨⟨"a", by decide, by decide⟩, sharing.picture_compile _ ⟨"a", by decide, by decide⟩⟩

end Timeline

end Compositor
