import Compositor.Proofs.Compile.Wiring
import Compositor.Proofs.Plan.Signal

/-!
# What the fan-out hands out

Each branch carries the stream that it was split from, so that a reader gets
the stream that it asks for, whether it reads a branch or the input itself.
-/

namespace Compositor

namespace InputStream

def signal (source : InputStream) : Signal := .source source.slot source.stream

@[simp] theorem isSplit_splitNode (source : InputStream) (count : Nat) :
    (source.splitNode count).isSplit = true := by
  obtain ⟨slot, stream⟩ := source
  cases stream <;> rfl

@[simp] theorem outputs_splitNode (source : InputStream) (count : Nat) :
    (source.splitNode count).outputs = source.branches count := rfl

end InputStream

namespace Fanout

/-- The branches that are left carry the streams that they were split from. -/
def Feeds (fanout : Fanout) (nodes : List Node) : Prop :=
  ∀ source, ∀ label ∈ fanout.pending source, Carries nodes (.link label) source.signal

namespace Feeds

variable {fanout : Fanout} {nodes more : List Node}

theorem append (h : fanout.Feeds nodes) : fanout.Feeds (nodes ++ more) :=
  fun source label hlabel => (h source label hlabel).append

theorem carries_take (h : fanout.Feeds nodes) (source : InputStream) :
    Carries nodes (fanout.take source).1 source.signal := by
  cases hpending : fanout.pending source with
  | nil =>
      rw [take_of_pending_nil hpending]
      exact .input nodes source.slot source.stream
  | cons label labels =>
      rw [take_of_pending_cons hpending]
      exact h source label (by simp [hpending])

theorem take (h : fanout.Feeds nodes) (source : InputStream) :
    (fanout.take source).2.Feeds nodes := by
  cases hpending : fanout.pending source with
  | nil => rwa [take_of_pending_nil hpending]
  | cons label labels =>
      rw [take_of_pending_cons hpending]
      intro other branch hbranch
      rcases eq_or_ne other source with rfl | hne
      · simp only [if_pos] at hbranch
        exact h other branch (by simp [hpending, hbranch])
      · simp only [if_neg hne] at hbranch
        exact h other branch hbranch

end Feeds

end Fanout

namespace Wiring

section Nodup

variable (settings : Settings) (inputs : Nat) (uses : List InputStream)

theorem nodup_addLayers (canvas : Canvas) (visual : List Placement) :
    (produced ((start settings inputs uses).addLayers canvas visual).nodes).Nodup := by
  have hall := nodup_allEdges inputs uses visual.length 0
  simp only [allEdges, List.append_assoc] at hall
  rw [produced_addLayers, produced_start, ← List.map_append]
  rw [← List.append_assoc] at hall
  exact (hall.sublist (List.sublist_append_left _ _)).map Edge.label_injective

theorem nodup_addVoices (canvas : Canvas) (visual audible : List Placement) :
    (produced (((start settings inputs uses).addLayers canvas visual).addVoices
      audible).nodes).Nodup := by
  have hall := nodup_allEdges inputs uses visual.length audible.length
  rw [produced_addVoices, produced_addLayers, produced_start, ← List.map_append,
    ← List.map_append]
  exact (hall.sublist (List.sublist_append_left _ _)).map Edge.label_injective

theorem feeds_start (hslots : ∀ source ∈ uses, source.slot < inputs) :
    (start settings inputs uses).fanout.Feeds (start settings inputs uses).nodes := by
  intro source label hlabel
  have hnodup := nodup_addLayers settings inputs uses settings.canvas []
  rcases Nat.lt_or_ge (uses.count source) 2 with hsole | hshared
  · rw [start, Fanout.pending_ofUses_of_sole hsole] at hlabel
    cases hlabel
  · have hmem : source ∈ sharedStreams inputs uses := by
      refine List.mem_filter.mpr ⟨mem_inputStreams.mpr (hslots source ?_), by simpa using hshared⟩
      exact List.count_pos_iff.mp (by omega)
    have hnode : source.splitNode (uses.count source) ∈ (start settings inputs uses).nodes :=
      List.mem_append_left _ (List.mem_map_of_mem hmem)
    refine .branch hnodup hnode rfl (source.isSplit_splitNode _) ?_
    rw [start, Fanout.pending_ofUses_of_shared hshared] at hlabel
    exact hlabel

end Nodup

theorem feeds_addLayers {wiring : Wiring} (h : wiring.fanout.Feeds wiring.nodes)
    (canvas : Canvas) (visual : List Placement) :
    (wiring.addLayers canvas visual).fanout.Feeds (wiring.addLayers canvas visual).nodes := by
  induction visual using List.reverseRecOn with
  | nil => exact h
  | append_singleton visual placement ih =>
      rw [addLayers_concat]
      exact (ih.take _).append

theorem feeds_addVoices {wiring : Wiring} (h : wiring.fanout.Feeds wiring.nodes)
    (audible : List Placement) :
    (wiring.addVoices audible).fanout.Feeds (wiring.addVoices audible).nodes := by
  induction audible using List.reverseRecOn with
  | nil => exact h
  | append_singleton audible placement ih =>
      rw [addVoices_concat]
      exact (ih.take _).append

end Wiring

end Compositor
