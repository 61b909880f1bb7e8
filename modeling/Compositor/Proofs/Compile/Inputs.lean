import Compositor.Proofs.Compile.Sorting
import Mathlib.Data.List.Nodup

/-!
# The inputs of a compiled plan

The assets that clips use, without repetitions and without those that are not
declared or were not found, are the inputs of the plan in this order, so that an
input is known by its place.  If none is left, the plan shows a plain color.
-/

namespace Compositor

theorem nodup_eraseDups {α : Type} [BEq α] [LawfulBEq α] :
    ∀ items : List α, items.eraseDups.Nodup
  | [] => List.nodup_nil
  | item :: items => by
      rw [List.eraseDups_cons, List.nodup_cons]
      exact ⟨by simp [List.mem_eraseDups], nodup_eraseDups _⟩
termination_by items => items.length
decreasing_by
  have hlength := List.length_filter_le (fun other => !other == item) items
  simp only [List.length_cons]
  omega

namespace Timeline

variable (timeline : Timeline) (paths : AssetPaths)

/-- The assets of all clips, track by track. -/
def clipIds : List String := timeline.tracks.flatMap fun track => track.clips.map Clip.assetId

def boundIds : List String := timeline.clipIds.eraseDups.filter (timeline.isBound paths)

theorem referencedIds_eq : timeline.referencedIds = timeline.clipIds.eraseDups := by
  simp [referencedIds, clipIds, placements, List.map_flatMap, Function.comp_def]

theorem nodup_referencedIds : timeline.referencedIds.Nodup := nodup_eraseDups _

theorem nodup_boundIds : (timeline.boundIds paths).Nodup := (nodup_eraseDups _).filter _

theorem bound?_eq_some_iff {id : String} {bound : BoundAsset} :
    timeline.bound? paths id = some bound ↔
      ∃ asset path, timeline.assets.get? id = some asset ∧ paths.get? id = some path ∧
        bound = ⟨id, asset.kind, path⟩ := by
  simp only [bound?, Option.bind_eq_bind, Option.bind_eq_some_iff, Option.some.injEq]
  constructor
  · rintro ⟨path, hpath, asset, hasset, rfl⟩
    exact ⟨asset, path, hasset, hpath, rfl⟩
  · rintro ⟨asset, path, hasset, hpath, rfl⟩
    exact ⟨path, hpath, asset, hasset, rfl⟩

theorem map_bound? (ids : List String) :
    (ids.filterMap (timeline.bound? paths)).map some =
      (ids.filter (timeline.isBound paths)).map (timeline.bound? paths) := by
  induction ids with
  | nil => rfl
  | cons id ids ih =>
      have hsome := timeline.isSome_bound? paths id
      cases hbound : timeline.bound? paths id with
      | none =>
          rw [hbound, Option.isSome_none] at hsome
          simpa [← hsome, hbound] using ih
      | some asset =>
          rw [hbound, Option.isSome_some] at hsome
          simpa [← hsome, hbound] using ih

theorem map_boundAssets :
    (timeline.boundAssets paths).map some =
      (timeline.boundIds paths).map (timeline.bound? paths) := by
  rw [boundAssets, map_bound?, referencedIds_eq]
  rfl

theorem length_boundAssets :
    (timeline.boundAssets paths).length = (timeline.boundIds paths).length := by
  simpa using congrArg List.length (timeline.map_boundAssets paths)

theorem exists_boundAsset {slot : Nat} {id : String}
    (h : (timeline.boundIds paths)[slot]? = some id) :
    ∃ bound, (timeline.boundAssets paths)[slot]? = some bound ∧
      timeline.bound? paths id = some bound := by
  have hslot := congrArg (·[slot]?) (timeline.map_boundAssets paths)
  simp only [List.getElem?_map, h, Option.map_some] at hslot
  obtain ⟨bound, hbound, heq⟩ := Option.map_eq_some_iff.mp hslot
  exact ⟨bound, hbound, heq.symm⟩

theorem boundIds_eq_nil_iff :
    timeline.boundIds paths = [] ↔ timeline.bindings paths = [] := by
  rw [← List.length_eq_zero_iff, ← length_boundAssets, ← length_bindings,
    List.length_eq_zero_iff]

end Timeline

/-- The inputs are some assets in order, each with what was declared of it and where it was
found. -/
structure Plan.Enumerates (plan : Plan) (timeline : Timeline) (paths : AssetPaths)
    (ids : List String) : Prop where
  length_eq : plan.inputs.length = ids.length
  input : ∀ (slot : Nat) (id : String), ids[slot]? = some id → ∃ asset path,
    timeline.assets.get? id = some asset ∧ paths.get? id = some path ∧
    plan.inputs[slot]? = some (Binding.mk slot (some id)
      (if asset.kind = .image then
        .still path timeline.settings.duration timeline.settings.frameRate.perSecond
      else .file path))
  binding_of_mem : ∀ (slot : Nat) (id : String), ids[slot]? = some id →
    plan.binding? id = plan.inputs[slot]?
  binding_of_not_mem : ∀ id, id ∉ ids → plan.binding? id = none
  not_degenerate : plan.isDegenerate = false

structure Plan.IsPlain (plan : Plan) (settings : Settings) : Prop where
  inputs_eq : plan.inputs =
    [⟨0, none, .color "black" settings.canvas settings.duration settings.frameRate.perSecond⟩]
  one_node : plan.graph.nodes.length = 1
  silent : plan.outputs.audio = none
  degenerate : plan.isDegenerate = true

theorem Source.ofMedia_eq (kind : MediaKind) (path : String) (duration : Float) (rate : Nat) :
    Source.ofMedia kind path duration rate =
      if kind = .image then .still path duration rate else .file path := by
  cases kind <;> rfl

theorem find?_eq_of_nodup {inputs : List Binding} {binding : Binding} {slot : Nat}
    (hnodup : (inputs.map Binding.assetId).Nodup) (h : inputs[slot]? = some binding) :
    (inputs.find? fun other => other.assetId == binding.assetId) = some binding := by
  induction inputs generalizing slot with
  | nil => simp at h
  | cons first inputs ih =>
      obtain ⟨hfirst, hnodup⟩ := List.nodup_cons.mp hnodup
      cases slot with
      | zero =>
          simp only [List.getElem?_cons_zero, Option.some.injEq] at h
          simp [h]
      | succ slot =>
          rw [List.getElem?_cons_succ] at h
          have hne : first.assetId ≠ binding.assetId := by
            intro heq
            apply hfirst
            rw [heq]
            exact List.mem_map_of_mem (List.mem_of_getElem? h)
          rw [List.find?_cons_of_neg (by simpa using hne)]
          exact ih hnodup h

namespace Timeline

variable (timeline : Timeline) (paths : AssetPaths)

theorem map_assetId_bindings :
    (timeline.bindings paths).map Binding.assetId = (timeline.boundIds paths).map some := by
  refine List.ext_getElem? fun slot => ?_
  simp only [bindings, List.getElem?_map, List.getElem?_mapIdx, Option.map_map]
  cases hid : (timeline.boundIds paths)[slot]? with
  | none =>
      have hbound : (timeline.boundAssets paths)[slot]? = none := by
        rw [List.getElem?_eq_none_iff] at hid ⊢
        rwa [length_boundAssets]
      rw [hbound]
      rfl
  | some id =>
      obtain ⟨bound, hslot, hbound⟩ := timeline.exists_boundAsset paths hid
      rw [hslot, Option.map_some, Option.map_some, Function.comp_apply,
        timeline.bound?_eq_some paths hbound]

theorem not_degenerate_filledPlan : (timeline.filledPlan paths).isDegenerate = false := by
  have hinputs : (timeline.filledPlan paths).inputs = timeline.bindings paths := rfl
  unfold Plan.isDegenerate
  rw [hinputs]
  split
  · rename_i slot id tint canvas duration rate heq
    have hsource : (timeline.bindings paths)[0]?.map Binding.source =
        some (.color tint canvas duration rate) := by
      rw [heq]
      rfl
    simp only [bindings, List.getElem?_mapIdx, Option.map_map, Option.map_eq_some_iff] at hsource
    obtain ⟨bound, -, hbound⟩ := hsource
    rw [Function.comp_apply, Source.ofMedia_eq] at hbound
    split at hbound <;> cases hbound
  · rfl

theorem enumerates_filledPlan :
    (timeline.filledPlan paths).Enumerates timeline paths (timeline.boundIds paths) where
  length_eq := (timeline.length_bindings paths).trans (timeline.length_boundAssets paths)
  input slot id h := by
    obtain ⟨bound, hslot, hbound⟩ := timeline.exists_boundAsset paths h
    obtain ⟨asset, path, hasset, hpath, rfl⟩ := (timeline.bound?_eq_some_iff paths).mp hbound
    refine ⟨asset, path, hasset, hpath, ?_⟩
    simp only [filledPlan, bindings, List.getElem?_mapIdx, hslot, Option.map_some,
      Source.ofMedia_eq]
  binding_of_mem slot id h := by
    have hids := timeline.map_assetId_bindings paths
    have hslot := congrArg (·[slot]?) hids
    simp only [List.getElem?_map, h, Option.map_some] at hslot
    obtain ⟨binding, hbinding, hid⟩ := Option.map_eq_some_iff.mp hslot
    have hnodup : ((timeline.bindings paths).map Binding.assetId).Nodup := by
      rw [hids]
      exact (timeline.nodup_boundIds paths).map fun _ _ => Option.some.inj
    have hfind := find?_eq_of_nodup hnodup hbinding
    rw [hid] at hfind
    exact hfind.trans hbinding.symm
  binding_of_not_mem id h := by
    refine List.find?_eq_none.mpr fun binding hbinding heq => h ?_
    have hmem := List.mem_map_of_mem (f := Binding.assetId) hbinding
    rw [filledPlan, map_assetId_bindings, beq_iff_eq.mp heq] at hmem
    simpa using hmem
  not_degenerate := timeline.not_degenerate_filledPlan paths

theorem isPlain_emptyPlan : timeline.emptyPlan.IsPlain timeline.settings :=
  ⟨rfl, rfl, rfl, rfl⟩

/-- The inputs of a plan are the assets that are used, declared and found; only where there are
none, the plan shows a plain color. -/
theorem inputs_compile :
    ((timeline.boundIds paths ≠ [] ∧
        (timeline.compile paths).Enumerates timeline paths (timeline.boundIds paths)) ∨
      (timeline.boundIds paths = [] ∧ (timeline.compile paths).IsPlain timeline.settings)) ∧
    ((timeline.compile paths).isDegenerate = true ↔
      ∀ id ∈ timeline.clipIds, timeline.isBound paths id = false) := by
  have hunbound : timeline.boundIds paths = [] ↔
      ∀ id ∈ timeline.clipIds, timeline.isBound paths id = false := by
    simp [boundIds, List.filter_eq_nil_iff, List.mem_eraseDups]
  rw [← hunbound, compile]
  split
  · rename_i hempty
    have hids := (timeline.boundIds_eq_nil_iff paths).mpr (List.isEmpty_iff.mp hempty)
    exact ⟨.inr ⟨hids, timeline.isPlain_emptyPlan⟩, iff_of_true rfl hids⟩
  · rename_i hfilled
    have hids : timeline.boundIds paths ≠ [] := by
      rwa [ne_eq, boundIds_eq_nil_iff, ← List.isEmpty_iff]
    refine ⟨.inl ⟨hids, timeline.enumerates_filledPlan paths⟩, iff_of_false ?_ hids⟩
    simp [timeline.not_degenerate_filledPlan paths]

end Timeline

end Compositor
