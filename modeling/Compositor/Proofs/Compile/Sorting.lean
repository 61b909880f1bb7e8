import Compositor.Compile
import Mathlib.Data.List.Basic

/-!
# Inputs and placements

Which clips get an input, and in which order the visual and the audible ones
are wired.  A clip is bound if its asset is declared and was found; it then
reads the input that carries its asset.
-/

namespace Compositor

theorem flatMap_filter {α β : Type} (keep : α → Bool) (f : α → List β) (items : List α) :
    (items.filter keep).flatMap f = items.flatMap fun item => if keep item then f item else [] := by
  induction items with
  | nil => rfl
  | cons item items ih =>
      cases hkeep : keep item <;> simp [hkeep, ih]

namespace Timeline

variable (timeline : Timeline) (paths : AssetPaths)

def isBound (id : String) : Bool :=
  (timeline.assets.get? id).isSome && (paths.get? id).isSome

theorem bound?_eq_some {id : String} {asset : BoundAsset}
    (h : timeline.bound? paths id = some asset) : asset.id = id := by
  simp only [bound?, Option.bind_eq_bind, Option.bind_eq_some_iff, Option.some.injEq] at h
  obtain ⟨_, _, _, _, rfl⟩ := h
  rfl

theorem isSome_bound? (id : String) :
    (timeline.bound? paths id).isSome = timeline.isBound paths id := by
  simp only [bound?, isBound, Option.bind_eq_bind]
  cases paths.get? id <;> cases timeline.assets.get? id <;> rfl

theorem mem_referencedIds {track : Track} (htrack : track ∈ timeline.tracks)
    {clip : Clip Float} (hclip : clip ∈ track.clips) :
    clip.assetId ∈ timeline.referencedIds := by
  have hplacement : (track, clip) ∈ timeline.placements :=
    List.mem_flatMap.mpr ⟨track, htrack, List.mem_map_of_mem hclip⟩
  exact List.mem_eraseDups.mpr
    (List.mem_map_of_mem (f := fun placement => placement.2.assetId) hplacement)

@[simp] theorem length_bindings :
    (timeline.bindings paths).length = (timeline.boundAssets paths).length := by
  simp [bindings]

theorem bindings_eq_nil_iff :
    timeline.bindings paths = [] ↔
      ∀ id ∈ timeline.referencedIds, timeline.isBound paths id = false := by
  simp only [bindings, List.mapIdx_eq_nil_iff, boundAssets, List.filterMap_eq_nil_iff,
    ← isSome_bound?, Option.isSome_eq_false_iff, Option.isNone_iff_eq_none]

theorem slot?_lt {id : String} {slot : Nat} (h : timeline.slot? paths id = some slot) :
    slot < (timeline.bindings paths).length := by
  rw [length_bindings]
  exact (List.findIdx?_eq_some_iff_findIdx_eq.mp h).1

theorem exists_input_of_slot? {id : String} {slot : Nat}
    (h : timeline.slot? paths id = some slot) :
    ∃ source, (timeline.bindings paths)[slot]? = some ⟨slot, some id, source⟩ := by
  obtain ⟨hlt, hid, -⟩ := List.findIdx?_eq_some_iff_getElem.mp h
  simp [bindings, List.getElem?_eq_getElem hlt, beq_iff_eq.mp hid]

theorem isSome_slot? {id : String} (h : id ∈ timeline.referencedIds) :
    (timeline.slot? paths id).isSome = timeline.isBound paths id := by
  rw [slot?, List.findIdx?_isSome, Bool.eq_iff_iff, List.any_eq_true, ← isSome_bound?]
  constructor
  · rintro ⟨asset, hasset, heq⟩
    obtain ⟨other, -, hother⟩ := List.mem_filterMap.mp hasset
    have : other = id := by
      rw [← timeline.bound?_eq_some paths hother]
      simpa using heq
    simp [← this, hother]
  · intro hbound
    obtain ⟨asset, hasset⟩ := Option.isSome_iff_exists.mp hbound
    exact ⟨asset, List.mem_filterMap.mpr ⟨id, h, hasset⟩, by
      simp [timeline.bound?_eq_some paths hasset]⟩

theorem find?_mapIdx_slot (source : BoundAsset → Source) (start : Nat) (id : String)
    (assets : List BoundAsset) :
    ((assets.mapIdx fun slot asset => Binding.mk (start + slot) (some asset.id)
        (source asset)).find? fun binding => binding.assetId == some id).map Binding.slot =
      (assets.findIdx? fun asset => asset.id == id).map (start + ·) := by
  induction assets generalizing start with
  | nil => rfl
  | cons asset assets ih =>
      rw [List.mapIdx_cons, List.find?_cons, List.findIdx?_cons]
      cases hid : asset.id == id with
      | true => simp [hid]
      | false =>
          have hrest := ih (start + 1)
          simp only [Nat.add_assoc, Nat.add_comm 1] at hrest
          simp [hid, hrest, Function.comp_def]

theorem slot_find?_bindings (id : String) :
    ((timeline.bindings paths).find? fun binding => binding.assetId == some id).map
      Binding.slot = timeline.slot? paths id := by
  have h := find?_mapIdx_slot (fun asset => .ofMedia asset.kind asset.path
    timeline.settings.duration timeline.settings.frameRate.perSecond) 0 id
    (timeline.boundAssets paths)
  simpa [bindings, slot?] using h

end Timeline

def Track.isVisual (track : Track) : Bool := track.kind.isVisual

def Track.isAudible (track : Track) : Bool := !track.kind.isVisual && !track.muted

def Track.isMuted (track : Track) : Bool := !track.kind.isVisual && track.muted

def Timeline.boundClips (timeline : Timeline) (paths : AssetPaths) (isKept : Track → Bool) :
    List (Track × Clip Float) :=
  (timeline.tracks.filter isKept).flatMap fun track =>
    (track.clips.filter fun clip => timeline.isBound paths clip.assetId).map (track, ·)

def Placement.item (placement : Placement) : Track × Clip Float :=
  (placement.track, placement.clip)

namespace Sorting

def place? (isKept : Track → Bool) (slot? : String → Option Nat) (item : Track × Clip Float) :
    Option Placement :=
  if isKept item.1 then (slot? item.2.assetId).map (⟨item.1, item.2, ·⟩) else none

variable (slot? : String → Option Nat)

theorem place?_eq_some {isKept : Track → Bool} {slot? : String → Option Nat}
    {item : Track × Clip Float} {placement : Placement}
    (h : place? isKept slot? item = some placement) :
    slot? placement.clip.assetId = some placement.slot := by
  simp only [place?, Option.ite_none_right_eq_some, Option.map_eq_some_iff] at h
  obtain ⟨-, slot, hslot, rfl⟩ := h
  exact hslot

theorem visual_add (sorting : Sorting) (item : Track × Clip Float) :
    (sorting.add slot? item).visual =
      sorting.visual ++ (place? Track.isVisual slot? item).toList := by
  obtain ⟨track, clip⟩ := item
  cases hslot : slot? clip.assetId <;> cases hkind : track.kind <;> cases hmuted : track.muted <;>
    simp [add, place?, hslot, hkind, hmuted, Track.isVisual, MediaKind.isVisual]

theorem audible_add (sorting : Sorting) (item : Track × Clip Float) :
    (sorting.add slot? item).audible =
      sorting.audible ++ (place? Track.isAudible slot? item).toList := by
  obtain ⟨track, clip⟩ := item
  cases hslot : slot? clip.assetId <;> cases hkind : track.kind <;> cases hmuted : track.muted <;>
    simp [add, place?, hslot, hkind, hmuted, Track.isAudible, MediaKind.isVisual]

/-- What one clip adds to a part of the sorting, all clips add in order. -/
theorem foldl_add {part : Sorting → List Placement} {isKept : Track → Bool}
    (hadd : ∀ sorting item, part (sorting.add slot? item) =
      part sorting ++ (place? isKept slot? item).toList)
    (sorting : Sorting) (items : List (Track × Clip Float)) :
    part (items.foldl (add slot?) sorting) =
      part sorting ++ items.filterMap (place? isKept slot?) := by
  induction items generalizing sorting with
  | nil => simp
  | cons item items ih =>
      rw [List.foldl_cons, ih, hadd, List.filterMap_cons]
      cases place? isKept slot? item <;> simp

def isUnbound (item : Track × Clip Float) : Bool := (slot? item.2.assetId).isNone

def isSilenced (item : Track × Clip Float) : Bool :=
  item.1.isMuted && (slot? item.2.assetId).isSome

theorem unbound_add (sorting : Sorting) (item : Track × Clip Float) :
    (sorting.add slot? item).unbound =
      sorting.unbound + if isUnbound slot? item then 1 else 0 := by
  obtain ⟨track, clip⟩ := item
  cases hslot : slot? clip.assetId <;> cases hkind : track.kind <;> cases hmuted : track.muted <;>
    simp [add, isUnbound, hslot, hkind, hmuted]

theorem muted_add (sorting : Sorting) (item : Track × Clip Float) :
    (sorting.add slot? item).muted =
      sorting.muted + if isSilenced slot? item then 1 else 0 := by
  obtain ⟨track, clip⟩ := item
  cases hslot : slot? clip.assetId <;> cases hkind : track.kind <;> cases hmuted : track.muted <;>
    simp [add, isSilenced, Track.isMuted, MediaKind.isVisual, hslot, hkind, hmuted]

theorem foldl_add_count {part : Sorting → Nat} {isCounted : Track × Clip Float → Bool}
    (hadd : ∀ sorting item, part (sorting.add slot? item) =
      part sorting + if isCounted item then 1 else 0)
    (sorting : Sorting) (items : List (Track × Clip Float)) :
    part (items.foldl (add slot?) sorting) = part sorting + items.countP isCounted := by
  induction items generalizing sorting with
  | nil => simp
  | cons item items ih =>
      rw [List.foldl_cons, ih, hadd, List.countP_cons]
      omega

end Sorting

namespace Timeline

variable (timeline : Timeline) (paths : AssetPaths)

def placed (isKept : Track → Bool) : List Placement :=
  timeline.placements.filterMap (Sorting.place? isKept (timeline.slot? paths))

theorem visual_sort : (timeline.sort paths).visual = timeline.placed paths Track.isVisual :=
  Sorting.foldl_add _ (Sorting.visual_add _) _ _

theorem audible_sort : (timeline.sort paths).audible = timeline.placed paths Track.isAudible :=
  Sorting.foldl_add _ (Sorting.audible_add _) _ _

theorem unbound_sort :
    (timeline.sort paths).unbound =
      timeline.placements.countP (Sorting.isUnbound (timeline.slot? paths)) :=
  (Sorting.foldl_add_count _ (Sorting.unbound_add _) _ _).trans (Nat.zero_add _)

theorem muted_sort :
    (timeline.sort paths).muted =
      timeline.placements.countP (Sorting.isSilenced (timeline.slot? paths)) :=
  (Sorting.foldl_add_count _ (Sorting.muted_add _) _ _).trans (Nat.zero_add _)

theorem slot?_of_mem_placed {isKept : Track → Bool} {placement : Placement}
    (h : placement ∈ timeline.placed paths isKept) :
    timeline.slot? paths placement.clip.assetId = some placement.slot := by
  obtain ⟨item, -, hitem⟩ := List.mem_filterMap.mp h
  exact Sorting.place?_eq_some hitem

theorem slot_lt_of_mem_uses {source : InputStream}
    (h : source ∈ (timeline.sort paths).uses) :
    source.slot < (timeline.bindings paths).length := by
  simp only [Sorting.uses, visual_sort, audible_sort, List.mem_append, List.mem_map] at h
  rcases h with ⟨placement, hplacement, rfl⟩ | ⟨placement, hplacement, rfl⟩ <;>
    exact timeline.slot?_lt paths (timeline.slot?_of_mem_placed paths hplacement)

theorem mem_placements_of_placed {isKept : Track → Bool} {placement : Placement}
    (h : placement ∈ timeline.placed paths isKept) : placement.item ∈ timeline.placements := by
  obtain ⟨item, hitem, hplace⟩ := List.mem_filterMap.mp h
  simp only [Sorting.place?, Option.ite_none_right_eq_some, Option.map_eq_some_iff] at hplace
  obtain ⟨-, slot, -, rfl⟩ := hplace
  exact hitem

theorem map_item_place? (isKept : Track → Bool) {track : Track} {clips : List (Clip Float)}
    (hclips : ∀ clip ∈ clips, clip.assetId ∈ timeline.referencedIds)
    (hkept : isKept track = true) :
    ((clips.map (track, ·)).filterMap
        (Sorting.place? isKept (timeline.slot? paths))).map Placement.item =
      (clips.filter fun clip => timeline.isBound paths clip.assetId).map (track, ·) := by
  induction clips with
  | nil => rfl
  | cons clip clips ih =>
      have hbound := timeline.isSome_slot? paths (hclips clip (by simp))
      have hrest := ih fun other hother => hclips other (by simp [hother])
      cases hslot : timeline.slot? paths clip.assetId with
      | none =>
          rw [hslot, Option.isSome_none] at hbound
          simpa [Sorting.place?, hkept, hslot, ← hbound, List.filterMap_cons] using hrest
      | some slot =>
          rw [hslot, Option.isSome_some] at hbound
          simpa [Sorting.place?, hkept, hslot, ← hbound, List.filterMap_cons,
            Placement.item] using hrest

theorem map_item_placed (isKept : Track → Bool) :
    (timeline.placed paths isKept).map Placement.item = timeline.boundClips paths isKept := by
  rw [placed, placements, boundClips, flatMap_filter, List.filterMap_flatMap, List.map_flatMap]
  refine List.flatMap_congr fun track htrack => ?_
  split
  · rename_i hkept
    exact timeline.map_item_place? paths isKept
      (fun clip hclip => timeline.mem_referencedIds htrack hclip) hkept
  · rename_i hdropped
    simp [Sorting.place?, hdropped, List.filterMap_map]

theorem boundClips_eq_nil_iff {isKept : Track → Bool} :
    timeline.boundClips paths isKept = [] ↔
      ∀ track ∈ timeline.tracks, isKept track = true →
        ∀ clip ∈ track.clips, timeline.isBound paths clip.assetId = false := by
  simp only [boundClips, List.flatMap_eq_nil_iff, List.mem_filter, List.map_eq_nil_iff,
    List.filter_eq_nil_iff, Bool.not_eq_true, and_imp]

theorem boundClips_eq_nil (h : timeline.bindings paths = []) (isKept : Track → Bool) :
    timeline.boundClips paths isKept = [] :=
  (timeline.boundClips_eq_nil_iff paths).mpr fun _ htrack _ _ hclip =>
    (timeline.bindings_eq_nil_iff paths).mp h _ (timeline.mem_referencedIds htrack hclip)

end Timeline

/-- Placements of clips, each with the input of the plan that carries its asset. -/
structure Plan.Places (plan : Plan) (clips : List (Track × Clip Float))
    (placements : List Placement) : Prop where
  items : placements.map Placement.item = clips
  slots : ∀ placement ∈ placements,
    (plan.binding? placement.clip.assetId).map Binding.slot = some placement.slot

namespace Timeline

variable (timeline : Timeline) (paths : AssetPaths)

theorem places_placed (isKept : Track → Bool) :
    (timeline.filledPlan paths).Places (timeline.boundClips paths isKept)
      (timeline.placed paths isKept) where
  items := timeline.map_item_placed paths isKept
  slots placement hplacement := by
    rw [← timeline.slot?_of_mem_placed paths hplacement]
    exact timeline.slot_find?_bindings paths placement.clip.assetId

theorem compile_of_isBound {id : String} (hused : id ∈ timeline.referencedIds)
    (hbound : timeline.isBound paths id = true) :
    timeline.compile paths = timeline.filledPlan paths := by
  have hinputs : timeline.bindings paths ≠ [] := fun h => by
    rw [(timeline.bindings_eq_nil_iff paths).mp h id hused] at hbound
    exact Bool.noConfusion hbound
  simp [compile, hinputs]

end Timeline

end Compositor
