import Compositor.Proofs.Compile.Essence
import Compositor.Proofs.Compile.Inputs
import Compositor.Proofs.Table
import Mathlib.Data.Set.Function

/-!
# Renaming assets

Other names for the assets may put the tables into another order.  The plan is
the same, since assets are only looked up and told apart, in the order in which
clips use them first.  Only the bindings keep the names.
-/

namespace Compositor

namespace Table

variable {α : Type} {rename : String → String} {names : Set String}

def renamed (rename : String → String) (table : Table α) : Table α :=
  .ofList (table.entries.map fun entry => (rename entry.1, entry.2))

theorem get?_foldl_renamed (hrename : Set.InjOn rename names) {id : String} (hid : id ∈ names)
    {pairs : List (String × α)} (hpairs : ∀ pair ∈ pairs, pair.1 ∈ names)
    (hkeys : (pairs.map Prod.fst).Nodup) (table : Table α) :
    ((pairs.map fun pair => (rename pair.1, pair.2)).foldl
        (fun table pair => table.insert pair.1 pair.2) table).get? (rename id) =
      (pairs.lookup id).or (table.get? (rename id)) := by
  induction pairs generalizing table with
  | nil => rfl
  | cons pair pairs ih =>
      obtain ⟨key, value⟩ := pair
      obtain ⟨hkey, hpairs⟩ := List.forall_mem_cons.mp hpairs
      obtain ⟨hfirst, hkeys⟩ := List.nodup_cons.mp hkeys
      have hsame : rename id = rename key ↔ id = key := hrename.eq_iff hid hkey
      rw [List.map_cons, List.foldl_cons, ih hpairs hkeys, get?_insert, List.lookup_cons]
      by_cases heq : id = key
      · have hnone : pairs.lookup id = none := by
          rw [List.lookup_eq_none_iff]
          rintro pair hpair
          rw [bne_iff_ne, heq]
          intro hkey
          exact hfirst (List.mem_map.mpr ⟨pair, hpair, hkey.symm⟩)
        simp [heq, heq ▸ hnone]
      · simp [hsame, heq, beq_eq_false_iff_ne.mpr heq]

theorem nodup_keys (table : Table α) : table.keys.Nodup := by
  rw [keys, List.nodup_iff_pairwise_ne, List.pairwise_map]
  refine table.sorted.imp fun {first second} hlt heq => ?_
  rw [heq] at hlt
  exact Std.lt_irrefl hlt

theorem get?_renamed (hrename : Set.InjOn rename names) {table : Table α}
    (hkeys : ∀ key ∈ table.keys, key ∈ names) {id : String} (hid : id ∈ names) :
    (table.renamed rename).get? (rename id) = table.get? id := by
  have hpairs : ∀ pair ∈ table.entries, pair.1 ∈ names := fun pair hpair =>
    hkeys pair.1 (List.mem_map_of_mem hpair)
  have h := get?_foldl_renamed hrename hid hpairs table.nodup_keys empty
  have hnone : (empty : Table α).get? (rename id) = none := rfl
  rwa [hnone, Option.or_none] at h

end Table

theorem eraseDups_map {α β : Type} [BEq α] [LawfulBEq α] [BEq β] [LawfulBEq β] {f : α → β}
    {names : Set α} (hf : Set.InjOn f names) :
    ∀ items : List α, (∀ item ∈ items, item ∈ names) →
      (items.map f).eraseDups = items.eraseDups.map f
  | [], _ => rfl
  | item :: items, hitems => by
      obtain ⟨hitem, hitems⟩ := List.forall_mem_cons.mp hitems
      have hfilter : (items.map f).filter (fun other => !other == f item) =
          (items.filter fun other => !other == item).map f := by
        rw [List.filter_map]
        congr 1
        refine List.filter_congr fun other hother => ?_
        have hsame := hf.eq_iff (hitems other hother) hitem
        rw [Function.comp_apply, Bool.eq_iff_iff]
        simp [hsame]
      have hrest := eraseDups_map hf (items.filter fun other => !other == item)
        fun other hother => hitems other (List.mem_of_mem_filter hother)
      rw [List.map_cons, List.eraseDups_cons, List.eraseDups_cons, List.map_cons, hfilter, hrest]
termination_by items => items.length
decreasing_by
  have hlength := List.length_filter_le (fun other => !other == item) items
  simp only [List.length_cons]
  omega

theorem findIdx?_congr {α : Type} {first second : α → Bool} {items : List α}
    (h : ∀ item ∈ items, first item = second item) :
    items.findIdx? first = items.findIdx? second := by
  induction items with
  | nil => rfl
  | cons item items ih =>
      obtain ⟨hitem, hitems⟩ := List.forall_mem_cons.mp h
      rw [List.findIdx?_cons, List.findIdx?_cons, hitem, ih hitems]

def Clip.renamed (rename : String → String) (clip : Clip Float) : Clip Float :=
  { clip with assetId := rename clip.assetId }

def Track.renamed (rename : String → String) (track : Track) : Track :=
  { track with clips := track.clips.map (Clip.renamed rename) }

def Timeline.renamed (rename : String → String) (timeline : Timeline) : Timeline :=
  { timeline with
    tracks := timeline.tracks.map (Track.renamed rename)
    assets := timeline.assets.renamed rename }

def BoundAsset.renamed (rename : String → String) (asset : BoundAsset) : BoundAsset :=
  { asset with id := rename asset.id }

def Binding.renamed (rename : String → String) (binding : Binding) : Binding :=
  { binding with assetId := binding.assetId.map rename }

def Plan.renamed (rename : String → String) (plan : Plan) : Plan :=
  { plan with inputs := plan.inputs.map (Binding.renamed rename) }

/-- The engine is told nothing of the names. -/
@[simp] theorem Plan.arguments_renamed (rename : String → String) (plan : Plan)
    (output : String) : (plan.renamed rename).arguments output = plan.arguments output := by
  simp only [arguments, renamed, List.flatMap_map, Binding.renamed]
  rfl

@[simp] theorem Plan.fingerprint_renamed (rename : String → String) (plan : Plan) :
    (plan.renamed rename).fingerprint = plan.fingerprint := by
  rw [fingerprint, fingerprint, arguments_renamed]

namespace Timeline

def assetNames (timeline : Timeline) (paths : AssetPaths) : List String :=
  timeline.clipIds ++ timeline.assets.keys ++ paths.keys

variable {timeline : Timeline} {paths : AssetPaths} {rename : String → String}

theorem placements_renamed :
    (timeline.renamed rename).placements =
      timeline.placements.map fun item => (item.1.renamed rename, item.2.renamed rename) := by
  simp [placements, renamed, Track.renamed, List.flatMap_map, List.map_flatMap,
    Function.comp_def]

theorem clipIds_renamed : (timeline.renamed rename).clipIds = timeline.clipIds.map rename := by
  simp [clipIds, renamed, Track.renamed, Clip.renamed, List.flatMap_map, List.map_flatMap,
    Function.comp_def]

@[simp] theorem clipCount_renamed : (timeline.renamed rename).clipCount = timeline.clipCount := by
  rw [← length_placements, ← length_placements, placements_renamed, List.length_map]

theorem mem_assetNames {id : String} (hid : id ∈ timeline.clipIds) :
    id ∈ timeline.assetNames paths :=
  List.mem_append_left _ (List.mem_append_left _ hid)

section Lookups

variable (hrename : Set.InjOn rename {id | id ∈ timeline.assetNames paths})

include hrename

theorem referencedIds_renamed :
    (timeline.renamed rename).referencedIds = timeline.referencedIds.map rename := by
  rw [referencedIds_eq, referencedIds_eq, clipIds_renamed]
  exact eraseDups_map hrename _ fun id hid => mem_assetNames hid

theorem bound?_renamed {id : String} (hid : id ∈ timeline.assetNames paths) :
    (timeline.renamed rename).bound? (paths.renamed rename) (rename id) =
      (timeline.bound? paths id).map (BoundAsset.renamed rename) := by
  have hassets : (timeline.assets.renamed rename).get? (rename id) = timeline.assets.get? id :=
    Table.get?_renamed hrename
      (fun key hkey => List.mem_append_left _ (List.mem_append_right _ hkey)) hid
  have hpaths : (paths.renamed rename).get? (rename id) = paths.get? id :=
    Table.get?_renamed hrename (fun key hkey => List.mem_append_right _ hkey) hid
  simp only [bound?, renamed, hassets, hpaths, Option.bind_eq_bind]
  cases paths.get? id with
  | none => rfl
  | some path => cases timeline.assets.get? id <;> rfl

theorem boundAssets_renamed :
    (timeline.renamed rename).boundAssets (paths.renamed rename) =
      (timeline.boundAssets paths).map (BoundAsset.renamed rename) := by
  rw [boundAssets, boundAssets, referencedIds_renamed hrename, List.filterMap_map,
    List.map_filterMap]
  refine List.filterMap_congr fun id hid => ?_
  rw [referencedIds_eq, List.mem_eraseDups] at hid
  exact bound?_renamed hrename (mem_assetNames hid)

theorem bindings_renamed :
    (timeline.renamed rename).bindings (paths.renamed rename) =
      (timeline.bindings paths).map (Binding.renamed rename) := by
  rw [bindings, bindings, boundAssets_renamed hrename]
  refine List.ext_getElem? fun slot => ?_
  simp [renamed, BoundAsset.renamed, Binding.renamed, Function.comp_def]

theorem slot?_renamed {id : String} (hid : id ∈ timeline.assetNames paths) :
    (timeline.renamed rename).slot? (paths.renamed rename) (rename id) =
      timeline.slot? paths id := by
  rw [slot?, slot?, boundAssets_renamed hrename, List.findIdx?_map]
  refine findIdx?_congr fun asset hasset => ?_
  obtain ⟨other, hother, hbound⟩ := List.mem_filterMap.mp hasset
  rw [referencedIds_eq, List.mem_eraseDups] at hother
  have hsame : rename asset.id = rename id ↔ asset.id = id := by
    rw [timeline.bound?_eq_some paths hbound]
    exact hrename.eq_iff (mem_assetNames hother) hid
  rw [Function.comp_apply, Bool.eq_iff_iff]
  simp [BoundAsset.renamed, hsame]

theorem slot?_renamed_item {item : Track × Clip Float} (hitem : item ∈ timeline.placements) :
    (timeline.renamed rename).slot? (paths.renamed rename) (item.2.renamed rename).assetId =
      timeline.slot? paths item.2.assetId := by
  obtain ⟨track, htrack, hmem⟩ := List.mem_flatMap.mp hitem
  obtain ⟨clip, hclip, rfl⟩ := List.mem_map.mp hmem
  exact slot?_renamed hrename
    (mem_assetNames (List.mem_flatMap.mpr ⟨track, htrack, List.mem_map_of_mem hclip⟩))

theorem placed_renamed {α : Type} {view : Placement → α} {isKept : Track → Bool}
    (hkept : ∀ track : Track, isKept (track.renamed rename) = isKept track)
    (hview : ∀ track clip slot, view ⟨track.renamed rename, clip.renamed rename, slot⟩ =
      view ⟨track, clip, slot⟩) :
    ((timeline.renamed rename).placed (paths.renamed rename) isKept).map view =
      (timeline.placed paths isKept).map view := by
  rw [placed, placed, placements_renamed, List.map_filterMap, List.map_filterMap,
    List.filterMap_map]
  refine List.filterMap_congr fun item hitem => ?_
  rw [Function.comp_apply, Sorting.place?, Sorting.place?, slot?_renamed_item hrename hitem, hkept]
  cases isKept item.1 <;> cases timeline.slot? paths item.2.assetId <;> simp [hview]

theorem unbound_renamed :
    ((timeline.renamed rename).sort (paths.renamed rename)).unbound =
      (timeline.sort paths).unbound := by
  rw [unbound_sort, unbound_sort, placements_renamed, List.countP_map]
  refine List.countP_congr fun item hitem => ?_
  rw [Function.comp_apply, Sorting.isUnbound, Sorting.isUnbound, slot?_renamed_item hrename hitem]

theorem muted_renamed :
    ((timeline.renamed rename).sort (paths.renamed rename)).muted =
      (timeline.sort paths).muted := by
  rw [muted_sort, muted_sort, placements_renamed, List.countP_map]
  refine List.countP_congr fun item hitem => ?_
  rw [Function.comp_apply, Sorting.isSilenced, Sorting.isSilenced,
    slot?_renamed_item hrename hitem]
  rfl

/-! ## Plans -/

theorem filledPlan_renamed :
    (timeline.renamed rename).filledPlan (paths.renamed rename) =
      (timeline.filledPlan paths).renamed rename := by
  have hvisual : ((timeline.renamed rename).sort (paths.renamed rename)).visual.map
        (Placement.layer timeline.settings.canvas) =
      (timeline.sort paths).visual.map (Placement.layer timeline.settings.canvas) := by
    rw [visual_sort, visual_sort]
    exact placed_renamed hrename (fun _ => rfl) fun _ _ _ => rfl
  have haudible : ((timeline.renamed rename).sort (paths.renamed rename)).audible.map
      Placement.voice = (timeline.sort paths).audible.map Placement.voice := by
    rw [audible_sort, audible_sort]
    exact placed_renamed hrename (fun _ => rfl) fun _ _ _ => rfl
  have hlayers : ((timeline.renamed rename).sort (paths.renamed rename)).visual.length =
      (timeline.sort paths).visual.length := by
    simpa using congrArg List.length hvisual
  have hwiring (inputs : Nat) : Wiring.ofSorting (timeline.renamed rename).settings inputs
        ((timeline.renamed rename).sort (paths.renamed rename)) =
      Wiring.ofSorting timeline.settings inputs (timeline.sort paths) :=
    ofSorting_congr rfl rfl rfl hvisual haudible inputs
  simp only [filledPlan, bindings_renamed hrename, List.length_map, hwiring, hlayers,
    unbound_renamed hrename, muted_renamed hrename]
  rfl

theorem compile_renamed_eq :
    (timeline.renamed rename).compile (paths.renamed rename) =
      (timeline.compile paths).renamed rename := by
  have hempty : (timeline.renamed rename).emptyPlan = timeline.emptyPlan.renamed rename := by
    rw [emptyPlan, clipCount_renamed]
    rfl
  rw [compile, compile, bindings_renamed hrename, List.isEmpty_map]
  split
  · exact hempty
  · exact filledPlan_renamed hrename

end Lookups

/-- The place of a name among some names, counted in copies of one character. -/
def unaryName (mark : Char) (names : List String) (name : String) : String :=
  .ofList (.replicate (names.idxOf name) mark)

theorem mem_unaryName {mark : Char} {names : List String} {name : String} {c : Char}
    (h : c ∈ (unaryName mark names name).toList) : c = mark := by
  rw [unaryName, String.toList_ofList] at h
  exact List.eq_of_mem_replicate h

theorem injOn_unaryName (mark : Char) (names : List String) :
    Set.InjOn (unaryName mark names) {name | name ∈ names} := by
  intro name hname other _ heq
  have hlength := congrArg (fun text => text.toList.length) heq
  simp only [unaryName, String.toList_ofList, List.length_replicate] at hlength
  exact (List.idxOf_inj hname).mp hlength

/-- Plans do not depend on how assets are named: where no two names become one, only the
bindings are renamed, and the engine is told the same.  It is told the same even if all names
are spelled with one character only, whichever it is. -/
theorem compile_renamed
    (hrename : Set.InjOn rename {id | id ∈ timeline.assetNames paths}) :
    let plan := timeline.compile paths
    let other := (timeline.renamed rename).compile (paths.renamed rename)
    other = plan.renamed rename ∧ other.graph.text = plan.graph.text ∧
      (∀ output, other.arguments output = plan.arguments output) ∧
      other.fingerprint = plan.fingerprint ∧
      ∀ mark : Char, ∃ spell : String → String,
        Set.InjOn spell {id | id ∈ timeline.assetNames paths} ∧
        (∀ id, ∀ c ∈ (spell id).toList, c = mark) ∧
        ∀ output, ((timeline.renamed spell).compile (paths.renamed spell)).arguments output =
          plan.arguments output := by
  intro plan other
  have hplan : other = plan.renamed rename := compile_renamed_eq hrename
  refine ⟨hplan, ?_, ?_, ?_, ?_⟩
  · rw [hplan]
    rfl
  · intro output
    rw [hplan, Plan.arguments_renamed]
  · rw [hplan, Plan.fingerprint_renamed]
  · intro mark
    have hspell := injOn_unaryName mark (timeline.assetNames paths)
    refine ⟨_, hspell, fun _ _ => mem_unaryName, fun output => ?_⟩
    rw [compile_renamed_eq hspell, Plan.arguments_renamed]

def declared : Timeline :=
  { sharing with assets := sharing.assets.insert "b" (.plain .image "b.png") }

def swapped (id : String) : String :=
  if id = "a" then "b" else if id = "b" then "a" else id

theorem compile_renamed_declared :
    let paths := (Table.empty.insert "a" "/a.mp4").insert "b" "/b.png"
    Set.InjOn swapped {id | id ∈ declared.assetNames paths} ∧
    let plan := declared.compile paths
    let other := (declared.renamed swapped).compile (paths.renamed swapped)
    other = plan.renamed swapped ∧ other.graph.text = plan.graph.text ∧
      (∀ output, other.arguments output = plan.arguments output) ∧
      other.fingerprint = plan.fingerprint ∧
      ∀ mark : Char, ∃ spell : String → String,
        Set.InjOn spell {id | id ∈ declared.assetNames paths} ∧
        (∀ id, ∀ c ∈ (spell id).toList, c = mark) ∧
        ∀ output, ((declared.renamed spell).compile (paths.renamed spell)).arguments output =
          plan.arguments output := by
  intro paths
  have hids : ∀ id ∈ declared.assetNames paths, ∀ other ∈ declared.assetNames paths,
      swapped id = swapped other → id = other := by decide
  have hinjective : Set.InjOn swapped {id | id ∈ declared.assetNames paths} :=
    fun id hid other hother => hids id hid other hother
  exact ⟨hinjective, compile_renamed hinjective⟩

end Timeline

end Compositor
