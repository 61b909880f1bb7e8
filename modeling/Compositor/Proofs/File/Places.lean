import Compositor.File.System
import Compositor.Proofs.File.Names

/-!
# Places

What is found at a place after a change, and the places that a path leads
through.  A path that can be followed leads to the place that its names say,
and it can still be followed when directories have been added.
-/

namespace Compositor

namespace FileSystem

variable {files : FileSystem} {location other : Location}

theorem lookup_filter (isKept : Location → Bool) (entries : List (Location × FileEntry))
    (location : Location) :
    (entries.filter fun entry => isKept entry.1).lookup location =
      if isKept location then entries.lookup location else none := by
  induction entries with
  | nil => simp
  | cons entry entries ih =>
      obtain ⟨key, value⟩ := entry
      by_cases heq : location = key
      · subst heq
        cases hkept : isKept location <;> simp [hkept, ih]
      · cases hkept : isKept key <;>
          simp [hkept, ih, List.lookup_cons, beq_eq_false_iff_ne.mpr heq]

@[simp] theorem entry?_root (files : FileSystem) : files.entry? [] = some .directory := rfl

theorem entry?_of_ne_nil (h : location ≠ []) :
    files.entry? location = files.entries.lookup location := by
  unfold entry?
  simp [h]

theorem entry?_put_self (h : location ≠ []) (entry : FileEntry) :
    entry? (files.put location entry) location = some entry := by
  simp [entry?_of_ne_nil h, put]

theorem entry?_put_of_ne (h : other ≠ location) (entry : FileEntry) :
    entry? (files.put location entry) other = files.entry? other := by
  by_cases hroot : other = []
  · simp [hroot]
  · simp [entry?_of_ne_nil hroot, put, List.lookup_cons, beq_eq_false_iff_ne.mpr h,
      lookup_filter (· != location), h]

theorem entry?_erase_self (h : location ≠ []) :
    entry? (files.erase location) location = none := by
  simp [entry?_of_ne_nil h, erase, lookup_filter (· != location)]

theorem entry?_erase_of_ne (h : other ≠ location) :
    entry? (files.erase location) other = files.entry? other := by
  by_cases hroot : other = []
  · simp [hroot]
  · simp [entry?_of_ne_nil hroot, erase, lookup_filter (· != location), h]

theorem entry?_eraseTree_below (hne : other ≠ []) (h : location <+: other) :
    entry? (files.eraseTree location) other = none := by
  have hbelow : location.isPrefixOf other = true := List.isPrefixOf_iff_prefix.mpr h
  simp [entry?_of_ne_nil hne, eraseTree, lookup_filter (fun key => !location.isPrefixOf key),
    hbelow]

theorem entry?_eraseTree_outside (h : ¬ location <+: other) :
    entry? (files.eraseTree location) other = files.entry? other := by
  by_cases hroot : other = []
  · simp [hroot]
  · have houtside : location.isPrefixOf other = false := by
      simpa [← List.isPrefixOf_iff_prefix] using h
    simp [entry?_of_ne_nil hroot, eraseTree,
      lookup_filter (fun key => !location.isPrefixOf key), houtside]

/-- The place that a path says, whatever is there. -/
def place (files : FileSystem) (path : String) : Location :=
  (files.route path).2.foldl Location.enter (files.route path).1

/-- The places that a path leads through, where it starts and ends among them. -/
def OnWay (files : FileSystem) (path : String) (location : Location) : Prop :=
  ∃ names, names <+: (files.route path).2 ∧
    location = names.foldl Location.enter (files.route path).1

theorem onWay_place (files : FileSystem) (path : String) :
    files.OnWay path (files.place path) :=
  ⟨(files.route path).2, List.prefix_rfl, rfl⟩

theorem length_enter_le (location : Location) (name : String) :
    (location.enter name).length ≤ location.length + 1 := by
  unfold Location.enter
  split
  · omega
  · split
    · simp only [List.length_dropLast]
      omega
    · simp

theorem OnWay.length_le {path : String} (h : files.OnWay path location) :
    location.length ≤ (files.route path).1.length + (files.route path).2.length := by
  obtain ⟨names, hnames, rfl⟩ := h
  have hfold : ∀ (names : List String) (start : Location),
      (names.foldl Location.enter start).length ≤ start.length + names.length := by
    intro names
    induction names with
    | nil => simp
    | cons name names ih =>
        intro start
        have hfirst := length_enter_le start name
        have hrest := ih (start.enter name)
        simp only [List.foldl_cons, List.length_cons]
        omega
  have hstart := hfold names (files.route path).1
  have hlength := hnames.length_le
  omega

theorem route_congr {before after : FileSystem} (h : after.working = before.working)
    (path : String) : after.route path = before.route path := by
  simp [route, h]

theorem place_congr {before after : FileSystem} (h : after.working = before.working)
    (path : String) : after.place path = before.place path := by
  simp [place, route_congr h]

theorem onWay_congr {before after : FileSystem} (h : after.working = before.working)
    (path : String) : after.OnWay path = before.OnWay path := by
  funext location
  simp [OnWay, route_congr h]

theorem OnWay.of_names_prefix {path above : String}
    (habsolute : Path.isAbsolute above = Path.isAbsolute path)
    (hnames : Path.names above <+: Path.names path) (h : files.OnWay above location) :
    files.OnWay path location := by
  obtain ⟨names, hprefix, rfl⟩ := h
  exact ⟨names, hprefix.trans hnames, by simp [route, habsolute]⟩

theorem OnWay.of_parent? {path parent : String} (hparent : Path.parent? path = some parent)
    (h : files.OnWay parent location) : files.OnWay path location :=
  h.of_names_prefix (Path.isAbsolute_parent? hparent)
    ((Path.names_parent? hparent).trans (List.dropLast_prefix _))

theorem OnWay.of_mem_ancestors {path above : String} (habove : above ∈ ancestors path)
    (h : files.OnWay above location) : files.OnWay path location := by
  have hgo : ∀ (fuel : Nat) (path : String), above ∈ ancestors.go fuel path →
      files.OnWay path location := by
    intro fuel
    induction fuel with
    | zero => simp [ancestors.go]
    | succ fuel ih =>
        intro path hmem
        rw [ancestors.go] at hmem
        split at hmem
        · simp at hmem
        · rename_i parent hparent
          rcases List.mem_cons.mp hmem with rfl | hmem
          · exact h
          · exact (ih parent hmem).of_parent? hparent
  exact hgo path.length path habove

theorem OnWay.of_parent?_join {directory name parent : String} (hname : Path.IsPlain name)
    (hparent : Path.parent? (Path.join directory name) = some parent)
    (h : files.OnWay parent location) : files.OnWay directory location := by
  refine h.of_names_prefix ?_ ?_
  · rw [Path.isAbsolute_parent? hparent, hname.isAbsolute_join]
  · have hnames := Path.names_parent? hparent
    rwa [hname.names_join, List.dropLast_concat] at hnames

theorem route_join {path : String} (hrelative : Path.isAbsolute path = false) (files : FileSystem)
    (directory : String) :
    files.route (Path.join directory path) =
      ((files.route directory).1, (files.route directory).2 ++ Path.names path) := by
  simp [route, Path.isAbsolute_join hrelative, Path.names_join hrelative]

theorem foldl_enter_of_named {names : List String} (hpoint : "." ∉ names) (hupward : ".." ∉ names)
    (location : Location) : names.foldl Location.enter location = location ++ names := by
  induction names generalizing location with
  | nil => simp
  | cons name names ih =>
      rw [List.mem_cons, not_or] at hpoint hupward
      have henter : location.enter name = location ++ [name] := by
        rw [Location.enter, if_neg (Ne.symm hpoint.1), if_neg (Ne.symm hupward.1)]
      rw [List.foldl_cons, henter, ih hpoint.2 hupward.2, ← List.append_cons]

theorem place_join {name : String} (hname : Path.IsPlain name) (files : FileSystem)
    (directory : String) :
    files.place (Path.join directory name) = files.place directory ++ [name] := by
  simp [place, route, hname.isAbsolute_join, hname.names_join, Location.enter, hname.ne_point,
    hname.ne_upward]

theorem endsInSlash_join {name : String} (hname : Path.IsPlain name) (directory : String) :
    endsInSlash (Path.join directory name) = false := by
  simpa [endsInSlash] using hname.getLast?_join directory

theorem walk_eq_ok {names : List String} {found : Location}
    (h : files.walk location names = .ok found) : found = names.foldl Location.enter location := by
  induction names generalizing location with
  | nil => simpa [walk] using h.symm
  | cons name names ih =>
      rw [walk] at h
      split at h
      · cases h
      · cases h
      · split at h
        · cases h
        · exact ih h

theorem walk_of_locate {path : String} (h : files.locate path = .ok location) :
    files.walk (files.route path).1 (files.route path).2 = .ok location := by
  unfold locate at h
  split at h
  · cases h
  · split at h
    · cases h
    · split at h
      · cases h
      · exact h

theorem locate_eq_ok {path : String} (h : files.locate path = .ok location) :
    location = files.place path :=
  walk_eq_ok (walk_of_locate h)

def KeepsDirectories (before after : FileSystem) : Prop :=
  ∀ location, before.entry? location = some .directory → after.entry? location = some .directory

theorem walk_mono {before after : FileSystem} (hkeeps : before.KeepsDirectories after)
    {names : List String} {found : Location} (h : before.walk location names = .ok found) :
    after.walk location names = .ok found := by
  induction names generalizing location with
  | nil => exact h
  | cons name names ih =>
      rw [walk] at h ⊢
      split at h
      · cases h
      · cases h
      · rename_i hentry
        rw [hkeeps location hentry]
        split at h
        · cases h
        · rename_i hshort
          simpa [hshort] using ih h

theorem locate_mono {before after : FileSystem} (hworking : after.working = before.working)
    (hkeeps : before.KeepsDirectories after) {path : String}
    (h : before.locate path = .ok location) : after.locate path = .ok location := by
  unfold locate at h ⊢
  rw [route_congr hworking]
  split at h
  · cases h
  · split at h
    · cases h
    · split at h
      · cases h
      · simp_all [walk_mono hkeeps h]

end FileSystem

end Compositor
