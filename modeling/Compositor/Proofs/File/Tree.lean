import Compositor.Proofs.File.Frame
import Mathlib.Data.List.Induction

/-!
# Trees

In a tree of directories each entry lies in a directory.  Making directories
opens no new way to a file that was there before, unless the way leads upward
out of one of them.
-/

namespace Compositor

namespace FileSystem

variable {files after : FileSystem} {location found : Location}

/-- Each entry lies in a directory. -/
def IsTree (files : FileSystem) : Prop :=
  ∀ location name, (files.entry? (location ++ [name])).isSome = true →
    files.entry? location = some .directory

theorem isTree_of_entries
    (h : ∀ entry ∈ files.entries, files.entry? entry.1.dropLast = some .directory) :
    files.IsTree := by
  intro location name hentry
  rw [entry?_of_ne_nil (by simp)] at hentry
  obtain ⟨value, hvalue⟩ := Option.isSome_iff_exists.mp hentry
  obtain ⟨before, after, hentries, -⟩ := List.lookup_eq_some_iff.mp hvalue
  simpa using h (location ++ [name], value) (by simp [hentries])

theorem IsTree.directory_above (htree : files.IsTree) {below : Location}
    (hbelow : (files.entry? below).isSome = true) (hway : location <+: below)
    (hne : location ≠ below) : files.entry? location = some .directory := by
  induction below using List.reverseRecOn with
  | nil => exact absurd (List.prefix_nil.mp hway) hne
  | append_singleton above name ih =>
      have habove := htree above name hbelow
      rcases List.prefix_concat_iff.mp hway with heq | hway
      · exact absurd heq hne
      · by_cases heq : location = above
        · rwa [heq]
        · exact ih (by simp [habove]) hway heq

theorem IsTree.nothing_below (htree : files.IsTree) {below : Location}
    (hnone : files.entry? location = none) (hway : location <+: below) :
    files.entry? below = none := by
  by_cases heq : location = below
  · rwa [← heq]
  · by_contra hsome
    have habove := htree.directory_above (Option.isSome_iff_ne_none.mpr hsome) hway heq
    rw [hnone] at habove
    cases habove

theorem prefix_enter {name : String} (hname : name ≠ "..") :
    location <+: location.enter name := by
  rw [Location.enter, if_neg hname]
  split
  · exact List.prefix_rfl
  · exact List.prefix_append _ _

theorem prefix_of_walk {names : List String} (hnames : ".." ∉ names)
    (h : files.walk location names = .ok found) : location <+: found := by
  rw [walk_eq_ok h]
  clear h
  induction names generalizing location with
  | nil => exact List.prefix_rfl
  | cons name names ih =>
      rw [List.mem_cons, not_or] at hnames
      exact (prefix_enter (Ne.symm hnames.1)).trans (ih hnames.2)

theorem walk_append (files : FileSystem) (location : Location) (names more : List String) :
    files.walk location (names ++ more) =
      (files.walk location names).bind fun found => files.walk found more := by
  induction names generalizing location with
  | nil => rfl
  | cons name names ih =>
      rw [List.cons_append, walk, walk]
      split
      · rfl
      · rfl
      · split
        · rfl
        · exact ih _

theorem walk_append_eq_ok_iff {names more : List String} :
    files.walk location (names ++ more) = .ok found ↔
      ∃ middle, files.walk location names = .ok middle ∧ files.walk middle more = .ok found := by
  rw [walk_append]
  cases files.walk location names with
  | error error => simp [Except.bind]
  | ok middle => simp [Except.bind]

/-- The way down to a file of a tree is open in the tree itself. -/
theorem IsTree.walk_of_file (htree : files.IsTree) {names : List String} {content : List UInt8}
    (hnames : ".." ∉ names) (hbefore : (files.entry? found).isSome = true)
    (hfile : after.entry? found = some (.file content))
    (h : after.walk location names = .ok found) : files.walk location names = .ok found := by
  induction names generalizing location with
  | nil => exact h
  | cons name names ih =>
      have hway := prefix_of_walk hnames h
      rw [List.mem_cons, not_or] at hnames
      rw [walk] at h ⊢
      split at h
      · cases h
      · cases h
      · rename_i hentry
        have hne : location ≠ found := by
          rintro rfl
          rw [hfile] at hentry
          cases hentry
        rw [htree.directory_above hbefore hway hne]
        split at h
        · cases h
        · rename_i hshort
          simpa [hshort] using ih hnames.2 h

theorem stat_eq_file_iff {path : String} {content : List UInt8} :
    files.stat path = .ok (.file content) ↔
      files.locate path = .ok (files.place path) ∧ endsInSlash path = false ∧
        files.entry? (files.place path) = some (.file content) := by
  constructor
  · intro h
    have hentry := stat_eq_ok h
    simp only [stat, bind, Except.bind] at h
    split at h
    · cases h
    · rename_i location hlocate
      obtain rfl := locate_eq_ok hlocate
      rw [hentry] at h
      cases hslash : endsInSlash path with
      | true => simp [hslash] at h
      | false => exact ⟨hlocate, rfl, hentry⟩
  · rintro ⟨hlocate, hslash, hentry⟩
    exact stat_of_file hlocate hslash hentry

theorem read_eq_ok_iff {path : String} {content : List UInt8} :
    files.read path = .ok content ↔ files.stat path = .ok (.file content) := by
  simp only [FileSystem.read, bind, Except.bind, pure, Except.pure]
  cases files.stat path with
  | error error => simp
  | ok entry => cases entry <;> simp

/-! ## Steady ways -/

def Reaches (files : FileSystem) (path : String) : Prop :=
  ∃ found, files.walk (files.route path).1 (files.route path).2 = .ok found

theorem Reaches.of_read {files : FileSystem} {path : String} {content : List UInt8}
    (h : files.read path = .ok content) : files.Reaches path := by
  obtain ⟨hlocate, -, -⟩ := stat_eq_file_iff.mp (read_eq_ok_iff.mp h)
  exact ⟨_, walk_of_locate hlocate⟩

theorem Reaches.parent {files : FileSystem} {path parent : String} (h : files.Reaches path)
    (hparent : Path.parent? path = some parent) : files.Reaches parent := by
  obtain ⟨found, hfound⟩ := h
  obtain ⟨more, hmore⟩ := (Path.names_parent? hparent).trans (List.dropLast_prefix _)
  have hroute : files.route path = ((files.route parent).1, (files.route parent).2 ++ more) := by
    simp [route, Path.isAbsolute_parent? hparent, hmore]
  rw [hroute] at hfound
  obtain ⟨middle, hmiddle, -⟩ := walk_append_eq_ok_iff.mp hfound
  exact ⟨middle, hmiddle⟩

/-- A path that leads to the same files when directories have been made: it can be followed
before, or it cannot be followed afterwards, or it does not lead upward. -/
def IsSteady (files after : FileSystem) (path : String) : Prop :=
  files.Reaches path ∨ ¬ after.Reaches path ∨ ".." ∉ Path.names path

theorem IsTree.walk_of_steady (htree : files.IsTree) {isNew : Location → Prop}
    (hframe : Frame Nowhere isNew files after) {directory : String}
    (hsteady : files.IsSteady after directory) {names : List String} (hnames : ".." ∉ names)
    {content : List UInt8} (hbefore : (files.entry? found).isSome = true)
    (hfile : after.entry? found = some (.file content))
    (h : after.walk (files.route directory).1 (Path.names directory ++ names) = .ok found) :
    files.walk (files.route directory).1 (Path.names directory ++ names) = .ok found := by
  rcases hsteady with ⟨middle, hmiddle⟩ | hclosed | hupward
  · have hafter := walk_mono hframe.keepsDirectories hmiddle
    have hroute : (files.route directory).2 = Path.names directory := rfl
    rw [hroute] at hmiddle hafter
    rw [walk_append, hafter] at h
    rw [walk_append, hmiddle]
    exact htree.walk_of_file hnames hbefore hfile h
  · obtain ⟨middle, hmiddle, -⟩ := walk_append_eq_ok_iff.mp h
    refine absurd ⟨middle, ?_⟩ hclosed
    rwa [route_congr hframe.working]
  · have hall : ".." ∉ Path.names directory ++ names := by
      simp [hupward, hnames]
    exact htree.walk_of_file hall hbefore hfile h

theorem Frame.entry?_file {isNew : Location → Prop} (hframe : Frame Nowhere isNew files after)
    {content : List UInt8} :
    after.entry? location = some (.file content) ↔
      files.entry? location = some (.file content) := by
  rcases hframe.entries location with hfree | hsame | ⟨_, hnone, hmade⟩
  · exact hfree.elim
  · rw [hsame]
  · simp [hnone, hmade]

/-- Below a steady directory the same files are found when directories have been made. -/
theorem IsTree.stat_join_iff (htree : files.IsTree) {isNew : Location → Prop}
    (hframe : Frame Nowhere isNew files after) {directory path : String}
    (hsteady : files.IsSteady after directory) (hrelative : Path.isAbsolute path = false)
    (hpath : ".." ∉ Path.names path) {content : List UInt8} :
    after.stat (Path.join directory path) = .ok (.file content) ↔
      files.stat (Path.join directory path) = .ok (.file content) := by
  rw [stat_eq_file_iff, stat_eq_file_iff, hframe.place_eq, hframe.entry?_file]
  refine and_congr_left fun ⟨_, hentry⟩ => ⟨fun h => ?_, ?_⟩
  · have hroute : files.route (Path.join directory path) =
        ((files.route directory).1, Path.names directory ++ Path.names path) :=
      route_join hrelative files directory
    unfold locate at h ⊢
    rw [route_congr hframe.working, hroute] at h
    rw [hroute]
    split at h
    · cases h
    · split at h
      · cases h
      · split at h
        · cases h
        · rename_i hzero hempty hlong
          simp only [hzero, hempty, hlong, if_false]
          exact htree.walk_of_steady hframe hsteady hpath (by simp [hentry])
            (hframe.entry?_file.mpr hentry) h
  · exact locate_mono hframe.working hframe.keepsDirectories

theorem IsTree.directory_of_walk (htree : files.IsTree) {names : List String} {name : String}
    (hnames : names ≠ []) (h : files.walk location names = .ok (found ++ [name]))
    (hnone : files.entry? (found ++ [name]) = none) : files.entry? found = some .directory := by
  obtain ⟨before, last, rfl⟩ : ∃ before last, names = before ++ [last] :=
    ⟨_, _, (List.dropLast_concat_getLast hnames).symm⟩
  obtain ⟨middle, -, hlast⟩ := walk_append_eq_ok_iff.mp h
  have hfound := walk_eq_ok hlast
  rw [walk] at hlast
  split at hlast
  · cases hlast
  · cases hlast
  · rename_i hmiddle
    simp only [List.foldl_cons, List.foldl_nil, Location.enter] at hfound
    split at hfound
    · rw [hfound, hmiddle] at hnone
      cases hnone
    · split at hfound
      · have hne : middle ≠ [] := by
          rintro rfl
          simp at hfound
        have hbelow : middle = (found ++ [name]) ++ [middle.getLast hne] := by
          rw [hfound, List.dropLast_concat_getLast]
        have habove := htree (found ++ [name]) (middle.getLast hne)
          (by simp [← hbelow, hmiddle])
        rw [hnone] at habove
        cases habove
      · rw [(List.append_inj' hfound rfl).1]
        exact hmiddle

theorem IsTree.put_directory (htree : files.IsTree) {name : String}
    (hnone : files.entry? (location ++ [name]) = none)
    (habove : files.entry? location = some .directory) :
    IsTree (files.put (location ++ [name]) .directory) := by
  have hnew : location ++ [name] ≠ [] := by simp
  have hkeeps (other : Location) (h : files.entry? other = some .directory) :
      entry? (files.put (location ++ [name]) .directory) other = some .directory := by
    rwa [entry?_put_of_ne]
    rintro rfl
    rw [hnone] at h
    cases h
  intro above below hbelow
  by_cases heq : above ++ [below] = location ++ [name]
  · rw [(List.append_inj' heq rfl).1]
    exact hkeeps location habove
  · rw [entry?_put_of_ne heq] at hbelow
    exact hkeeps above (htree above below hbelow)

theorem ne_empty_of_locate {path : String} (h : files.locate path = .ok location) : path ≠ "" := by
  rintro rfl
  cases h

theorem locate_of_makeDirectory {path : String} (h : files.makeDirectory path = .ok after) :
    files.locate path = .ok (files.place path) := by
  simp only [makeDirectory, bind, Except.bind] at h
  split at h
  · cases h
  · rename_i location hlocate
    rwa [← locate_eq_ok hlocate]

theorem IsTree.makeDirectory (htree : files.IsTree) {path : String}
    (h : files.makeDirectory path = .ok after) : after.IsTree := by
  have hne := place_ne_nil_of_makeDirectory h
  obtain ⟨hnone, hafter⟩ := makeDirectory_eq_ok h
  have hlocate := locate_of_makeDirectory h
  have hnames : (files.route path).2 ≠ [] := by
    cases habsolute : Path.isAbsolute path with
    | false => exact Path.names_ne_nil habsolute (ne_empty_of_locate hlocate)
    | true =>
        intro hnil
        refine hne ?_
        rw [place, hnil]
        simp [route, habsolute]
  obtain ⟨above, name, hplace⟩ : ∃ above name, files.place path = above ++ [name] :=
    ⟨_, _, (List.dropLast_concat_getLast hne).symm⟩
  have hwalk := walk_of_locate hlocate
  rw [hplace] at hwalk hnone hafter
  rw [hafter]
  exact htree.put_directory hnone (htree.directory_of_walk hnames hwalk hnone)

theorem IsTree.of_makesOne (htree : files.IsTree) {paths : List String}
    (hsteps : Relation.ReflTransGen (MakesOne paths) files after) : after.IsTree := by
  induction hsteps with
  | refl => exact htree
  | tail _ hstep ih =>
      obtain ⟨path, -, hmake⟩ := hstep
      exact ih.makeDirectory hmake

theorem IsTree.ensurePath (htree : files.IsTree) (path : String) :
    (files.ensurePath path).1.IsTree :=
  htree.of_makesOne (makesOne_ensureAll files (ancestors path))

end FileSystem

end Compositor
