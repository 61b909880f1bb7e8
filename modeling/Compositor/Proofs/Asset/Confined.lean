import Compositor.Proofs.Asset.Below

/-!
# Locations stay below their root

A location is refused, or it becomes a way down by names that say something.  What
is found for an asset below a root is a regular file strictly below that root.
-/

namespace Compositor

namespace Text

theorem split_eq_splitOnP {α : Type} (isSeparator : α → Bool) (items : List α) :
    split isSeparator items = items.splitOnP isSeparator := by
  induction items with
  | nil => rw [split_nil, List.splitOnP_nil]
  | cons item items ih =>
      rw [List.splitOnP_cons_eq_if_modifyHead, ← ih]
      cases hitem : isSeparator item with
      | true => exact split_cons_of_separator hitem items
      | false =>
          obtain ⟨piece, pieces, hpieces⟩ :=
            List.exists_cons_of_ne_nil (split_ne_nil isSeparator items)
          rw [split_cons_of_not_separator hitem hpieces, hpieces]
          rfl

theorem join_eq_intercalate (separator : List Char) (pieces : List (List Char)) :
    join separator pieces = separator.intercalate pieces := by
  induction pieces with
  | nil => rfl
  | cons piece pieces ih =>
      cases pieces with
      | nil => rw [join, List.intercalate_singleton]
      | cons second pieces =>
          rw [List.intercalate_cons_cons, ← ih]
          rfl

theorem mem_join_iff {char : Char} {pieces : List (List Char)} (hne : char ≠ '/') :
    char ∈ join ['/'] pieces ↔ ∃ piece ∈ pieces, char ∈ piece := by
  induction pieces with
  | nil => simp [join]
  | cons piece pieces ih =>
      cases pieces with
      | nil => simp [join]
      | cons second pieces => simp [join, ih, hne]

theorem occurs_iff (pattern chars : List Char) :
    occurs pattern chars = true ↔ pattern <:+: chars := by
  induction chars with
  | nil => simp [occurs]
  | cons char chars ih =>
      rw [occurs, Bool.or_eq_true, List.isPrefixOf_iff_prefix, ih, List.infix_cons_iff]

end Text

namespace AssetLocation

variable {location relative : String}

/-- The pieces of a location between slashes of either kind. -/
structure CutInto (location : String) (pieces : List (List Char)) : Prop where
  ne_nil : pieces ≠ []
  whole : ∀ piece ∈ pieces, '/' ∉ piece
  joined : Text.join ['/'] pieces = location.toList.map forwardSlash

theorem segments_eq_splitOn (location : String) :
    segments location = (location.toList.map forwardSlash).splitOn '/' :=
  Text.split_eq_splitOnP _ _

theorem cutInto_iff {pieces : List (List Char)} :
    CutInto location pieces ↔ segments location = pieces := by
  constructor
  · intro h
    rw [segments_eq_splitOn, ← h.joined, Text.join_eq_intercalate]
    exact List.splitOn_intercalate '/' h.whole h.ne_nil
  · rintro rfl
    constructor
    · exact Text.split_ne_nil _ _
    · intro piece hpiece hslash
      simpa using Text.not_separator_of_mem_split hpiece '/' hslash
    · rw [segments_eq_splitOn, Text.join_eq_intercalate]
      exact List.intercalate_splitOn '/'

theorem cutInto_segments (location : String) : CutInto location (segments location) :=
  cutInto_iff.mpr rfl

theorem forwardSlash_ne_backslash (char : Char) : forwardSlash char ≠ '\\' := by
  unfold forwardSlash
  split
  · decide
  · assumption

theorem not_backslash_of_mem_segments {segment : List Char} (h : segment ∈ segments location) :
    '\\' ∉ segment := by
  intro hbackslash
  have hlocation : '\\' ∈ Text.join ['/'] (segments location) :=
    (Text.mem_join_iff (by decide)).mpr ⟨segment, h, hbackslash⟩
  rw [(cutInto_segments location).joined, List.mem_map] at hlocation
  obtain ⟨char, -, hchar⟩ := hlocation
  exact forwardSlash_ne_backslash char hchar

theorem map_forwardSlash {chars : List Char} (h : '\\' ∉ chars) :
    chars.map forwardSlash = chars := by
  rw [List.map_congr_left (g := id), List.map_id]
  intro char hchar
  apply if_neg
  rintro rfl
  exact h hchar

/-! ## Locations that are refused -/

/-- The segments but for empty ones and single points. -/
def remaining (location : String) : List (List Char) :=
  (segments location).filter fun segment => segment != [] && segment != ['.']

/-- A location that leads elsewhere or nowhere. -/
def IsRefused (location : String) : Prop :=
  [':', '/', '/'] <:+: location.toList ∨ ['.', '.'] ∈ segments location ∨
    ∀ segment ∈ segments location, segment = [] ∨ segment = ['.']

theorem mem_remaining {segment : List Char} :
    segment ∈ remaining location ↔
      segment ∈ segments location ∧ segment ≠ [] ∧ segment ≠ ['.'] := by
  simp [remaining]

theorem remaining_eq_nil_iff :
    remaining location = [] ↔ ∀ segment ∈ segments location, segment = [] ∨ segment = ['.'] := by
  simp [remaining, List.filter_eq_nil_iff, or_iff_not_imp_left]

theorem isRemote_iff : isRemote location = true ↔ [':', '/', '/'] <:+: location.toList :=
  Text.occurs_iff remoteMark location.toList

theorem contains_upward_iff :
    (remaining location).contains ['.', '.'] = true ↔ ['.', '.'] ∈ segments location := by
  rw [List.contains_iff_mem, mem_remaining]
  simp

theorem normalize_eq (location : String) :
    normalize location =
      if isRemote location then .error .remote
      else if (remaining location).contains ['.', '.'] then .error .upward
      else if (remaining location).isEmpty then .error .empty
      else .ok (String.ofList (Text.join ['/'] (remaining location))) := rfl

theorem normalize_eq_ok_iff :
    normalize location = .ok relative ↔
      ¬ IsRefused location ∧ relative = String.ofList (Text.join ['/'] (remaining location)) := by
  have hempty : (remaining location).isEmpty = true ↔
      ∀ segment ∈ segments location, segment = [] ∨ segment = ['.'] := by
    rw [List.isEmpty_iff, remaining_eq_nil_iff]
  rw [IsRefused, ← isRemote_iff, ← contains_upward_iff, ← hempty, normalize_eq]
  cases isRemote location with
  | true => simp
  | false =>
      cases (remaining location).contains ['.', '.'] with
      | true => simp
      | false =>
          cases (remaining location).isEmpty with
          | true => simp
          | false => simp [eq_comm]

theorem error_iff_isRefused :
    (∃ fault, normalize location = .error fault) ↔ IsRefused location := by
  have hok : (∃ relative, normalize location = .ok relative) ↔ ¬ IsRefused location := by
    simp [normalize_eq_ok_iff]
  cases hnormal : normalize location with
  | error fault => simpa [hnormal] using hok
  | ok relative => simpa [hnormal] using hok

/-- A relative path of names that say something. -/
structure IsClean (relative : String) : Prop where
  ne_empty : relative ≠ ""
  named : ∀ segment ∈ segments relative, segment ≠ [] ∧ segment ≠ ['.'] ∧ segment ≠ ['.', '.']
  no_backslash : '\\' ∉ relative.toList
  no_leading : relative.toList.head? ≠ some '/'
  no_trailing : relative.toList.getLast? ≠ some '/'

theorem segments_append_slash {before after : List Char}
    (h : relative.toList = before ++ '/' :: after) :
    segments relative = segments (String.ofList before) ++ segments (String.ofList after) := by
  have hslash : forwardSlash '/' = '/' := rfl
  simp only [segments, h, List.map_append, List.map_cons, hslash, String.toList_ofList]
  exact Text.split_append_separator rfl _ _

theorem isClean_of_named (hbackslash : '\\' ∉ relative.toList)
    (hnamed : ∀ segment ∈ segments relative,
      segment ≠ [] ∧ segment ≠ ['.'] ∧ segment ≠ ['.', '.']) : IsClean relative where
  ne_empty := by
    rintro rfl
    exact (hnamed [] (by decide)).1 rfl
  named := hnamed
  no_backslash := hbackslash
  no_leading := by
    intro hhead
    obtain ⟨rest, hrest⟩ := List.head?_eq_some_iff.mp hhead
    have hsegments : segments relative =
        segments (String.ofList []) ++ segments (String.ofList rest) :=
      segments_append_slash hrest
    exact (hnamed [] (by rw [hsegments]; exact List.mem_append_left _ (by decide))).1 rfl
  no_trailing := by
    intro hlast
    obtain ⟨before, hbefore⟩ := List.getLast?_eq_some_iff.mp hlast
    have hsegments := segments_append_slash hbefore
    exact (hnamed [] (by rw [hsegments]; exact List.mem_append_right _ (by decide))).1 rfl

theorem IsClean.not_isRefused (h : IsClean relative) : ¬ IsRefused relative := by
  rintro (⟨before, after, hremote⟩ | hupward | hempty)
  · have hsegments : segments relative =
        segments (String.ofList (before ++ [':'])) ++ segments (String.ofList ('/' :: after)) :=
      segments_append_slash (by simp [← hremote])
    have hrest : segments (String.ofList ('/' :: after)) =
        segments (String.ofList []) ++ segments (String.ofList after) :=
      segments_append_slash (by simp)
    have hmem : [] ∈ segments relative := by
      rw [hsegments, hrest]
      exact List.mem_append_right _ (List.mem_append_left _ (by decide))
    exact (h.named [] hmem).1 rfl
  · exact (h.named _ hupward).2.2 rfl
  · obtain ⟨segment, hsegment⟩ := List.exists_mem_of_ne_nil _ (cutInto_segments relative).ne_nil
    rcases hempty segment hsegment with rfl | rfl
    · exact (h.named _ hsegment).1 rfl
    · exact (h.named _ hsegment).2.1 rfl

theorem IsClean.remaining_eq (h : IsClean relative) : remaining relative = segments relative := by
  rw [remaining, List.filter_eq_self]
  intro segment hsegment
  simp [h.named segment hsegment]

theorem IsClean.names_eq (h : IsClean relative) :
    Path.names relative = (segments relative).map String.ofList := by
  have hpieces := cutInto_segments relative
  rw [← Path.names_join_pieces fun piece hpiece =>
    ⟨hpieces.whole piece hpiece, (h.named piece hpiece).1⟩, hpieces.joined,
    map_forwardSlash h.no_backslash, String.ofList_toList]

theorem segments_of_normalize (h : normalize location = .ok relative) :
    segments relative = remaining location := by
  obtain ⟨haccepted, rfl⟩ := normalize_eq_ok_iff.mp h
  have hbackslash : '\\' ∉ Text.join ['/'] (remaining location) := by
    rw [Text.mem_join_iff (by decide)]
    rintro ⟨segment, hsegment, hchar⟩
    exact not_backslash_of_mem_segments (mem_remaining.mp hsegment).1 hchar
  apply cutInto_iff.mp
  constructor
  · intro hnil
    exact haccepted (.inr (.inr (remaining_eq_nil_iff.mp hnil)))
  · intro segment hsegment
    exact (cutInto_segments location).whole segment (mem_remaining.mp hsegment).1
  · rw [String.toList_ofList, map_forwardSlash hbackslash]

theorem isClean_of_normalize (h : normalize location = .ok relative) : IsClean relative := by
  have hsegments := segments_of_normalize h
  obtain ⟨haccepted, hrelative⟩ := normalize_eq_ok_iff.mp h
  apply isClean_of_named
  · rw [hrelative, String.toList_ofList, Text.mem_join_iff (by decide)]
    rintro ⟨segment, hsegment, hchar⟩
    exact not_backslash_of_mem_segments (mem_remaining.mp hsegment).1 hchar
  · rw [hsegments]
    intro segment hsegment
    obtain ⟨hmem, hempty, hpoint⟩ := mem_remaining.mp hsegment
    refine ⟨hempty, hpoint, ?_⟩
    rintro rfl
    exact haccepted (.inr (.inl hmem))

theorem normalize_eq_self (h : IsClean relative) : normalize relative = .ok relative := by
  rw [normalize_eq_ok_iff]
  refine ⟨h.not_isRefused, ?_⟩
  rw [h.remaining_eq, (cutInto_segments relative).joined, map_forwardSlash h.no_backslash,
    String.ofList_toList]

structure Normalizes (location : String) : Prop where
  pieces : ∀ pieces, CutInto location pieces ↔ segments location = pieces
  refused : (∃ fault, normalize location = .error fault) ↔ IsRefused location
  accepted : ¬ IsRefused location → ∃ relative, normalize location = .ok relative ∧
    relative = String.ofList (Text.join ['/'] (remaining location)) ∧ IsClean relative ∧
    normalize relative = .ok relative

theorem normalizes (location : String) : Normalizes location where
  pieces _ := cutInto_iff
  refused := error_iff_isRefused
  accepted := by
    intro haccepted
    have hnormal := normalize_eq_ok_iff.mpr ⟨haccepted, rfl⟩
    have hclean := isClean_of_normalize hnormal
    exact ⟨_, hnormal, rfl, hclean, normalize_eq_self hclean⟩

def names (location : String) : List String := (remaining location).map String.ofList

theorem names_of_normalize (h : normalize location = .ok relative) :
    Path.names relative = names location := by
  rw [(isClean_of_normalize h).names_eq, segments_of_normalize h, names]

theorem names_ne_nil (h : normalize location = .ok relative) : names location ≠ [] := by
  have hnil := (cutInto_segments relative).ne_nil
  rw [segments_of_normalize h] at hnil
  simpa [names] using hnil

theorem IsClean.point_not_mem_names (h : IsClean relative) : "." ∉ Path.names relative := by
  rw [h.names_eq, List.mem_map]
  rintro ⟨segment, hsegment, hpoint⟩
  have hchars := congrArg String.toList hpoint
  rw [String.toList_ofList] at hchars
  exact (h.named segment hsegment).2.1 hchars

end AssetLocation

/-! ## Lookups -/

open FileSystem AssetLocation

variable {files : FileSystem} {root path : String} {location : Location}

theorem Path.exists_join_eq {relative : String} (h : isAbsolute relative = false)
    (directory : String) :
    ∃ middle, (middle = "" ∨ middle = "/") ∧
      join directory relative = directory ++ middle ++ relative := by
  unfold join
  rw [h, Bool.false_or]
  split
  · rename_i hempty
    exact ⟨"", .inl rfl, by simp [of_decide_eq_true hempty]⟩
  · split
    · exact ⟨"", .inl rfl, by simp⟩
    · exact ⟨"/", .inr rfl, rfl⟩

theorem candidatePath_of_normalize {asset : Asset} {relative : String}
    (h : normalize asset.location = .ok relative) (root id : String) :
    candidatePath root id asset = .ok (Path.join root relative) := by
  rw [candidatePath, h]

theorem directory_of_walk {names : List String} {found : Location} (hne : names ≠ [])
    (h : files.walk location names = .ok found) : files.entry? location = some .directory := by
  obtain ⟨name, names, rfl⟩ := List.exists_cons_of_ne_nil hne
  rw [walk] at h
  split at h
  · cases h
  · cases h
  · assumption

/-- A regular file that some names lead to from a root, which is a directory. -/
structure IsFileBelow (files : FileSystem) (root path : String) (names : List String) : Prop where
  root_reached : files.walk (files.route root).1 (files.route root).2 = .ok (files.place root)
  root_directory : files.entry? (files.place root) = some .directory
  names_ne_nil : names ≠ []
  reached : files.locate path = .ok (files.place root ++ names)
  file : ∃ bytes, files.entry? (files.place root ++ names) = some (.file bytes)

theorem isFileBelow_of_stat {location relative : String} {bytes : List UInt8}
    (hnormal : normalize location = .ok relative)
    (hstat : files.stat (Path.join root relative) = .ok (.file bytes)) :
    IsFileBelow files root (Path.join root relative) (AssetLocation.names location) := by
  have hdown := isDownward_of_normalize hnormal
  have hnames := names_of_normalize hnormal
  have hne := names_ne_nil hnormal
  have hroute := route_join hdown.not_absolute files root
  have hplace : files.place (Path.join root relative) =
      files.place root ++ AssetLocation.names location := by
    have hpoint := (isClean_of_normalize hnormal).point_not_mem_names
    rw [place, hroute, List.foldl_append, foldl_enter_of_named hpoint hdown.no_upward, hnames]
    rfl
  obtain ⟨hlocate, -, hentry⟩ := stat_eq_file_iff.mp hstat
  have hwalk := walk_of_locate hlocate
  rw [hroute, hnames] at hwalk
  rw [hplace] at hlocate hentry
  obtain ⟨found, hroot, hbelow⟩ := walk_append_eq_ok_iff.mp hwalk
  obtain rfl : found = files.place root := walk_eq_ok hroot
  exact ⟨hroot, directory_of_walk hne hbelow, hne, hlocate, bytes, hentry⟩

structure StaysBelow (files : FileSystem) (root id : String) (asset : Asset) : Prop where
  candidate : ∀ relative, normalize asset.location = .ok relative →
    ∃ path middle, candidatePath root id asset = .ok path ∧
      (middle = "" ∨ middle = "/") ∧ path = root ++ middle ++ relative ∧
      Path.isAbsolute path = Path.isAbsolute root ∧
      Path.names path = Path.names root ++ AssetLocation.names asset.location
  refused : IsRefused asset.location → ∃ error, candidatePath root id asset = .error error
  found : ∀ content, lookupBelow files root id asset = .ok content →
    ∃ path, candidatePath root id asset = .ok path ∧ content = .path path ∧
      IsFileBelow files root path (AssetLocation.names asset.location)

theorem staysBelow (files : FileSystem) (root id : String) (asset : Asset) :
    StaysBelow files root id asset where
  candidate := by
    intro relative hnormal
    have hdown := isDownward_of_normalize hnormal
    obtain ⟨middle, hmiddle, hjoin⟩ := Path.exists_join_eq hdown.not_absolute root
    refine ⟨_, middle, candidatePath_of_normalize hnormal root id, hmiddle, hjoin, ?_, ?_⟩
    · exact Path.isAbsolute_join hdown.not_absolute root
    · rw [Path.names_join hdown.not_absolute, names_of_normalize hnormal]
  refused := by
    intro hrefused
    obtain ⟨fault, hfault⟩ := error_iff_isRefused.mpr hrefused
    rw [candidatePath, hfault]
    exact ⟨_, rfl⟩
  found := by
    intro content hcontent
    obtain ⟨path, bytes, hpath, hstat, rfl⟩ := lookupBelow_eq_ok_iff.mp hcontent
    cases hnormal : normalize asset.location with
    | error fault =>
        rw [candidatePath, hnormal] at hpath
        cases hpath
    | ok relative =>
        obtain rfl : Path.join root relative = path :=
          Except.ok.inj ((candidatePath_of_normalize hnormal root id).symm.trans hpath)
        exact ⟨_, hpath, rfl, isFileBelow_of_stat hnormal hstat⟩

/-- Locations are made clean or refused, and lookups stay below their root. -/
theorem confined_lookupBelow (location root id : String) (asset : Asset) (files : FileSystem) :
    Normalizes location ∧ StaysBelow files root id asset :=
  ⟨normalizes location, staysBelow files root id asset⟩

end Compositor
