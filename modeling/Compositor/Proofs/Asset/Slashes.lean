import Compositor.Proofs.Asset.Confined

/-!
# Slashes of either kind

The segments of a location do not depend on the kind of its slashes, but the mark of
a remote location is sought before the slashes are made alike.  So two spellings of
a location normalize alike, unless one of them is marked as remote and the other has
a backslash in the mark.
-/

namespace Compositor.AssetLocation

variable {location other : String} {char : Char}

def IsSlash (char : Char) : Prop := char = '/' ∨ char = '\\'

def withSlashes (location : String) : String :=
  String.ofList (location.toList.map forwardSlash)

/-- A colon and two slashes of either kind. -/
def HasMark (location : String) : Prop :=
  ∃ before first second after, location.toList = before ++ ':' :: first :: second :: after ∧
    IsSlash first ∧ IsSlash second

/-- A mark of a remote location that the backslashes in it hide. -/
structure IsDisguised (location : String) : Prop where
  marked : HasMark location
  unmarked : ¬ [':', '/', '/'] <:+: location.toList

theorem forwardSlash_eq_slash_iff : forwardSlash char = '/' ↔ IsSlash char := by
  unfold forwardSlash IsSlash
  split
  · rename_i hbackslash
    exact iff_of_true rfl (.inr hbackslash)
  · rename_i hother
    exact (or_iff_left hother).symm

theorem forwardSlash_eq_colon_iff : forwardSlash char = ':' ↔ char = ':' := by
  unfold forwardSlash
  split
  · rename_i hbackslash
    exact iff_of_false (by decide) (hbackslash ▸ by decide)
  · rfl

theorem forwardSlash_forwardSlash (char : Char) :
    forwardSlash (forwardSlash char) = forwardSlash char :=
  if_neg (forwardSlash_ne_backslash char)

theorem segments_withSlashes (location : String) :
    segments (withSlashes location) = segments location := by
  simp only [segments, withSlashes, String.toList_ofList, List.map_map, Function.comp_def,
    forwardSlash_forwardSlash]

theorem isRemote_withSlashes_iff : isRemote (withSlashes location) = true ↔ HasMark location := by
  rw [isRemote_iff, withSlashes, String.toList_ofList, List.infix_map_iff]
  constructor
  · rintro ⟨mark, ⟨before, after, hlocation⟩, hmark⟩
    obtain ⟨colon, slashes, rfl, hcolon, hslashes⟩ := List.map_eq_cons_iff.mp hmark.symm
    obtain ⟨first, rest, rfl, hfirst, hrest⟩ := List.map_eq_cons_iff.mp hslashes
    obtain ⟨second, beyond, rfl, hsecond, hbeyond⟩ := List.map_eq_cons_iff.mp hrest
    obtain rfl := List.map_eq_nil_iff.mp hbeyond
    obtain rfl := forwardSlash_eq_colon_iff.mp hcolon
    exact ⟨before, first, second, after, by simp [← hlocation],
      forwardSlash_eq_slash_iff.mp hfirst, forwardSlash_eq_slash_iff.mp hsecond⟩
  · rintro ⟨before, first, second, after, hlocation, hfirst, hsecond⟩
    refine ⟨[':', first, second], ⟨before, after, by simp [hlocation]⟩, ?_⟩
    simp only [List.map_cons, List.map_nil, forwardSlash_eq_colon_iff.mpr rfl,
      forwardSlash_eq_slash_iff.mpr hfirst, forwardSlash_eq_slash_iff.mpr hsecond]

theorem isRemote_withSlashes (h : isRemote location = true) :
    isRemote (withSlashes location) = true := by
  obtain ⟨before, after, hlocation⟩ := isRemote_iff.mp h
  rw [isRemote_withSlashes_iff]
  exact ⟨before, '/', '/', after, by simp [← hlocation], .inl rfl, .inl rfl⟩

theorem isDisguised_iff :
    IsDisguised location ↔ isRemote (withSlashes location) = true ∧ ¬ isRemote location = true := by
  rw [isRemote_withSlashes_iff, isRemote_iff]
  exact ⟨fun h => ⟨h.marked, h.unmarked⟩, fun h => ⟨h.1, h.2⟩⟩

theorem normalize_eq_remote_iff :
    normalize location = .error .remote ↔ isRemote location = true := by
  rw [normalize_eq]
  split
  · rename_i hremote
    exact iff_of_true rfl hremote
  · rename_i hlocal
    refine iff_of_false ?_ hlocal
    split
    · exact nofun
    · split <;> exact nofun

/-- Locations of the same segments can only differ in that one of them is remote. -/
theorem normalize_eq_iff (h : segments other = segments location) :
    normalize other = normalize location ↔ (isRemote other = true ↔ isRemote location = true) := by
  constructor
  · intro hnormal
    rw [← normalize_eq_remote_iff, ← normalize_eq_remote_iff, hnormal]
  · intro hremote
    rw [normalize, normalize, h, Bool.eq_iff_iff.mpr hremote]

theorem HasMark.remaining_ne_nil (h : HasMark location) : remaining location ≠ [] := by
  obtain ⟨before, first, second, after, hlocation, -, -⟩ := h
  have hcolon : ':' ∈ Text.join ['/'] (segments location) := by
    rw [(cutInto_segments location).joined, hlocation, List.mem_map]
    exact ⟨':', by simp, rfl⟩
  obtain ⟨segment, hsegment, hmem⟩ := (Text.mem_join_iff (by decide)).mp hcolon
  apply List.ne_nil_of_mem (mem_remaining.mpr ⟨hsegment, ?_, ?_⟩)
  · rintro rfl
    cases hmem
  · rintro rfl
    exact absurd hmem (by decide)

theorem IsDisguised.not_isRefused (h : IsDisguised location)
    (hupward : ['.', '.'] ∉ segments location) : ¬ IsRefused location := by
  rintro (hremote | hmem | hempty)
  · exact h.unmarked hremote
  · exact hupward hmem
  · exact h.marked.remaining_ne_nil (remaining_eq_nil_iff.mpr hempty)

theorem normalize_eq_upward (hlocal : ¬ isRemote location = true)
    (hupward : ['.', '.'] ∈ segments location) : normalize location = .error .upward := by
  rw [normalize_eq, if_neg hlocal, if_pos (contains_upward_iff.mpr hupward)]

theorem normalize_withSlashes_eq_iff (location : String) :
    normalize (withSlashes location) = normalize location ↔ ¬ IsDisguised location := by
  rw [normalize_eq_iff (segments_withSlashes location), isDisguised_iff]
  constructor
  · rintro hsame ⟨hmarked, hlocal⟩
    exact hlocal (hsame.mp hmarked)
  · intro hplain
    exact ⟨fun hmarked => by_contra fun hlocal => hplain ⟨hmarked, hlocal⟩, isRemote_withSlashes⟩

theorem normalize_eq_iff_of_withSlashes (h : withSlashes other = withSlashes location) :
    normalize other = normalize location ↔ (IsDisguised other ↔ IsDisguised location) := by
  have hsegments : segments other = segments location := by
    rw [← segments_withSlashes other, h, segments_withSlashes]
  rw [normalize_eq_iff hsegments, isDisguised_iff, isDisguised_iff, h]
  by_cases hmarked : isRemote (withSlashes location) = true
  · rw [and_iff_right hmarked, and_iff_right hmarked, not_iff_not]
  · have hlocal : ¬ isRemote location = true := mt isRemote_withSlashes hmarked
    have hother : ¬ isRemote other = true := fun hremote => hmarked (h ▸ isRemote_withSlashes hremote)
    exact iff_of_true (iff_of_false hother hlocal)
      (iff_of_false (fun hand => hmarked hand.1) fun hand => hmarked hand.1)

structure ToldApart (location : String) : Prop where
  slashes : normalize (withSlashes location) = normalize location ↔ ¬ IsDisguised location
  spellings : ∀ other, withSlashes other = withSlashes location →
    (normalize other = normalize location ↔ (IsDisguised other ↔ IsDisguised location))
  remote : HasMark location → normalize (withSlashes location) = .error .remote
  upward : IsDisguised location → ['.', '.'] ∈ segments location →
    normalize location = .error .upward
  accepted : IsDisguised location → ['.', '.'] ∉ segments location →
    normalize location = .ok (String.ofList (Text.join ['/'] (remaining location)))

/-- A backslash in the mark of a remote location is all that slashes can change. -/
theorem toldApart (location : String) : ToldApart location where
  slashes := normalize_withSlashes_eq_iff location
  spellings _ hother := normalize_eq_iff_of_withSlashes hother
  remote h := normalize_eq_remote_iff.mpr (isRemote_withSlashes_iff.mpr h)
  upward h hupward := normalize_eq_upward (isDisguised_iff.mp h).2 hupward
  accepted h hupward := normalize_eq_ok_iff.mpr ⟨h.not_isRefused hupward, rfl⟩

theorem normalize_withSlashes_ne :
    normalize "https:\\\\cdn\\a.mp4" = .ok "https:/cdn/a.mp4" ∧
      normalize (withSlashes "https:\\\\cdn\\a.mp4") = .error .remote := by
  decide

end Compositor.AssetLocation
