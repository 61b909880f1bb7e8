import Compositor.Asset.Lookup
import Compositor.Proofs.File.Tree

/-!
# Assets below a directory

The location of an asset, once normalized, is a way down.  So the same assets are
found below a steady directory whether or not other directories have been made
in the meantime.
-/

namespace Compositor

theorem Text.not_separator_of_mem_split {α : Type} {isSeparator : α → Bool} {items piece : List α}
    (h : piece ∈ split isSeparator items) : ∀ item ∈ piece, isSeparator item = false := by
  induction items generalizing piece with
  | nil =>
      rw [split_nil, List.mem_singleton] at h
      simp [h]
  | cons first items ih =>
      cases hfirst : isSeparator first with
      | true =>
          rw [split_cons_of_separator hfirst] at h
          rcases List.mem_cons.mp h with rfl | h
          · simp
          · exact ih h
      | false =>
          obtain ⟨head, pieces, hpieces⟩ :=
            List.exists_cons_of_ne_nil (split_ne_nil isSeparator items)
          rw [split_cons_of_not_separator hfirst hpieces] at h
          rcases List.mem_cons.mp h with rfl | h
          · exact List.forall_mem_cons.mpr ⟨hfirst, ih (by simp [hpieces])⟩
          · exact ih (by simp [hpieces, h])

theorem Path.names_join_pieces {pieces : List (List Char)}
    (h : ∀ piece ∈ pieces, '/' ∉ piece ∧ piece ≠ []) :
    names (String.ofList (Text.join ['/'] pieces)) = pieces.map String.ofList := by
  induction pieces with
  | nil => exact names_empty
  | cons piece pieces ih =>
      obtain ⟨⟨hslash, hne⟩, hpieces⟩ := List.forall_mem_cons.mp h
      cases pieces with
      | nil => exact names_of_no_slash hslash hne
      | cons second pieces =>
          have hrest := ih hpieces
          rw [Text.join, List.append_assoc, List.singleton_append, names_append_slash,
            names_of_no_slash hslash hne, hrest]
          · rfl
          · simp

namespace AssetLocation

/-- A way down, by names that say something. -/
structure IsDownward (relative : String) : Prop where
  not_absolute : Path.isAbsolute relative = false
  no_upward : ".." ∉ Path.names relative

theorem isDownward_join {pieces : List (List Char)}
    (h : ∀ piece ∈ pieces, '/' ∉ piece ∧ piece ≠ []) (hupward : ['.', '.'] ∉ pieces) :
    IsDownward (String.ofList (Text.join ['/'] pieces)) where
  not_absolute := by
    rw [Path.isAbsolute_ofList]
    cases pieces with
    | nil => rfl
    | cons piece pieces =>
        obtain ⟨⟨hslash, hne⟩, -⟩ := List.forall_mem_cons.mp h
        obtain ⟨char, chars, rfl⟩ := List.exists_cons_of_ne_nil hne
        have hchar : char ≠ '/' := fun heq => hslash (by simp [heq])
        cases pieces <;> simp [Text.join, hchar]
  no_upward := by
    rw [Path.names_join_pieces h, List.mem_map]
    rintro ⟨piece, hpiece, heq⟩
    have hchars : piece = ['.', '.'] := by
      have hlist := congrArg String.toList heq
      rwa [String.toList_ofList] at hlist
    exact hupward (hchars ▸ hpiece)

theorem isDownward_of_normalize {location relative : String}
    (h : normalize location = .ok relative) : IsDownward relative := by
  simp only [normalize] at h
  split at h
  · cases h
  · split at h
    · cases h
    · rename_i hupward
      split at h
      · cases h
      · obtain rfl := Except.ok.inj h
        refine isDownward_join (fun piece hpiece => ?_) (by simpa using hupward)
        obtain ⟨hpiece, hnamed⟩ := List.mem_filter.mp hpiece
        simp only [isNamed, Bool.and_eq_true, bne_iff_ne] at hnamed
        refine ⟨fun hslash => ?_, hnamed.1⟩
        simpa using Text.not_separator_of_mem_split hpiece _ hslash

end AssetLocation

open FileSystem

variable {files after : FileSystem} {root : String}

theorem lookupBelow_eq_ok_iff {id : String} {asset : Asset} {content : AssetContent} :
    lookupBelow files root id asset = .ok content ↔
      ∃ path bytes, candidatePath root id asset = .ok path ∧
        files.stat path = .ok (.file bytes) ∧ content = .path path := by
  simp only [lookupBelow, bind, Except.bind]
  cases candidatePath root id asset with
  | error error => simp
  | ok path =>
      cases hstat : files.stat path with
      | error error => cases error <;> simp [hstat, throw, throwThe, MonadExceptOf.throw]
      | ok entry =>
          cases entry <;> simp [hstat, throw, throwThe, MonadExceptOf.throw, pure, Except.pure, eq_comm]

theorem toOption_lookupBelow (htree : files.IsTree) {isNew : Location → Prop}
    (hframe : Frame Nowhere isNew files after) (hroot : files.IsSteady after root) (id : String)
    (asset : Asset) :
    (lookupBelow after root id asset).toOption = (lookupBelow files root id asset).toOption := by
  have hsame : ∀ content, lookupBelow after root id asset = .ok content ↔
      lookupBelow files root id asset = .ok content := by
    intro content
    rw [lookupBelow_eq_ok_iff, lookupBelow_eq_ok_iff]
    refine exists_congr fun path => exists_congr fun bytes => and_congr_right fun hpath =>
      and_congr_left fun _ => ?_
    unfold candidatePath at hpath
    split at hpath
    · rename_i relative hrelative
      obtain rfl := Except.ok.inj hpath
      have hdown := AssetLocation.isDownward_of_normalize hrelative
      exact htree.stat_join_iff hframe hroot hdown.not_absolute hdown.no_upward
    · cases hpath
  refine Option.ext fun content => ?_
  have hcontent := hsame content
  cases hafter : lookupBelow after root id asset <;>
    cases hbefore : lookupBelow files root id asset <;>
    simp [hafter, hbefore, Except.toOption] at hcontent ⊢ <;> exact hcontent

end Compositor
