import Compositor.Proofs.File.Tree

/-!
# Room for names

Whether a file can be written in a directory that is there.  No name may be too long,
and where the path leaves room for all others nothing stands in the way but a directory
of the same name.
-/

namespace Compositor

namespace FileSystem

variable {files after : FileSystem} {directory name : String} {content : List UInt8}

/-- A directory that can be followed, with room for all names that are not too long. -/
structure HasRoom (files : FileSystem) (directory : String) : Prop where
  reached : files.walk (files.route directory).1 (files.route directory).2 =
    .ok (files.place directory)
  there : files.entry? (files.place directory) = some .directory
  noZero : '\x00' ∉ directory.toList
  short : directory.utf8ByteSize + 1 + nameLimit < pathLimit

theorem HasRoom.mono (h : files.HasRoom directory) (hworking : after.working = files.working)
    (hkeeps : files.KeepsDirectories after) : after.HasRoom directory where
  reached := by
    rw [route_congr hworking, place_congr hworking]
    exact walk_mono hkeeps h.reached
  there := by
    rw [place_congr hworking]
    exact hkeeps _ h.there
  noZero := h.noZero
  short := h.short

theorem join_cases (hname : Path.IsPlain name) (directory : String) :
    Path.join directory name = directory ++ name ∨
      Path.join directory name = directory ++ "/" ++ name := by
  rw [Path.join, hname.not_isAbsolute, Bool.false_or]
  split
  · rename_i hempty
    exact .inl (by simp [of_decide_eq_true hempty])
  · split
    · exact .inl rfl
    · exact .inr rfl

/-- In a directory with room a name can be followed if it is not too long. -/
theorem HasRoom.locate_join (h : files.HasRoom directory) (hname : Path.IsPlain name)
    (hzero : '\x00' ∉ name.toList) (hlength : name.utf8ByteSize ≤ nameLimit) :
    files.locate (Path.join directory name) = .ok (files.place (Path.join directory name)) := by
  have hshort := h.short
  have hfound : files.walk (files.route (Path.join directory name)).1
      (files.route (Path.join directory name)).2 =
        .ok (files.place (Path.join directory name)) := by
    rw [route_join hname.not_isAbsolute, hname.names_eq, walk_append, h.reached, place_join hname]
    simp [Except.bind, walk, h.there, Nat.not_lt.mpr hlength, Location.enter, hname.ne_point,
      hname.ne_upward]
  have hpath : '\x00' ∉ (Path.join directory name).toList ∧ Path.join directory name ≠ "" ∧
      (Path.join directory name).utf8ByteSize < pathLimit := by
    rcases join_cases hname directory with heq | heq
    · rw [heq]
      simp [h.noZero, hzero, hname.ne_empty]
      omega
    · have hone : "/".utf8ByteSize = 1 := rfl
      rw [heq]
      simp [h.noZero, hzero, hone]
      omega
  rw [locate, if_neg (by simpa using hpath.1), if_neg hpath.2.1, if_neg (Nat.not_le.mpr hpath.2.2),
    hfound]

theorem le_nameLimit_of_write (hname : Path.IsPlain name)
    (h : files.write (Path.join directory name) content = .ok after) :
    name.utf8ByteSize ≤ nameLimit := by
  obtain ⟨hlocate, -, -⟩ := write_eq_ok h
  have hwalk := walk_of_locate hlocate
  rw [route_join hname.not_isAbsolute, hname.names_eq] at hwalk
  obtain ⟨found, -, hlast⟩ := walk_append_eq_ok_iff.mp hwalk
  simp only [walk] at hlast
  split at hlast
  · cases hlast
  · cases hlast
  · split at hlast
    · cases hlast
    · rename_i hlength
      exact Nat.not_lt.mp hlength

theorem HasRoom.write_join_iff (h : files.HasRoom directory) (hname : Path.IsPlain name)
    (hzero : '\x00' ∉ name.toList)
    (hfree : files.entry? (files.place directory ++ [name]) ≠ some .directory) :
    (∃ after, files.write (Path.join directory name) content = .ok after) ↔
      name.utf8ByteSize ≤ nameLimit := by
  constructor
  · rintro ⟨after, hwrite⟩
    exact le_nameLimit_of_write hname hwrite
  · intro hlength
    rw [← place_join hname] at hfree
    have hlocate := h.locate_join hname hzero hlength
    have hslash := endsInSlash_join hname directory
    generalize Path.join directory name = path at hfree hlocate hslash ⊢
    simp only [write, hlocate, hslash, bind, Except.bind]
    cases hentry : files.entry? (files.place path) with
    | none => exact ⟨_, rfl⟩
    | some entry =>
        cases entry with
        | directory => exact absurd hentry hfree
        | file => exact ⟨_, rfl⟩

end FileSystem

end Compositor
