import Compositor.Proofs.File.Room
import Compositor.Proofs.Session.StagedBytes
import Compositor.Proofs.Timeline.Problems

/-!
# Lengths of generated names

The stem of a name is as long as the text that it is made of, blanks around it apart,
and neither the check of a timeline nor the making of a name sets it a limit.  So a
name may be too long for a file system.  What this decides is just whether the bytes
of an asset can be staged and whether the output can be written: where there is room
for every name that is not too long, nothing else stands in the way.
-/

namespace Compositor

theorem utf8Size_of_isPortable {char : Char} (h : isPortable char = true) : char.utf8Size = 1 := by
  have hlast : char.val ≤ 'z'.val := by
    have hletter : 'Z'.val ≤ 'z'.val := by decide
    have hdigit : '9'.val ≤ 'z'.val := by decide
    simp only [isPortable, Decimal.isDigit, Bool.or_eq_true, decide_eq_true_eq, beq_iff_eq] at h
    rcases h with (((h | h) | h) | rfl) | rfl
    · exact h.2
    · exact UInt32.le_trans h.2 hletter
    · exact UInt32.le_trans h.2 hdigit
    · decide
    · decide
  exact Char.utf8Size_eq_one_iff.mpr (UInt32.le_trans hlast (by decide))

theorem utf8ByteSize_ofList {chars : List Char} (h : ∀ char ∈ chars, char.utf8Size = 1) :
    (String.ofList chars).utf8ByteSize = chars.length := by
  induction chars with
  | nil => rfl
  | cons char chars ih =>
      obtain ⟨hchar, hchars⟩ := List.forall_mem_cons.mp h
      rw [String.ofList_cons, String.utf8ByteSize_append, String.utf8ByteSize_singleton, hchar,
        ih hchars, List.length_cons, Nat.add_comm]

theorem Parted.utf8ByteSize_eq {name : String} {stem extension : List Char}
    (h : Parted name stem extension) :
    name.utf8ByteSize = stem.length + 1 + extension.length := by
  have hsize : ∀ char ∈ name.toList, char.utf8Size = 1 := by
    intro char hchar
    rcases h.portable_of_mem hchar with hportable | rfl
    · exact utf8Size_of_isPortable hportable
    · rfl
  rw [← String.ofList_toList (s := name), utf8ByteSize_ofList hsize, h.chars, List.length_append,
    List.length_cons]
  omega

theorem Parted.noZero {name : String} {stem extension : List Char}
    (h : Parted name stem extension) : '\x00' ∉ name.toList := fun hzero =>
  absurd (h.portable_of_mem hzero) (by decide)

/-- As many characters of a name come from a text. -/
def stemLength (text : String) : Nat :=
  match (Text.trim text.toList).length with
  | 0 => 8
  | length => length

theorem length_fileStem (text : String) : (fileStem text).toList.length = stemLength text := by
  cases htrim : Text.trim text.toList with
  | nil => simp [fileStem, stemLength, htrim]
  | cons char chars => simp [fileStem, stemLength, htrim]

theorem stemLength_replicate (count : Nat) {char : Char} (h : Text.isBlank char = false) :
    stemLength (String.ofList (.replicate (count + 1) char)) = count + 1 := by
  have htrim : Text.trim (.replicate (count + 1) char) = .replicate (count + 1) char := by
    simp only [Text.trim, Text.trimEnd, List.dropWhile_replicate, h, List.reverse_replicate,
      Bool.false_eq_true, if_false]
  rw [stemLength, String.toList_ofList, htrim, List.length_replicate]
  rfl

section Sizes

variable {index : Nat} {id title : String} {asset : Asset} {run : RunId} {millis : Nat}

theorem utf8ByteSize_stagedName (h : index < 1000) :
    (stagedName index id asset).utf8ByteSize =
      stemLength id + (stagedExtension asset).toList.length + 5 := by
  have hdigits : (Decimal.wholeDigits index).length ≤ 3 :=
    Decimal.digitCount_le_of_lt (by simpa using h : index < 10 ^ (2 + 1))
  rw [(parted_stagedName index id asset).utf8ByteSize_eq, stagedStem, List.length_append,
    List.length_cons, length_fileStem]
  simp only [Decimal.paddedWhole, Decimal.zeros, String.toList_ofList, List.length_append,
    List.length_replicate]
  omega

theorem utf8ByteSize_outputName :
    (outputName title run millis).utf8ByteSize =
      stemLength title + Decimal.digitCount millis + 23 := by
  rw [(parted_outputName title run millis).utf8ByteSize_eq, outputStem]
  simp [length_fileStem, length_short, Decimal.digitCount]
  omega

/-- With a number of three digits. -/
theorem stagedName_le_nameLimit_iff (h : index < 1000) :
    (stagedName index id asset).utf8ByteSize ≤ FileSystem.nameLimit ↔
      stemLength id + (stagedExtension asset).toList.length ≤ 250 := by
  rw [utf8ByteSize_stagedName h, FileSystem.nameLimit]
  omega

theorem outputName_le_nameLimit_iff :
    (outputName title run millis).utf8ByteSize ≤ FileSystem.nameLimit ↔
      stemLength title + Decimal.digitCount millis ≤ 232 := by
  rw [utf8ByteSize_outputName, FileSystem.nameLimit]
  omega

end Sizes

/-! ## Names of a run -/

namespace Session

open FileSystem

variable {session : Session} {files : FileSystem} {scratch : Scratch}

def output (session : Session) : String :=
  outputPath session.options session.draw session.timeline.settings.title

theorem le_nameLimit_of_write_output {found after : FileSystem} {content : List UInt8}
    (h : found.write session.output content = .ok after) :
    (outputName session.timeline.settings.title session.draw.id session.draw.millis).utf8ByteSize ≤
      nameLimit := by
  rw [output, outputPath] at h
  exact le_nameLimit_of_write (isPlain_outputName _ _ _) h

theorem Made.nothing_below (hmade : session.Made files scratch) (htree : session.files.IsTree)
    (name : String) : files.entry? (scratch.location ++ [name]) = none := by
  obtain ⟨hmake, hlocation⟩ := exists_makeDirectory_of_makeScratch hmade.made
  have hmiddle := htree.ensurePath session.options.scratchRoot
  obtain ⟨hnone, hafter⟩ := makeDirectory_eq_ok hmake
  rw [← hlocation] at hnone hafter
  rw [hafter, entry?_put_of_ne (by simp)]
  exact hmiddle.nothing_below hnone (List.prefix_append _ _)

theorem Made.hasRoom (hmade : session.Made files scratch)
    (hshort : scratch.path.utf8ByteSize + 1 + nameLimit < pathLimit) :
    files.HasRoom scratch.path := by
  obtain ⟨hmake, hlocation⟩ := exists_makeDirectory_of_makeScratch hmade.made
  have hlocate := locate_of_makeDirectory hmake
  have hframe := frame_makeDirectory hmake
  have hmiddle := walk_of_locate hlocate
  refine ⟨?_, ?_, ?_, hshort⟩
  · rw [route_congr hframe.working, hframe.place_eq]
    exact walk_mono hframe.keepsDirectories hmiddle
  · rw [hframe.place_eq, (makeDirectory_eq_ok hmake).2]
    exact entry?_put_self (place_ne_nil_of_makeDirectory hmake) _
  · intro hzero
    simp [locate, hzero] at hlocate

theorem hasRoom_stagedSome (hstage : session.stage = FileSystem.stage)
    (hroom : files.HasRoom scratch.path) (hmade : session.Made files scratch)
    (done : List Answered) :
    (session.stagedSome files scratch done).files.HasRoom scratch.path := by
  rw [stagedSome_eq hstage]
  exact hroom.mono (Staging.frame_foldl_add_places done ⟨files, .empty, []⟩
    hmade.location_eq).working (Staging.keepsDirectories_foldl_add done ⟨files, .empty, []⟩)

theorem write_staged_iff (hmade : session.Made files scratch)
    (hstage : session.stage = FileSystem.stage) (htree : session.files.IsTree)
    (hshort : scratch.path.utf8ByteSize + 1 + nameLimit < pathLimit)
    {done rest : List Answered} {item : Answered} (hsplit : session.answers = done ++ item :: rest)
    (content : List UInt8) :
    (∃ after,
      (session.stagedSome files scratch done).files.write (stagedPath scratch item) content =
        .ok after) ↔
      (stagedName item.2 item.1.1 item.1.2.1).utf8ByteSize ≤ nameLimit := by
  have hapart := stagesApart_of_split hmade hstage hsplit
  have hroom := hasRoom_stagedSome hstage (hmade.hasRoom hshort) hmade done
  have hnothing := hapart.untouched.trans (hmade.nothing_below htree _)
  rw [stagedPlace, hmade.location_eq_stagedSome hstage done] at hnothing
  have hfree : (session.stagedSome files scratch done).files.entry?
      ((session.stagedSome files scratch done).files.place scratch.path ++
        [stagedName item.2 item.1.1 item.1.2.1]) ≠ some .directory := by
    simp [hnothing]
  exact hroom.write_join_iff hapart.plain (parted_stagedName _ _ _).noZero hfree

theorem not_write_of_stage_error {index : Nat} {id : String} {asset : Asset}
    {content : List UInt8} {error : RenderError}
    (h : files.stage scratch index id asset (.bytes content) = (files, .error error)) :
    ¬ ∃ after,
      files.write (Path.join scratch.path (stagedName index id asset)) content = .ok after := by
  rintro ⟨after, hwrite⟩
  unfold FileSystem.stage at h
  dsimp only at h
  generalize Path.join scratch.path (stagedName index id asset) = path at h hwrite
  rw [hwrite] at h
  cases h

theorem mem_failedIds_iff (hmade : session.Made files scratch) {item : Answered}
    (hitem : item ∈ session.answers) :
    item.1.1 ∈ (session.staged files scratch).failedIds ↔
      (session.staged files scratch).paths.get? item.1.1 = none := by
  have hid : item.1.1 ∈ session.timeline.referencedIds := by
    rw [← map_id_answers hmade.valid]
    exact List.mem_map_of_mem hitem
  simp [(accounts_staged hmade.valid files scratch).failedIds_eq, hid, Table.contains]

/-- Fetched bytes are staged just if their name is not too long, and else they are a failure. -/
theorem get?_staged_bytes_iff (hmade : session.Made files scratch)
    (hstage : session.stage = FileSystem.stage) (htree : session.files.IsTree)
    (hshort : scratch.path.utf8ByteSize + 1 + nameLimit < pathLimit) {item : Answered}
    (hitem : item ∈ session.answers) {content : List UInt8}
    (hanswer : item.1.2.2 = .ok (.bytes content)) :
    ((session.staged files scratch).paths.get? item.1.1 = some (stagedPath scratch item) ↔
      (stagedName item.2 item.1.1 item.1.2.1).utf8ByteSize ≤ nameLimit) ∧
    (item.1.1 ∈ (session.staged files scratch).failedIds ↔
      nameLimit < (stagedName item.2 item.1.1 item.1.2.1).utf8ByteSize) := by
  obtain ⟨done, rest, hsplit⟩ := List.append_of_mem hitem
  have hwritten := write_staged_iff hmade hstage htree hshort hsplit content
  have hresolves := resolves_staged hmade.valid files scratch done item rest hsplit
  have hfailed := mem_failedIds_iff hmade hitem
  rw [Staging.Resolves, hanswer, hstage] at hresolves
  dsimp only at hresolves
  rcases stage_bytes (session.stagedSome files scratch done).files scratch item.2 item.1.1
      item.1.2.1 content with ⟨error, hstaged⟩ | ⟨after, hwrite, hstaged⟩
  · rw [hstaged] at hresolves
    have hmem : item.1.1 ∈ (session.staged files scratch).failedIds :=
      List.mem_map_of_mem hresolves
    have hlong : ¬ (stagedName item.2 item.1.1 item.1.2.1).utf8ByteSize ≤ nameLimit := fun hfits =>
      not_write_of_stage_error hstaged (hwritten.mpr hfits)
    rw [hfailed.mp hmem]
    simp [hmem, hlong, Nat.not_le.mp hlong]
  · rw [hstaged] at hresolves
    have hfits := hwritten.mp ⟨after, hwrite⟩
    have hfound : (session.staged files scratch).paths.get? item.1.1 =
        some (stagedPath scratch item) := hresolves
    rw [hfailed, hfound]
    simp [hfits]

/-- A run can write its files just as far as their names are short enough. -/
structure WritesShort (session : Session) (files : FileSystem) (scratch : Scratch) : Prop where
  staged : ∀ item ∈ session.answers, ∀ content, item.1.2.2 = .ok (.bytes content) →
    ((session.staged files scratch).paths.get? item.1.1 = some (stagedPath scratch item) ↔
      (stagedName item.2 item.1.1 item.1.2.1).utf8ByteSize ≤ nameLimit) ∧
    (item.1.1 ∈ (session.staged files scratch).failedIds ↔
      nameLimit < (stagedName item.2 item.1.1 item.1.2.1).utf8ByteSize)
  output : ∀ (found : FileSystem) content, found.HasRoom session.options.outputDirectory →
    found.entry? (found.place session.output) ≠ some .directory →
    ((∃ after, found.write session.output content = .ok after) ↔
      stemLength session.timeline.settings.title + Decimal.digitCount session.draw.millis ≤ 232)
  stagedNames : ∀ index id asset, index < 1000 →
    ((stagedName index id asset).utf8ByteSize ≤ nameLimit ↔
      stemLength id + (stagedExtension asset).toList.length ≤ 250)
  outputNames : ∀ title run millis, (outputName title run millis).utf8ByteSize ≤ nameLimit ↔
    stemLength title + Decimal.digitCount millis ≤ 232
  digits : ∀ millis < 10 ^ 15, Decimal.digitCount millis ≤ 15

theorem writesShort_of_made (session : Session) (files : FileSystem) (scratch : Scratch)
    (hstage : session.stage = FileSystem.stage) (hmade : session.Made files scratch)
    (htree : session.files.IsTree)
    (hshort : scratch.path.utf8ByteSize + 1 + nameLimit < pathLimit) :
    session.WritesShort files scratch where
  staged _ hitem _ := get?_staged_bytes_iff hmade hstage htree hshort hitem
  output found content hroom hfree := by
    have hname := isPlain_outputName session.timeline.settings.title session.draw.id
      session.draw.millis
    rw [output, outputPath, place_join hname] at hfree
    rw [output, outputPath, hroom.write_join_iff hname (parted_outputName _ _ _).noZero hfree]
    exact outputName_le_nameLimit_iff
  stagedNames _ _ _ := stagedName_le_nameLimit_iff
  outputNames _ _ _ := outputName_le_nameLimit_iff
  digits _ := Decimal.digitCount_le_of_lt

def wordy (text : String) : Session where
  options := ⟨"out", "tmp", 1000, true⟩
  draw := ⟨⟨0⟩, "abc", 5⟩
  lookup _ _ := .ok (.bytes [1])
  stage := FileSystem.stage
  engine _ files := ⟨files, [], .endless⟩
  timeline :=
    ⟨[⟨"t", .video, "", [⟨"c", text, "t", 0.0, 1.0, 1.0, 0.0, 0.0, .cut⟩], false, 1.0⟩],
      .default text 2.0, .ofList [(text, .plain .video text)]⟩
  files := ⟨[], []⟩

theorem validate_wordy (text : String) : (wordy text).timeline.validate = .ok () := by
  have hasset : (wordy text).timeline.assets.get? text = some (.plain .video text) :=
    (Table.get?_ofList_eq_some_iff (by simp)).mpr List.mem_cons_self
  have hzero : IsNotNegative 0.0 := by decide +kernel
  have hone : IsPositive 1.0 ∧ IsNotNegative 1.0 := by decide +kernel
  have htwo : IsPositive 2.0 := by decide +kernel
  rw [Timeline.validate_eq_ok_iff_isWellFormed]
  refine ⟨htwo, fun track htrack => ?_, fun track htrack clip hclip => ?_⟩
  · obtain rfl := List.mem_singleton.mp htrack
    exact hone.2
  · obtain rfl := List.mem_singleton.mp htrack
    obtain rfl := List.mem_singleton.mp hclip
    exact ⟨⟨_, hasset, .picture (.inl rfl) (.inl rfl)⟩, ⟨_, List.mem_cons_self, rfl⟩, hzero,
      hone.1, hone.2, hzero, hzero⟩

theorem exists_made_wordy (text : String) : ∃ files scratch, (wordy text).Made files scratch ∧
    (wordy text).files.IsTree ∧ scratch.path.utf8ByteSize + 1 + nameLimit < pathLimit := by
  obtain ⟨files, scratch, hmake⟩ := exists_eq_of_isSome (by decide +kernel :
    (makeScratch ⟨[], []⟩ "tmp" ⟨⟨0⟩, "abc"⟩).2.toOption.isSome = true)
  refine ⟨files, scratch, ⟨validate_wordy text, hmake⟩, isTree_of_entries fun _ => nofun, ?_⟩
  rw [(isScratch_makeScratch hmake).path_eq]
  decide +kernel

theorem writesShort_of_made_wordy : (wordy "x").stage = FileSystem.stage ∧ ∃ files scratch,
    (wordy "x").Made files scratch ∧ (wordy "x").files.IsTree ∧
      scratch.path.utf8ByteSize + 1 + nameLimit < pathLimit ∧
      (wordy "x").WritesShort files scratch := by
  obtain ⟨files, scratch, hmade, htree, hshort⟩ := exists_made_wordy "x"
  exact ⟨rfl, files, scratch, hmade, htree, hshort,
    writesShort_of_made (wordy "x") files scratch rfl hmade htree hshort⟩

def longText : String := String.ofList (.replicate 300 'b')

/-- The timeline is fine, but bytes that were fetched for it are lost, and its output can be written
nowhere. -/
theorem not_written_wordy :
    (wordy longText).draw.millis < 10 ^ 15 ∧
    nameLimit < (outputName (wordy longText).timeline.settings.title (wordy longText).draw.id
      (wordy longText).draw.millis).utf8ByteSize ∧
    (∀ (found : FileSystem) content after,
      found.write (wordy longText).output content ≠ .ok after) ∧
    ∃ files scratch, (wordy longText).Made files scratch ∧
      ∃ item ∈ (wordy longText).answers, item.2 < 1000 ∧ item.1.2.2 = .ok (.bytes [1]) ∧
        nameLimit < (stagedName item.2 item.1.1 item.1.2.1).utf8ByteSize ∧
        item.1.1 ∈ ((wordy longText).staged files scratch).failedIds := by
  obtain ⟨files, scratch, hmade, htree, hshort⟩ := exists_made_wordy longText
  have hlong : stemLength longText = 300 := stemLength_replicate 299 (by decide)
  generalize longText = text at hmade htree hshort hlong ⊢
  have houtput : nameLimit < (outputName (wordy text).timeline.settings.title (wordy text).draw.id
      (wordy text).draw.millis).utf8ByteSize := by
    have htitle : stemLength (wordy text).timeline.settings.title = 300 := hlong
    rw [← Nat.not_le, outputName_le_nameLimit_iff, htitle]
    omega
  have hnever (found : FileSystem) (content : List UInt8) (after : FileSystem) :
      found.write (wordy text).output content ≠ .ok after := fun hwrite =>
    Nat.not_lt.mpr (le_nameLimit_of_write_output hwrite) houtput
  refine ⟨show 5 < 10 ^ 15 by decide, houtput, hnever, files, scratch, hmade, ?_⟩
  have hids : (wordy text).timeline.referencedIds = [text] := by
    simp [Timeline.referencedIds, Timeline.placements, wordy, List.eraseDups_cons]
  obtain ⟨done, item, rest, hsplit, hid⟩ :=
    exists_answer hmade (hids ▸ List.mem_singleton_self text)
  have hitem : item ∈ (wordy text).answers := by simp [hsplit]
  have hindex : item.2 < 1000 := by
    have hcount := congrArg List.length (map_id_answers hmade.valid)
    have hbelow := List.snd_lt_of_mem_zipIdx hitem
    simp only [hids, answers, List.length_map, List.length_zipIdx, List.length_singleton] at hcount
    omega
  have hbytes : item.1.2.2 = .ok (.bytes [1]) := (mem_answers hitem).2
  have hname : nameLimit < (stagedName item.2 item.1.1 item.1.2.1).utf8ByteSize := by
    rw [← Nat.not_le, stagedName_le_nameLimit_iff hindex, hid, hlong]
    omega
  exact ⟨item, hitem, hindex, hbytes, hname,
    (get?_staged_bytes_iff hmade rfl htree hshort hitem hbytes).2.mpr hname⟩

end Session

end Compositor
