import Compositor.Proofs.File.Tree
import Compositor.Proofs.Session.Accounting
import Compositor.Proofs.Session.Staging

/-!
# Staged bytes

Whatever the ids of the assets are, the bytes of each are staged in a file of their
own, straight in the scratch directory, and the engine finds them there as they
were fetched.  Assets that are files already are given to it where they are.
-/

namespace Compositor

namespace FileSystem

variable {files after : FileSystem} {path : String} {content : List UInt8}

theorem read_of_write (hslash : endsInSlash path = false)
    (h : files.write path content = .ok after) : after.read path = .ok content := by
  obtain ⟨hlocate, hentry, hafter⟩ := write_eq_ok h
  have hne : files.place path ≠ [] := by
    intro hroot
    simp [hroot] at hentry
  have hframe := frame_write h
  rw [read_eq_ok_iff, stat_eq_file_iff, hframe.place_eq]
  refine ⟨locate_mono hframe.working (keepsDirectories_write h) hlocate, hslash, ?_⟩
  rw [hafter]
  exact entry?_put_self hne _

theorem read_of_frame {isFree : Location → Prop} (hframe : Frame isFree Nowhere files after)
    (hkeeps : files.KeepsDirectories after) (hplace : ¬ isFree (files.place path))
    (h : files.read path = .ok content) : after.read path = .ok content := by
  rw [read_eq_ok_iff, stat_eq_file_iff] at h ⊢
  obtain ⟨hlocate, hslash, hentry⟩ := h
  rw [hframe.place_eq, hframe.entry?_eq hplace id]
  exact ⟨locate_mono hframe.working hkeeps hlocate, hslash, hentry⟩

end FileSystem

open FileSystem

theorem Staging.Resolves.of_get? {staging earlier : Staging} {scratch : Scratch} {item : Answered}
    {ids : List String} {path : String}
    (h : staging.Resolves FileSystem.stage scratch earlier.files item)
    (haccounts : staging.Accounts ids) (hpath : staging.paths.get? item.1.1 = some path) :
    item.1.2.2 = .ok (.path path) ∨
      ∃ content, item.1.2.2 = .ok (.bytes content) ∧ stagedPath scratch item = path ∧
        earlier.files.write (stagedPath scratch item) content =
          .ok (earlier.add scratch item).files := by
  have hnever (message : String) : ⟨item.1.1, message⟩ ∉ staging.failures := by
    intro hfailure
    have hfailed : item.1.1 ∈ staging.failedIds := List.mem_map_of_mem hfailure
    rw [haccounts.failedIds_eq, List.mem_filter, Table.contains, hpath] at hfailed
    simp at hfailed
  obtain ⟨⟨id, asset, answer⟩, index⟩ := item
  obtain error | (other | content) := answer
  · exact absurd h (hnever error.message)
  · have hother : staging.paths.get? id = some other := h
    rw [hother, Option.some.injEq] at hpath
    exact .inl (by rw [hpath])
  · simp only [Resolves, add] at h ⊢
    rcases stage_bytes earlier.files scratch index id asset content with
      ⟨error, hstaged⟩ | ⟨after, hwrite, hstaged⟩
    · rw [hstaged] at h
      exact absurd h (hnever error.message)
    · rw [hstaged] at h ⊢
      exact .inr ⟨content, rfl, Option.some.inj (h.symm.trans hpath), hwrite⟩

def Source.path? : Source → Option String
  | .file path | .still path _ _ => some path
  | .color _ _ _ _ => none

@[simp] theorem Source.path?_ofMedia (kind : MediaKind) (path : String) (duration : Float)
    (rate : Nat) : (Source.ofMedia kind path duration rate).path? = some path := by
  cases kind <;> rfl

/-- Among some files a path gives what an asset was fetched as. -/
inductive Presents (files : FileSystem) (path : String) : AssetContent → Prop
  | inPlace : Presents files path (.path path)
  | staged {content : List UInt8} : files.read path = .ok content →
      Presents files path (.bytes content)

/-- Each input that is read from a path is some asset as it was fetched, and assets that are files
are read where they are. -/
structure Plan.Delivers (plan : Plan) (timeline : Timeline) (lookup : Lookup)
    (files : FileSystem) : Prop where
  input : ∀ binding ∈ plan.inputs, ∀ path, binding.source.path? = some path →
    ∃ id asset content, binding.assetId = some id ∧ timeline.assets.get? id = some asset ∧
      lookup id asset = .ok content ∧ Presents files path content
  inPlace : ∀ id ∈ timeline.referencedIds, ∀ asset path, timeline.assets.get? id = some asset →
    lookup id asset = .ok (.path path) →
    ∃ binding ∈ plan.inputs, binding.assetId = some id ∧ binding.source.path? = some path

namespace Timeline

variable {timeline : Timeline} {paths : AssetPaths} {id path : String} {asset : Asset}

theorem exists_of_mem_inputs {binding : Binding}
    (hbinding : binding ∈ (timeline.compile paths).inputs)
    (hpath : binding.source.path? = some path) :
    ∃ id, binding.assetId = some id ∧ paths.get? id = some path := by
  unfold compile at hbinding
  split at hbinding
  · obtain rfl := List.mem_singleton.mp hbinding
    cases hpath
  · obtain ⟨slot, hslot, rfl⟩ := List.mem_mapIdx.mp hbinding
    obtain ⟨id, -, hbound⟩ := List.mem_filterMap.mp (List.getElem_mem hslot)
    obtain ⟨asset, found, -, hfound, heq⟩ := (timeline.bound?_eq_some_iff paths).mp hbound
    simp only [heq, Source.path?_ofMedia, Option.some.injEq] at hpath ⊢
    exact ⟨id, rfl, hpath ▸ hfound⟩

theorem exists_input (hid : id ∈ timeline.referencedIds)
    (hasset : timeline.assets.get? id = some asset) (hpath : paths.get? id = some path) :
    ∃ binding ∈ (timeline.compile paths).inputs, binding.assetId = some id ∧
      binding.source.path? = some path := by
  have hbound : ⟨id, asset.kind, path⟩ ∈ timeline.boundAssets paths :=
    List.mem_filterMap.mpr ⟨id, hid,
      (timeline.bound?_eq_some_iff paths).mpr ⟨asset, path, hasset, hpath, rfl⟩⟩
  obtain ⟨slot, hslot, heq⟩ := List.mem_iff_getElem.mp hbound
  have hbinding : ⟨slot, some id, .ofMedia asset.kind path timeline.settings.duration
      timeline.settings.frameRate.perSecond⟩ ∈ timeline.bindings paths :=
    List.mem_mapIdx.mpr ⟨slot, hslot, by rw [heq]⟩
  have hfilled : (timeline.bindings paths).isEmpty = false :=
    List.isEmpty_eq_false_iff_exists_mem.mpr ⟨_, hbinding⟩
  rw [compile, hfilled]
  exact ⟨_, hbinding, rfl, Source.path?_ofMedia _ _ _ _⟩

end Timeline

namespace Session

variable {session : Session} {files : FileSystem} {scratch : Scratch}

/-- A step of staging touches at most one place, straight in the scratch directory: there it puts
the bytes of its answer, and no earlier step has touched it. -/
structure StagesApart (session : Session) (files : FileSystem) (scratch : Scratch)
    (done : List Answered) (item : Answered) : Prop where
  plain : Path.IsPlain (stagedName item.2 item.1.1 item.1.2.1)
  change : (session.stagedSome files scratch (done ++ [item])).files =
      (session.stagedSome files scratch done).files ∨
    ∃ content, item.1.2.2 = .ok (.bytes content) ∧
      (session.stagedSome files scratch (done ++ [item])).files =
        (session.stagedSome files scratch done).files.put (stagedPlace scratch item) (.file content)
  apart : ∀ earlier ∈ done, stagedPlace scratch earlier ≠ stagedPlace scratch item
  untouched : (session.stagedSome files scratch done).files.entry? (stagedPlace scratch item) =
    files.entry? (stagedPlace scratch item)

theorem stagedSome_eq (hstage : session.stage = FileSystem.stage) (done : List Answered) :
    session.stagedSome files scratch done =
      done.foldl (Staging.add scratch) ⟨files, .empty, []⟩ := by
  rw [stagedSome, hstage, Staging.addBy_stage]

theorem stagedSome_concat (hstage : session.stage = FileSystem.stage) (done : List Answered)
    (item : Answered) : session.stagedSome files scratch (done ++ [item]) =
      (session.stagedSome files scratch done).add scratch item := by
  rw [stagedSome_eq hstage, stagedSome_eq hstage, List.foldl_append, List.foldl_cons,
    List.foldl_nil]

theorem staged_eq_foldl (hstage : session.stage = FileSystem.stage) {done rest : List Answered}
    (hsplit : session.answers = done ++ rest) : session.staged files scratch =
      rest.foldl (Staging.add scratch) (session.stagedSome files scratch done) := by
  rw [staged, stagedSome_eq hstage, stagedSome_eq hstage, hsplit, List.foldl_append]

theorem Made.location_eq (hmade : session.Made files scratch) :
    scratch.location = files.place scratch.path := by
  have hscratch := FileSystem.isScratch_makeScratch hmade.made
  rw [hscratch.location_eq, hscratch.frame.place_eq]

theorem Made.location_eq_stagedSome (hmade : session.Made files scratch)
    (hstage : session.stage = FileSystem.stage) (done : List Answered) :
    scratch.location = (session.stagedSome files scratch done).files.place scratch.path := by
  have hframe := Staging.frame_foldl_add_places done ⟨files, .empty, []⟩ hmade.location_eq
  rw [stagedSome_eq hstage, hframe.place_eq]
  exact hmade.location_eq

theorem numbers_ne {done rest : List Answered} {item : Answered}
    (hsplit : session.answers = done ++ item :: rest) :
    (∀ earlier ∈ done, earlier.2 ≠ item.2) ∧ ∀ later ∈ rest, item.2 ≠ later.2 := by
  have hnodup : (session.answers.map Prod.snd).Nodup := by
    rw [answers, List.zipIdx_map_snd]
    exact List.nodup_range'
  rw [hsplit, List.map_append, List.map_cons, List.nodup_append] at hnodup
  obtain ⟨-, hrest, hdisjoint⟩ := hnodup
  constructor
  · intro earlier hearlier
    exact hdisjoint _ (List.mem_map_of_mem hearlier) _ List.mem_cons_self
  · intro later hlater heq
    exact (List.nodup_cons.mp hrest).1 (heq ▸ List.mem_map_of_mem hlater)

theorem stagesApart_of_split (hmade : session.Made files scratch)
    (hstage : session.stage = FileSystem.stage) {done rest : List Answered} {item : Answered}
    (hsplit : session.answers = done ++ item :: rest) :
    session.StagesApart files scratch done item where
  plain := isPlain_stagedName _ _ _
  change := by
    rw [stagedSome_concat hstage]
    have hlocation := hmade.location_eq_stagedSome hstage done
    generalize session.stagedSome files scratch done = staging at hlocation ⊢
    rcases staging.files_add_cases scratch item with hsame | ⟨content, hanswer, hwrite⟩
    · exact .inl hsame
    · obtain ⟨-, -, hafter⟩ := write_eq_ok hwrite
      rw [place_stagedPath hlocation] at hafter
      exact .inr ⟨content, hanswer, hafter⟩
  apart earlier hearlier := stagedPlace_ne ((numbers_ne hsplit).1 earlier hearlier) scratch
  untouched := by
    rw [stagedSome_eq hstage]
    apply (Staging.frame_foldl_add_places done ⟨files, .empty, []⟩ hmade.location_eq).entry?_eq
    · rintro ⟨earlier, hearlier, heq⟩
      exact stagedPlace_ne ((numbers_ne hsplit).1 earlier hearlier) scratch heq.symm
    · exact id

/-! ## Staged bytes in the end -/

/-- What a step has written is still there when all is staged. -/
theorem read_staged (hmade : session.Made files scratch)
    (hstage : session.stage = FileSystem.stage) {done rest : List Answered} {item : Answered}
    (hsplit : session.answers = done ++ item :: rest) {content : List UInt8}
    (hwrite :
      (session.stagedSome files scratch done).files.write (stagedPath scratch item) content =
        .ok (session.stagedSome files scratch (done ++ [item])).files) :
    (session.staged files scratch).files.read (stagedPath scratch item) = .ok content := by
  have hlocation := hmade.location_eq_stagedSome hstage (done ++ [item])
  have hread := read_of_write (endsInSlash_stagedPath scratch item) hwrite
  rw [staged_eq_foldl hstage (hsplit.trans (List.append_cons done item rest))]
  apply read_of_frame (Staging.frame_foldl_add_places rest _ hlocation) _ _ hread
  · exact Staging.keepsDirectories_foldl_add rest _
  · rw [place_stagedPath hlocation]
    rintro ⟨later, hlater, heq⟩
    exact stagedPlace_ne ((numbers_ne hsplit).2 later hlater) scratch heq

theorem mem_answers {item : Answered} (hitem : item ∈ session.answers) :
    session.timeline.assets.get? item.1.1 = some item.1.2.1 ∧
      item.1.2.2 = session.lookup item.1.1 item.1.2.1 := by
  obtain ⟨⟨id, asset⟩, hused, heq⟩ := List.mem_map.mp (List.fst_mem_of_mem_zipIdx hitem)
  obtain ⟨other, -, hother⟩ := List.mem_filterMap.mp hused
  obtain ⟨found, hfound, heq'⟩ := Option.map_eq_some_iff.mp hother
  cases heq'
  rw [← heq]
  exact ⟨hfound, rfl⟩

theorem exists_answer (hmade : session.Made files scratch) {id : String}
    (hid : id ∈ session.timeline.referencedIds) :
    ∃ done item rest, session.answers = done ++ item :: rest ∧ item.1.1 = id := by
  rw [← map_id_answers hmade.valid] at hid
  obtain ⟨item, hitem, heq⟩ := List.mem_map.mp hid
  obtain ⟨done, rest, hsplit⟩ := List.append_of_mem hitem
  exact ⟨done, item, rest, hsplit, heq⟩

theorem presents_staged (hmade : session.Made files scratch)
    (hstage : session.stage = FileSystem.stage) {id path : String}
    (hpath : (session.staged files scratch).paths.get? id = some path) :
    ∃ asset content, session.timeline.assets.get? id = some asset ∧
      session.lookup id asset = .ok content ∧
      Presents (session.staged files scratch).files path content := by
  have haccounts := accounts_staged hmade.valid files scratch
  have hcontains : (session.staged files scratch).paths.contains id = true := by
    rw [Table.contains, hpath, Option.isSome_some]
  obtain ⟨done, item, rest, hsplit, rfl⟩ :=
    exists_answer hmade (haccounts.mem_of_contains id hcontains)
  have hresolves := resolves_staged hmade.valid files scratch done item rest hsplit
  rw [hstage] at hresolves
  have hmem : item ∈ session.answers := by
    rw [hsplit]
    exact List.mem_append_right _ List.mem_cons_self
  obtain ⟨hasset, hanswer⟩ := mem_answers hmem
  rcases hresolves.of_get? haccounts hpath with hdone | ⟨content, hdone, rfl, hwrite⟩
  · exact ⟨_, _, hasset, hanswer.symm.trans hdone, .inPlace⟩
  · rw [← stagedSome_concat hstage] at hwrite
    exact ⟨_, _, hasset, hanswer.symm.trans hdone, .staged (read_staged hmade hstage hsplit hwrite)⟩

theorem get?_staged_of_path (hmade : session.Made files scratch)
    (hstage : session.stage = FileSystem.stage) {id path : String} {asset : Asset}
    (hid : id ∈ session.timeline.referencedIds)
    (hasset : session.timeline.assets.get? id = some asset)
    (hlookup : session.lookup id asset = .ok (.path path)) :
    (session.staged files scratch).paths.get? id = some path := by
  obtain ⟨done, item, rest, hsplit, rfl⟩ := exists_answer hmade hid
  have hresolves := resolves_staged hmade.valid files scratch done item rest hsplit
  have hmem : item ∈ session.answers := by
    rw [hsplit]
    exact List.mem_append_right _ List.mem_cons_self
  obtain ⟨hfound, hanswer⟩ := mem_answers hmem
  rw [hasset, Option.some.injEq] at hfound
  rw [← hfound, hlookup] at hanswer
  rw [Staging.Resolves, hanswer, hstage] at hresolves
  exact hresolves

theorem delivers_callOf (hmade : session.Made files scratch)
    (hstage : session.stage = FileSystem.stage) :
    (session.callOf files scratch).plan.Delivers session.timeline session.lookup
      (session.staged files scratch).files where
  input binding hbinding path hpath := by
    obtain ⟨id, hid, hfound⟩ := Timeline.exists_of_mem_inputs hbinding hpath
    obtain ⟨asset, content, hasset, hlookup, hpresents⟩ := presents_staged hmade hstage hfound
    exact ⟨id, asset, content, hid, hasset, hlookup, hpresents⟩
  inPlace id hid asset path hasset hlookup :=
    Timeline.exists_input hid hasset (get?_staged_of_path hmade hstage hid hasset hlookup)

theorem of_job_eq_some (hmade : session.Made files scratch)
    (hstage : session.stage = FileSystem.stage) {cancellation : Cancellation} {job : Job}
    {found : FileSystem} (h : (session.runAtOnce cancellation).job = some (job, found)) :
    job.plan = (session.callOf files scratch).plan ∧
      found = (session.staged files scratch).files := by
  obtain ⟨_, calls, hconclusion⟩ := session.exists_conclusion hstage cancellation
  generalize session.runAtOnce cancellation = report at h hconclusion
  cases hconclusion with
  | rendered isCancelled hmade' =>
      obtain ⟨rfl, rfl⟩ := hmade.unique hmade'
      cases h
      exact ⟨rfl, rfl⟩
  | _ => cases h

/-- From the first answer to the call of the engine, what was fetched stays as it was fetched. -/
structure KeepsBytes (session : Session) (files : FileSystem) (scratch : Scratch) : Prop where
  steps : ∀ done item rest, session.answers = done ++ item :: rest →
    session.StagesApart files scratch done item
  calls : ∀ events, ∀ call ∈ (session.execute events).calls,
    call.staging = session.stagedSome files scratch session.answers ∧
      call.plan.Delivers session.timeline session.lookup call.staging.files
  runs : ∀ cancellation job found, (session.runAtOnce cancellation).job = some (job, found) →
    found = (session.stagedSome files scratch session.answers).files ∧
      job.plan.Delivers session.timeline session.lookup found

theorem keepsBytes_of_made (session : Session) (files : FileSystem) (scratch : Scratch)
    (hstage : session.stage = FileSystem.stage) (hmade : session.Made files scratch) :
    session.KeepsBytes files scratch where
  steps _ _ _ := stagesApart_of_split hmade hstage
  calls events call hcall := by
    obtain ⟨files', scratch', hmade', rfl, -⟩ := (called_of_mem hcall).phase
    obtain ⟨rfl, rfl⟩ := hmade.unique hmade'
    exact ⟨rfl, delivers_callOf hmade hstage⟩
  runs cancellation job found hjob := by
    obtain ⟨hplan, rfl⟩ := of_job_eq_some hmade hstage hjob
    rw [hplan]
    exact ⟨rfl, delivers_callOf hmade hstage⟩

def alike : Session where
  options := ⟨"out", "tmp", 1000, true⟩
  draw := ⟨⟨0⟩, "abc", 5⟩
  lookup := lookupTable (.ofList [("a/b", .bytes [1]), ("a?b", .bytes [2]), ("..", .bytes []),
    ("\x00", .bytes [3]), ("p", .path "/media/p.mp4")])
  stage := FileSystem.stage
  engine _ files := ⟨files, [], .endless⟩
  timeline :=
    ⟨[⟨"t", .video, "",
        ["a/b", "a?b", "..", "\x00", "p", "q"].map fun id =>
          ⟨"c", id, "t", 0.0, 1.0, 1.0, 0.0, 0.0, .cut⟩, false, 1.0⟩],
      .default "x" 2.0,
      .ofList (["a/b", "a?b", "..", "\x00", "p", "q"].map fun id => (id, .plain .video id))⟩
  files := ⟨[], []⟩

theorem keepsBytes_of_made_alike :
    fileStem "a/b" = fileStem "a?b" ∧ alike.stage = FileSystem.stage ∧
      ((alike.runAtOnce .never).job.map fun job => job.1.plan.inputs.length) = some 5 ∧
      ∃ files scratch, alike.Made files scratch ∧ alike.KeepsBytes files scratch := by
  have hvalid : alike.timeline.validate = .ok () :=
    Timeline.validate_of_isNone (by decide +kernel)
  obtain ⟨files, scratch, hmake⟩ := exists_eq_of_isSome (by decide +kernel :
    (alike.files.makeScratch alike.options.scratchRoot
      alike.draw.scratchName).2.toOption.isSome = true)
  have hmade : alike.Made files scratch := ⟨hvalid, hmake⟩
  exact ⟨by decide, rfl, by decide +kernel, files, scratch, hmade,
    keepsBytes_of_made alike files scratch rfl hmade⟩

end Session

end Compositor
