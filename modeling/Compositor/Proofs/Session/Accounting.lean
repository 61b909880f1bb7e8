import Compositor.Proofs.Compile.Counts
import Compositor.Proofs.Compile.Inputs
import Compositor.Proofs.Session.Schedule
import Compositor.Proofs.Table
import Compositor.Proofs.Timeline.Check

/-!
# No clip is lost silently

When the engine is called, each asset that clips use was staged or is listed as a
failure, and each clip is in the plan or belongs to a failure, whatever the
answers were and in whatever order they came.
-/

namespace Compositor

namespace Timeline

variable {timeline : Timeline} {id : String}

theorem isSome_get?_of_validate (hvalid : timeline.validate = .ok ())
    (hid : id ∈ timeline.referencedIds) : (timeline.assets.get? id).isSome = true := by
  obtain ⟨item, hitem, rfl⟩ := List.mem_map.mp (List.mem_eraseDups.mp hid)
  obtain ⟨asset, hasset, -⟩ := (admits_of_validate hvalid hitem).asset
  simp [hasset]

theorem map_fst_usedAssets (hvalid : timeline.validate = .ok ()) :
    timeline.usedAssets.map Prod.fst = timeline.referencedIds := by
  rw [usedAssets, List.map_filterMap]
  refine (List.filterMap_congr fun id hid => ?_).trans List.filterMap_some
  obtain ⟨asset, hasset⟩ := Option.isSome_iff_exists.mp (isSome_get?_of_validate hvalid hid)
  simp [hasset]

end Timeline

namespace Staging

def failedIds (staging : Staging) : List String := staging.failures.map AssetFailure.assetId

structure Accounts (staging : Staging) (ids : List String) : Prop where
  failedIds_eq : staging.failedIds = ids.filter fun id => !staging.paths.contains id
  mem_of_contains : ∀ id, staging.paths.contains id = true → id ∈ ids

theorem addBy_cases (stage : Stager) (scratch : Scratch) (staging : Staging)
    (item : (String × Asset × Except LookupError AssetContent) × Nat) :
    (∃ path, (staging.addBy stage scratch item).paths = staging.paths.insert item.1.1 path ∧
      (staging.addBy stage scratch item).failures = staging.failures) ∨
    (∃ message, (staging.addBy stage scratch item).paths = staging.paths ∧
      (staging.addBy stage scratch item).failures =
        staging.failures ++ [⟨item.1.1, message⟩]) := by
  obtain ⟨⟨id, asset, answer⟩, index⟩ := item
  cases answer with
  | error error => exact Or.inr ⟨_, rfl, rfl⟩
  | ok content =>
      simp only [addBy]
      generalize stage staging.files scratch index id asset content = staged
      obtain ⟨files, error | path⟩ := staged
      · exact Or.inr ⟨_, rfl, rfl⟩
      · exact Or.inl ⟨path, rfl, rfl⟩

theorem Accounts.addBy {staging : Staging} {ids : List String} (h : staging.Accounts ids)
    (stage : Stager) (scratch : Scratch)
    (item : (String × Asset × Except LookupError AssetContent) × Nat) (hnew : item.1.1 ∉ ids) :
    (staging.addBy stage scratch item).Accounts (ids ++ [item.1.1]) := by
  rcases staging.addBy_cases stage scratch item with
    ⟨path, hpaths, hfailures⟩ | ⟨message, hpaths, hfailures⟩
  · constructor
    · have hsame : ∀ id ∈ ids, (id == item.1.1) = false := fun id hid =>
        beq_eq_false_iff_ne.mpr fun heq => hnew (heq ▸ hid)
      rw [failedIds, hfailures, hpaths, List.filter_append]
      simp only [Table.contains_insert, List.filter_singleton, BEq.rfl, Bool.true_or, Bool.not_true,
        cond_false, List.append_nil]
      refine h.failedIds_eq.trans (List.filter_congr fun id hid => ?_)
      rw [hsame id hid, Bool.false_or]
    · intro id hid
      rw [hpaths, Table.contains_insert, Bool.or_eq_true, beq_iff_eq] at hid
      rcases hid with rfl | hid
      · simp
      · exact List.mem_append_left _ (h.mem_of_contains id hid)
  · constructor
    · have hmissing : staging.paths.contains item.1.1 = false := by
        rw [← Bool.not_eq_true]
        exact fun hcontains => hnew (h.mem_of_contains _ hcontains)
      have hfailed := h.failedIds_eq
      rw [failedIds] at hfailed ⊢
      rw [hfailures, hpaths, List.filter_append, List.map_append, hfailed]
      simp [hmissing]
    · intro id hid
      rw [hpaths] at hid
      exact List.mem_append_left _ (h.mem_of_contains id hid)

theorem accounts_foldl_addBy (stage : Stager) (scratch : Scratch) (files : FileSystem)
    (items : List ((String × Asset × Except LookupError AssetContent) × Nat))
    (hnodup : (items.map fun item => item.1.1).Nodup) :
    (items.foldl (addBy stage scratch) ⟨files, .empty, []⟩).Accounts
      (items.map fun item => item.1.1) := by
  induction items using List.reverseRecOn with
  | nil => exact ⟨rfl, fun id hid => by simp at hid⟩
  | append_singleton items item ih =>
      rw [List.map_append, List.nodup_append] at hnodup
      obtain ⟨hbefore, -, hdisjoint⟩ := hnodup
      rw [List.foldl_append, List.foldl_cons, List.foldl_nil, List.map_append]
      exact (ih hbefore).addBy stage scratch item fun hmem =>
        hdisjoint _ hmem _ (List.mem_singleton_self _) rfl

/-- An answer has become a path, or a failure that tells its reason. -/
def Resolves (staging : Staging) (stage : Stager) (scratch : Scratch) (files : FileSystem)
    (item : (String × Asset × Except LookupError AssetContent) × Nat) : Prop :=
  match item.1.2.2 with
  | .error error => ⟨item.1.1, error.message⟩ ∈ staging.failures
  | .ok content =>
    match (stage files scratch item.2 item.1.1 item.1.2.1 content).2 with
    | .ok path => staging.paths.get? item.1.1 = some path
    | .error error => ⟨item.1.1, error.message⟩ ∈ staging.failures

theorem resolves_addBy (stage : Stager) (scratch : Scratch) (staging : Staging)
    (item : (String × Asset × Except LookupError AssetContent) × Nat) :
    (staging.addBy stage scratch item).Resolves stage scratch staging.files item := by
  obtain ⟨⟨id, asset, answer⟩, index⟩ := item
  cases answer with
  | error error => simp [Resolves, addBy, fail]
  | ok content =>
      simp only [Resolves, addBy]
      generalize stage staging.files scratch index id asset content = staged
      obtain ⟨files, error | path⟩ := staged
      · simp [record, fail]
      · simp [record, Table.get?_insert]

theorem Resolves.addBy {staging : Staging} {stage : Stager} {scratch : Scratch}
    {files : FileSystem} {item other : (String × Asset × Except LookupError AssetContent) × Nat}
    (h : staging.Resolves stage scratch files item) (hne : item.1.1 ≠ other.1.1) :
    (staging.addBy stage scratch other).Resolves stage scratch files item := by
  have hfailures : ∀ failure ∈ staging.failures,
      failure ∈ (staging.addBy stage scratch other).failures := by
    intro failure hfailure
    rcases staging.addBy_cases stage scratch other with ⟨_, _, hsame⟩ | ⟨_, _, hmore⟩
    · rwa [hsame]
    · rw [hmore]
      exact List.mem_append_left _ hfailure
  have hpaths : (staging.addBy stage scratch other).paths.get? item.1.1 =
      staging.paths.get? item.1.1 := by
    rcases staging.addBy_cases stage scratch other with ⟨_, hmore, _⟩ | ⟨_, hsame, _⟩
    · rw [hmore, Table.get?_insert, if_neg hne]
    · rw [hsame]
  unfold Resolves at h ⊢
  split at h
  · exact hfailures _ h
  · split at h
    · rwa [hpaths]
    · exact hfailures _ h

theorem Resolves.foldl_addBy {staging : Staging} {stage : Stager} {scratch : Scratch}
    {files : FileSystem} {item : (String × Asset × Except LookupError AssetContent) × Nat}
    (h : staging.Resolves stage scratch files item)
    (rest : List ((String × Asset × Except LookupError AssetContent) × Nat))
    (hrest : item.1.1 ∉ rest.map fun other => other.1.1) :
    (rest.foldl (Staging.addBy stage scratch) staging).Resolves stage scratch files item := by
  induction rest generalizing staging with
  | nil => exact h
  | cons other rest ih =>
      rw [List.map_cons, List.mem_cons, not_or] at hrest
      exact ih (h.addBy hrest.1) hrest.2

end Staging

/-! ## Accounts of a call -/

def Timeline.countRemaining (timeline : Timeline) (staging : Staging) (isKept : Track → Bool) :
    Nat :=
  timeline.placements.countP fun item =>
    isKept item.1 && !decide (item.2.assetId ∈ staging.failedIds)

namespace Session

variable {session : Session} {events : List Event} {files : FileSystem} {scratch : Scratch}
  {call : Call}

/-- Where the assets of the clips and where the clips themselves have gone. -/
structure Accounted (session : Session) (call : Call) : Prop where
  split : ∀ id ∈ session.timeline.referencedIds,
    id ∈ call.staging.failedIds ↔ ¬ call.staging.paths.contains id = true
  resolved : ∀ id, call.staging.paths.contains id = true → id ∈ session.timeline.referencedIds
  outcomes : ∃ files scratch, session.Made files scratch ∧
    ∀ done item rest, session.answers = done ++ item :: rest →
      call.staging.Resolves session.stage scratch (session.stagedSome files scratch done).files
        item
  nodup : call.staging.failedIds.Nodup
  inOrder : call.staging.failedIds.Sublist session.timeline.referencedIds
  plan : call.plan = session.timeline.compile call.staging.paths
  unboundClips : call.plan.counts.unboundClips =
    session.timeline.placements.countP fun item => item.2.assetId ∈ call.staging.failedIds
  remaining : ∀ item ∈ session.timeline.placements, item.2.assetId ∉ call.staging.failedIds →
    call.plan.Overlays session.timeline.settings item ∨ call.plan.Mixes item ∨
      item.1.kind = .audio ∧ item.1.muted = true
  overlays : call.plan.counts.overlays =
    session.timeline.countRemaining call.staging Track.isVisual
  audioStreams : call.plan.counts.audioStreams =
    session.timeline.countRemaining call.staging Track.isAudible
  mutedClips : call.plan.counts.mutedClips =
    session.timeline.countRemaining call.staging Track.isMuted

theorem map_id_answers (hvalid : session.timeline.validate = .ok ()) :
    (session.answers.map fun item => item.1.1) = session.timeline.referencedIds := by
  have hfirst : (fun item : (String × Asset × Except LookupError AssetContent) × Nat =>
      item.1.1) = Prod.fst ∘ Prod.fst := rfl
  rw [hfirst, ← List.map_map, answers, List.zipIdx_map_fst, Timeline.lookupAll, List.map_map,
    ← Timeline.map_fst_usedAssets hvalid]
  rfl

theorem accounts_staged (hvalid : session.timeline.validate = .ok ()) (files : FileSystem)
    (scratch : Scratch) :
    (session.staged files scratch).Accounts session.timeline.referencedIds := by
  rw [← map_id_answers hvalid]
  apply Staging.accounts_foldl_addBy
  rw [map_id_answers hvalid]
  exact session.timeline.nodup_referencedIds

theorem resolves_staged (hvalid : session.timeline.validate = .ok ()) (files : FileSystem)
    (scratch : Scratch) (done : List ((String × Asset × Except LookupError AssetContent) × Nat))
    (item : (String × Asset × Except LookupError AssetContent) × Nat)
    (rest : List ((String × Asset × Except LookupError AssetContent) × Nat))
    (hsplit : session.answers = done ++ item :: rest) :
    (session.staged files scratch).Resolves session.stage scratch
      (session.stagedSome files scratch done).files item := by
  have hnodup := session.timeline.nodup_referencedIds
  rw [← map_id_answers hvalid, hsplit, List.map_append, List.map_cons] at hnodup
  have hrest := (List.nodup_cons.mp (List.nodup_append'.mp hnodup).2.1).1
  rw [staged, stagedSome, hsplit, List.foldl_append, List.foldl_cons]
  exact (Staging.resolves_addBy session.stage scratch _ item).foldl_addBy rest hrest

theorem isBound_iff_not_mem_failedIds {staging : Staging} {timeline : Timeline}
    (hvalid : timeline.validate = .ok ()) (h : staging.Accounts timeline.referencedIds)
    {id : String} (hid : id ∈ timeline.referencedIds) :
    timeline.isBound staging.paths id = !decide (id ∈ staging.failedIds) := by
  have hfailed : id ∈ staging.failedIds ↔ ¬ staging.paths.contains id = true := by
    simp [h.failedIds_eq, hid]
  rw [Timeline.isBound, Timeline.isSome_get?_of_validate hvalid hid, Bool.true_and,
    ← Table.contains]
  cases hcontains : staging.paths.contains id <;> simp [hfailed, hcontains]

theorem accounted_callOf (hmade : session.Made files scratch) :
    session.Accounted (session.callOf files scratch) := by
  have hvalid := hmade.valid
  have h := accounts_staged hvalid files scratch
  have houtcomes := resolves_staged hvalid files scratch
  have hplan : (session.callOf files scratch).plan =
      session.timeline.compile (session.callOf files scratch).staging.paths := rfl
  change (session.callOf files scratch).staging.Accounts _ at h
  change ∀ done item rest, _ → (session.callOf files scratch).staging.Resolves _ _ _ _ at houtcomes
  generalize session.callOf files scratch = call at h houtcomes hplan ⊢
  have hbound : ∀ item ∈ session.timeline.placements,
      session.timeline.isBound call.staging.paths item.2.assetId =
        !decide (item.2.assetId ∈ call.staging.failedIds) := fun item hitem =>
    isBound_iff_not_mem_failedIds hvalid h (Timeline.assetId_mem_referencedIds hitem)
  have hcounted := session.timeline.counted_compile call.staging.paths
  have hremaining : ∀ isKept, session.timeline.countBound call.staging.paths isKept =
      session.timeline.countRemaining call.staging isKept := fun isKept =>
    List.countP_congr fun item hitem => by rw [hbound item hitem]
  have horder : call.staging.failedIds.Sublist session.timeline.referencedIds := by
    rw [h.failedIds_eq]
    exact List.filter_sublist
  exact {
    split := fun id hid => by simp [h.failedIds_eq, hid]
    resolved := h.mem_of_contains
    outcomes := ⟨files, scratch, hmade, houtcomes⟩
    nodup := session.timeline.nodup_referencedIds.sublist horder
    inOrder := horder
    plan := hplan
    unboundClips := by
      rw [hplan, hcounted.unboundClips]
      refine List.countP_congr fun item hitem => ?_
      rw [hbound item hitem, Bool.not_not]
    remaining := fun item hitem hfailed => by
      rw [hplan]
      exact Timeline.overlays_or_mixes_or_muted hitem (by simp [hbound item hitem, hfailed])
    overlays := by rw [hplan, hcounted.overlays, hremaining]
    audioStreams := by rw [hplan, hcounted.audioStreams, hremaining]
    mutedClips := by rw [hplan, hcounted.mutedClips, hremaining] }

theorem Made.unique {other : FileSystem} {other' : Scratch} (h : session.Made files scratch)
    (h' : session.Made other other') : files = other ∧ scratch = other' := by
  have heq := h.made.symm.trans h'.made
  simpa using heq

/-- What the engine is called with does not depend on the order of events. -/
theorem call_eq_of_mem {others : List Event} {other : Call}
    (h : call ∈ (session.execute events).calls) (h' : other ∈ (session.execute others).calls) :
    other = call := by
  obtain ⟨files, scratch, hmade, rfl, -⟩ := (called_of_mem h).phase
  obtain ⟨files', scratch', hmade', rfl, -⟩ := (called_of_mem h').phase
  obtain ⟨rfl, rfl⟩ := hmade.unique hmade'
  rfl

theorem isCancelled_of_job_eq {scratch : Scratch} {isCancelled isCancelled' : Bool}
    (h : ((session.rendered call isCancelled).close scratch).job =
      ((session.rendered call isCancelled').close scratch).job) :
    isCancelled = isCancelled' := by
  simp only [RunReport.close, rendered, Option.some.injEq, Prod.mk.injEq] at h
  exact congrArg Job.isCancelled h.1

theorem report_eq_of_job_eq {others : List Event} {report other : RunReport}
    (h : call ∈ (session.execute events).calls) (h' : call ∈ (session.execute others).calls)
    (hended : (session.execute events).phase = .ended report)
    (hended' : (session.execute others).phase = .ended other) (hjob : other.job = report.job) :
    other = report := by
  obtain ⟨_, scratch, isCancelled, hmade, rfl⟩ := (called_of_mem h).report_eq hended
  obtain ⟨_, scratch', isCancelled', hmade', rfl⟩ := (called_of_mem h').report_eq hended'
  obtain ⟨-, rfl⟩ := hmade.unique hmade'
  rw [isCancelled_of_job_eq hjob]

theorem exists_renderResult {isCancelled : Bool} {result : RenderResult}
    (h : (session.rendered call isCancelled).outcome = some (.ok result)) :
    ∃ size, renderResult session.draw session.timeline call.output call.plan
      call.staging.failures size = result := by
  simp only [rendered, Option.map_eq_some_iff] at h
  obtain ⟨size, -, hsize⟩ := h
  cases size with
  | error error => cases hsize
  | ok size => exact ⟨size, Except.ok.inj hsize⟩

theorem failures_of_ok {report : RunReport} {result : RenderResult}
    (h : call ∈ (session.execute events).calls)
    (hended : (session.execute events).phase = .ended report)
    (hok : report.outcome = some (.ok result)) :
    result.failures = call.staging.failures ∧ result.fingerprint = call.plan.fingerprint := by
  obtain ⟨_, scratch, isCancelled, -, rfl⟩ := (called_of_mem h).report_eq hended
  obtain ⟨size, rfl⟩ := exists_renderResult hok
  exact ⟨rfl, rfl⟩

/-- Nothing is lost on the way to a call, in whatever order the answers came. -/
structure Lossless (session : Session) (events : List Event) (call : Call) : Prop where
  accounted : session.Accounted call
  reported : ∀ report result, (session.execute events).phase = .ended report →
    report.outcome = some (.ok result) →
    result.failures = call.staging.failures ∧ result.fingerprint = call.plan.fingerprint
  sameCall : ∀ others, ∀ other ∈ (session.execute others).calls, other = call
  sameReport : ∀ others report other, call ∈ (session.execute others).calls →
    (session.execute events).phase = .ended report →
    (session.execute others).phase = .ended other → other.job = report.job → other = report
  runs : session.stage = FileSystem.stage → ∀ report,
    (session.execute events).phase = .ended report →
    ∃ cancellation, report = session.runAtOnce cancellation

/-- If the engine is called, no clip has been lost silently. -/
theorem lossless_of_mem (session : Session) (events : List Event) (call : Call)
    (h : call ∈ (session.execute events).calls) : session.Lossless events call where
  accounted := by
    obtain ⟨files, scratch, hmade, rfl, -⟩ := (called_of_mem h).phase
    exact accounted_callOf hmade
  reported _ _ := failures_of_ok h
  sameCall _ _ := call_eq_of_mem h
  sameReport _ _ _ := report_eq_of_job_eq h
  runs hstage _ := exists_runAtOnce_of_ended hstage

def lossy : Session where
  options := ⟨"out", "tmp", 1000, true⟩
  draw := ⟨⟨0⟩, "abc", 5⟩
  lookup := lookupTable (.ofList [("a", .bytes [1]), ("b", .bytes [2]), ("d", .path "/d.mp3")])
  stage files scratch index id asset content :=
    if id = "b" then (files, .error (.internal "no space left" []))
    else files.stage scratch index id asset content
  engine _ files := ⟨files, [], .endless⟩
  timeline :=
    ⟨[⟨"t", .video, "", [⟨"1", "a", "t", 0.0, 1.0, 1.0, 0.0, 0.0, .cut⟩,
        ⟨"2", "b", "t", 0.0, 1.0, 1.0, 0.0, 0.0, .cut⟩], false, 1.0⟩,
      ⟨"u", .audio, "", [⟨"3", "c", "u", 0.0, 1.0, 1.0, 0.0, 0.0, .cut⟩], false, 1.0⟩,
      ⟨"v", .audio, "", [⟨"4", "d", "v", 0.0, 1.0, 1.0, 0.0, 0.0, .cut⟩], true, 1.0⟩],
      .default "x" 2.0,
      .ofList [("a", .plain .video "a.mp4"), ("b", .plain .video "b.mp4"),
        ("c", .plain .audio "c.mp3"), ("d", .plain .audio "d.mp3")]⟩
  files := ⟨[], []⟩

def shuffled : List Event :=
  advance 3 ++ [.answer 3, .answer 1, .answer 0, .answer 2] ++ advance 8

theorem lossless_of_mem_lossy :
    ∃ call ∈ (lossy.execute shuffled).calls, call.staging.failedIds = ["b", "c"] ∧
      lossy.Lossless shuffled call := by
  have hcalls : 0 < (lossy.execute shuffled).calls.length := by decide +kernel
  have hfailed : ∀ call ∈ (lossy.execute shuffled).calls,
      call.staging.failedIds = ["b", "c"] := by decide +kernel
  obtain ⟨call, hcall⟩ := List.exists_mem_of_length_pos hcalls
  exact ⟨call, hcall, hfailed call hcall, lossless_of_mem lossy shuffled call hcall⟩

end Session

end Compositor
