import Compositor.Proofs.Compile.Essence
import Compositor.Proofs.Plan.Arguments
import Compositor.Proofs.Session.NameLengths
import Compositor.Proofs.Session.Rehearsal
import Compositor.Proofs.Session.RunId
import Compositor.Proofs.Session.StagedBytes

/-!
# Runs of one request

A request is a timeline with the answers to its lookups; the rest of what a run
meets, its draws among it, are circumstances.  The fingerprint of a plan is one of
the request as long as assets are read where they are.  What was fetched is read
from a directory whose name was drawn, and the arguments of two runs are the same
just if it was staged alike.
-/

namespace Compositor

section LeavingOut

variable {α β : Type} [DecidableEq β] {items : List α} {first second : α → Option β}
  {isOwn : α → Bool}

theorem countP_own_eq
    (hothers : ∀ item ∈ items, isOwn item = false → first item = second item)
    (h : items.filterMap first = items.filterMap second) (value : β) :
    (items.filter isOwn).countP (first · == some value) =
      (items.filter isOwn).countP (second · == some value) := by
  have hothers' : (items.filter (!isOwn ·)).countP (first · == some value) =
      (items.filter (!isOwn ·)).countP (second · == some value) := by
    refine List.countP_congr fun item hitem => ?_
    obtain ⟨hmem, hother⟩ := List.mem_filter.mp hitem
    rw [hothers item hmem (by simpa using hother)]
  have hall := congrArg (List.count value) h
  rw [List.count_filterMap, List.count_filterMap, List.countP_eq_countP_filter_add _ _ isOwn,
    List.countP_eq_countP_filter_add items _ isOwn, hothers'] at hall
  exact Nat.add_right_cancel hall

theorem exists_own_of_countP_eq {item : α} {value : β}
    (h : (items.filter isOwn).countP (first · == some value) =
      (items.filter isOwn).countP (second · == some value))
    (hitem : item ∈ items) (hown : isOwn item = true) (hvalue : first item = some value) :
    ∃ other ∈ items, isOwn other = true ∧ second other = some value := by
  have hpos : 0 < (items.filter isOwn).countP (first · == some value) :=
    List.countP_pos_iff.mpr ⟨item, List.mem_filter.mpr ⟨hitem, hown⟩, beq_iff_eq.mpr hvalue⟩
  rw [h] at hpos
  obtain ⟨other, hother, hfound⟩ := List.countP_pos_iff.mp hpos
  obtain ⟨hmem, hotherOwn⟩ := List.mem_filter.mp hother
  exact ⟨other, hmem, hotherOwn, beq_iff_eq.mp hfound⟩

/-- The values of some items are the same in two lists, and those of the others tell their items:
then equal lists leave out the same, although other items may have those values as well. -/
theorem eq_of_filterMap_eq (isOwn : α → Bool)
    (hothers : ∀ item ∈ items, isOwn item = false → first item = second item)
    (htold : ∀ item ∈ items, ∀ other ∈ items, isOwn item = true → isOwn other = true →
      ∀ value, first item = some value → second other = some value → item = other)
    (h : items.filterMap first = items.filterMap second) :
    ∀ item ∈ items, first item = second item := by
  have hcount := countP_own_eq hothers h
  intro item hitem
  cases hown : isOwn item with
  | false => exact hothers item hitem hown
  | true =>
      cases hfirst : first item with
      | some value =>
          obtain ⟨other, hother, hotherOwn, hsecond⟩ :=
            exists_own_of_countP_eq (hcount value) hitem hown hfirst
          rw [htold item hitem other hother hown hotherOwn value hfirst hsecond, hsecond]
      | none =>
          cases hsecond : second item with
          | none => rfl
          | some value =>
              obtain ⟨other, hother, hotherOwn, hfound⟩ :=
                exists_own_of_countP_eq (hcount value).symm hitem hown hsecond
              have heq := htold other hother item hitem hotherOwn hown value hfound hsecond
              rw [← heq, hfound] at hfirst
              cases hfirst

end LeavingOut

namespace Path

theorem join_eq_append {path : String} (h : isAbsolute path = false) (directory : String) :
    join directory path = join directory "" ++ path := by
  have hempty : isAbsolute "" = false := by decide
  unfold join
  simp only [h, hempty, Bool.false_or]
  split
  · simp_all
  · split
    · simp
    · simp

theorem join_inj {path other : String} (h : isAbsolute path = false)
    (hother : isAbsolute other = false) {directory : String}
    (heq : join directory path = join directory other) : path = other := by
  rw [join_eq_append h, join_eq_append hother] at heq
  have hchars := congrArg String.toList heq
  rw [String.toList_append, String.toList_append] at hchars
  exact String.toList_inj.mp (List.append_cancel_left hchars)

theorem eq_of_join_empty_eq {first second : String} (hfirst : first.toList.getLast? ≠ some '/')
    (hsecond : second.toList.getLast? ≠ some '/') (h : join first "" = join second "") :
    first = second := by
  have hempty : isAbsolute "" = false := by decide
  have hchars (directory : String) (hslash : directory.toList.getLast? ≠ some '/') :
      (join directory "").toList =
        if directory = "" then [] else directory.toList ++ ['/'] := by
    by_cases hne : directory = ""
    · simp [join, hne]
    · simp [join, hempty, hne, hslash]
  have heq := congrArg String.toList h
  rw [hchars first hfirst, hchars second hsecond] at heq
  split at heq <;> split at heq
  · simp_all
  · simp at heq
  · simp at heq
  · exact String.toList_inj.mp (List.append_cancel_right heq)

end Path

namespace ScratchName

theorem text_inj {name other : ScratchName} (h : name.text = other.text) : name = other := by
  have hchars := congrArg String.toList h
  simp only [text, String.toList_append, List.append_assoc] at hchars
  obtain ⟨hid, hrest⟩ := List.append_inj (List.append_cancel_left hchars)
    (name.id.length_text.trans other.id.length_text.symm)
  have hid : name.id = other.id := RunId.text_inj (String.toList_inj.mp hid)
  have hsuffix : name.suffix = other.suffix :=
    String.toList_inj.mp (List.append_cancel_left hrest)
  cases name
  cases other
  simp_all

theorem isPlain_text {name : ScratchName} (h : '/' ∉ name.suffix.toList) :
    Path.IsPlain name.text := by
  have hhead : name.text.toList.head? = some 'm' := by simp [text]
  refine ⟨?_, ?_, ?_, ?_⟩
  · have hid := name.id.slash_not_mem_text
    simp [text, hid, h]
  all_goals
    intro heq
    rw [heq] at hhead
    simp at hhead

end ScratchName

theorem Source.Alike.path?_eq {first second : Source} (h : first.Alike second) :
    first.path? = second.path? := by
  cases h <;> rfl

namespace Timeline

variable {timeline : Timeline}

theorem compile_congr {paths paths' : AssetPaths}
    (h : ∀ id ∈ timeline.referencedIds, paths.get? id = paths'.get? id) :
    timeline.compile paths = timeline.compile paths' := by
  have hsources : (timeline.boundAssets paths).map timeline.boundSource =
      (timeline.boundAssets paths').map timeline.boundSource := boundSources_congr rfl h
  have hbindings : timeline.bindings paths = timeline.bindings paths' := by
    rw [bindings_eq_sources, bindings_eq_sources, hsources]
  rw [compile, compile, hbindings, filledPlan_congr rfl hsources]

theorem sources_compile (hvalid : timeline.validate = .ok ()) (paths : AssetPaths) :
    ((timeline.compile paths).inputs.filterMap fun binding => binding.source.path?) =
      timeline.referencedIds.filterMap paths.get? := by
  have hbound : (timeline.boundAssets paths).map BoundAsset.path =
      timeline.referencedIds.filterMap paths.get? := by
    rw [boundAssets, List.map_filterMap]
    refine List.filterMap_congr fun id hid => ?_
    obtain ⟨asset, hasset⟩ := Option.isSome_iff_exists.mp (isSome_get?_of_validate hvalid hid)
    cases hpath : paths.get? id <;> simp [bound?, hpath, hasset]
  have hbindings : ((timeline.bindings paths).filterMap fun binding => binding.source.path?) =
      (timeline.boundAssets paths).map BoundAsset.path := by
    have hpaths : ((timeline.bindings paths).map fun binding => binding.source.path?) =
        (timeline.boundAssets paths).map fun asset => some asset.path := by
      refine List.ext_getElem? fun slot => ?_
      simp [bindings, Function.comp_def]
    have hsome := congrArg (List.filterMap id) hpaths
    simpa [List.filterMap_map, Function.comp_def] using hsome
  rw [compile]
  split
  · rename_i hempty
    rw [← hbound, ← hbindings, List.isEmpty_iff.mp hempty]
    rfl
  · exact hbindings.trans hbound

end Timeline

theorem Plan.InputsAlike.sources_eq {inputs inputs' : List Binding}
    (h : Plan.InputsAlike inputs inputs') :
    (inputs.filterMap fun binding => binding.source.path?) =
      inputs'.filterMap fun binding => binding.source.path? := by
  induction h with
  | nil => rfl
  | cons hsource _ ih =>
      have hpath := hsource.path?_eq
      simp only [List.filterMap_cons, hpath, ih]

/-! ## What a run has staged -/

/-- The asset was answered with bytes, which have to be staged. -/
def isFetched (answer : String × Asset × Except LookupError AssetContent) : Bool :=
  match answer.2.2 with
  | .ok (.bytes _) => true
  | _ => false

def Scratch.lead (scratch : Scratch) : String := Path.join scratch.path ""

theorem stagedPath_eq (scratch : Scratch) (item : Answered) :
    stagedPath scratch item = scratch.lead ++ stagedName item.2 item.1.1 item.1.2.1 :=
  Path.join_eq_append (isPlain_stagedName _ _ _).not_isAbsolute scratch.path

namespace Session

variable {session : Session} {files : FileSystem} {scratch : Scratch}

theorem get?_staged_cases (hmade : session.Made files scratch)
    (hstage : session.stage = FileSystem.stage) {item : Answered}
    (hitem : item ∈ session.answers) :
    match item.1.2.2 with
    | .error _ => (session.staged files scratch).paths.get? item.1.1 = none
    | .ok (.path path) => (session.staged files scratch).paths.get? item.1.1 = some path
    | .ok (.bytes _) =>
      (session.staged files scratch).paths.get? item.1.1 = none ∨
        (session.staged files scratch).paths.get? item.1.1 = some (stagedPath scratch item) := by
  obtain ⟨done, rest, hsplit⟩ := List.append_of_mem hitem
  have hresolves := resolves_staged hmade.valid files scratch done item rest hsplit
  have hfailed := mem_failedIds_iff hmade hitem
  obtain ⟨⟨id, asset, answer⟩, index⟩ := item
  rw [Staging.Resolves, hstage] at hresolves
  obtain error | (path | content) := answer
  · exact hfailed.mp (List.mem_map_of_mem hresolves)
  · exact hresolves
  · dsimp only at hresolves ⊢
    rcases stage_bytes (session.stagedSome files scratch done).files scratch index id asset
        content with ⟨error, hstaged⟩ | ⟨after, -, hstaged⟩
    · rw [hstaged] at hresolves
      exact .inl (hfailed.mp (List.mem_map_of_mem hresolves))
    · rw [hstaged] at hresolves
      exact .inr hresolves

/-- What the result of a run tells of what was staged. -/
structure Yields (session : Session) (cancellation : Cancellation) (result : RenderResult)
    (files : FileSystem) (scratch : Scratch) : Prop where
  made : session.Made files scratch
  given : (session.runAtOnce cancellation).job.map (·.1.plan) =
    some (session.callOf files scratch).plan
  failures : result.failures = (session.staged files scratch).failures
  fingerprint : result.fingerprint = (session.callOf files scratch).plan.fingerprint

theorem exists_yields_of_ok (hstage : session.stage = FileSystem.stage)
    {cancellation : Cancellation} {result : RenderResult}
    (h : (session.runAtOnce cancellation).outcome = some (.ok result)) :
    ∃ files scratch, session.Yields cancellation result files scratch := by
  obtain ⟨_, calls, hconclusion⟩ := session.exists_conclusion hstage cancellation
  generalize hreport : session.runAtOnce cancellation = report at h hconclusion
  cases hconclusion with
  | rendered isCancelled hmade =>
      rename_i files scratch
      obtain ⟨hfailures, hfingerprint⟩ := of_rendered_eq_ok h
      exact ⟨files, scratch, hmade, by rw [hreport]; rfl, hfailures, hfingerprint⟩
  | _ => cases h

theorem plan_callOf (session : Session) (files : FileSystem) (scratch : Scratch) :
    (session.callOf files scratch).plan =
      session.timeline.compile (session.staged files scratch).paths := rfl

section Two

variable {first second : Session} {files files' : FileSystem} {scratch scratch' : Scratch}

/-- An asset that stays where it is has one path; one that is fetched has, if neither session has
staged it, or both have in directories of one path. -/
theorem get?_staged_eq_iff (hmade : first.Made files scratch) (hmade' : second.Made files' scratch')
    (hstage : first.stage = FileSystem.stage) (hstage' : second.stage = FileSystem.stage)
    {item : Answered} (hitem : item ∈ first.answers) (hitem' : item ∈ second.answers) :
    (first.staged files scratch).paths.get? item.1.1 =
        (second.staged files' scratch').paths.get? item.1.1 ↔
      (isFetched item.1 = true →
        (item.1.1 ∈ (first.staged files scratch).failedIds ↔
          item.1.1 ∈ (second.staged files' scratch').failedIds) ∧
        (item.1.1 ∉ (first.staged files scratch).failedIds → scratch.lead = scratch'.lead)) := by
  have hcases := get?_staged_cases hmade hstage hitem
  have hcases' := get?_staged_cases hmade' hstage' hitem'
  rw [mem_failedIds_iff hmade hitem, mem_failedIds_iff hmade' hitem', isFetched]
  rcases hanswer : item.1.2.2 with error | (path | content)
  · rw [hanswer] at hcases hcases'
    simp [hcases, hcases']
  · rw [hanswer] at hcases hcases'
    simp [hcases, hcases']
  · rw [hanswer] at hcases hcases'
    rcases hcases with hnone | hsome <;> rcases hcases' with hnone' | hsome'
    · simp [hnone, hnone']
    · simp [hnone, hsome']
    · simp [hsome, hnone']
    · simp [hsome, hsome', stagedPath_eq]

theorem number_eq_of_stagedPath_eq {item other : Answered}
    (h : stagedPath scratch item = stagedPath scratch' other) : item.2 = other.2 := by
  have hnames := congrArg Path.names h
  rw [stagedPath, stagedPath, (isPlain_stagedName _ _ _).names_join,
    (isPlain_stagedName _ _ _).names_join] at hnames
  have hname := List.append_inj_right' hnames (by simp only [List.length_singleton])
  exact (stagedName_inj_iff.mp (List.singleton_inj.mp hname)).1

theorem eq_of_number_eq {session : Session} {item other : Answered} (hitem : item ∈ session.answers)
    (hother : other ∈ session.answers) (h : item.2 = other.2) : item = other := by
  obtain ⟨answer, index⟩ := item
  obtain ⟨answer', index'⟩ := other
  obtain rfl : index = index' := h
  rw [answers, List.mk_mem_zipIdx_iff_getElem?] at hitem hother
  rw [Option.some.inj (hitem.symm.trans hother)]

theorem get?_staged_of_fetched {session : Session} {files : FileSystem} {scratch : Scratch}
    (hmade : session.Made files scratch) (hstage : session.stage = FileSystem.stage)
    {item : Answered} (hitem : item ∈ session.answers) (hfetched : isFetched item.1 = true)
    {path : String} (hpath : (session.staged files scratch).paths.get? item.1.1 = some path) :
    path = stagedPath scratch item := by
  have hcases := get?_staged_cases hmade hstage hitem
  unfold isFetched at hfetched
  split at hfetched
  · rename_i hanswer
    rw [hanswer, hpath] at hcases
    simpa using hcases
  · cases hfetched

/-- Plans of which the engine is told the same were compiled from the same paths. -/
theorem get?_staged_eq_of_arguments_eq (hmade : first.Made files scratch)
    (hmade' : second.Made files' scratch') (hstage : first.stage = FileSystem.stage)
    (hstage' : second.stage = FileSystem.stage) (htimeline : first.timeline = second.timeline)
    (hanswers : first.answers = second.answers)
    (h : (first.callOf files scratch).plan.arguments "" =
      (second.callOf files' scratch').plan.arguments "") :
    ∀ item ∈ first.answers, (first.staged files scratch).paths.get? item.1.1 =
      (second.staged files' scratch').paths.get? item.1.1 := by
  have hsources := (Plan.arguments_eq_iff.mp h).2.inputs.sources_eq
  rw [plan_callOf, plan_callOf, Timeline.sources_compile hmade.valid,
    Timeline.sources_compile hmade'.valid, ← htimeline, ← map_id_answers hmade.valid,
    List.filterMap_map, List.filterMap_map] at hsources
  have hothers : ∀ item ∈ first.answers, isFetched item.1 = false →
      (first.staged files scratch).paths.get? item.1.1 =
        (second.staged files' scratch').paths.get? item.1.1 := by
    intro item hitem hother
    have hiff := get?_staged_eq_iff hmade hmade' hstage hstage' hitem (hanswers ▸ hitem)
    exact hiff.mpr fun hfetched => absurd hfetched (by simp [hother])
  have htold : ∀ item ∈ first.answers, ∀ other ∈ first.answers, isFetched item.1 = true →
      isFetched other.1 = true → ∀ path,
        (first.staged files scratch).paths.get? item.1.1 = some path →
        (second.staged files' scratch').paths.get? other.1.1 = some path → item = other := by
    intro item hitem other hother hfetched hfetched' path hpath hpath'
    have hstaged := get?_staged_of_fetched hmade hstage hitem hfetched hpath
    have hstaged' := get?_staged_of_fetched hmade' hstage' (hanswers ▸ hother) hfetched' hpath'
    exact eq_of_number_eq hitem hother (number_eq_of_stagedPath_eq (hstaged.symm.trans hstaged'))
  -- An asset may stay where the other run has staged one: the lists are not matched in order.
  exact eq_of_filterMap_eq (fun item => isFetched item.1) hothers htold hsources

end Two

end Session

/-! ## Runs of one request -/

/-- All that a run meets besides the timeline and the answers to its lookups. -/
structure Circumstances where
  options : RunOptions
  draw : RunDraw
  cancellation : Cancellation
  engine : Engine
  files : FileSystem

namespace Circumstances

def run (circumstances : Circumstances) (timeline : Timeline) (lookup : Lookup) : RunReport :=
  Compositor.run circumstances.options circumstances.draw circumstances.cancellation lookup
    circumstances.engine timeline circumstances.files

def session (circumstances : Circumstances) (timeline : Timeline) (lookup : Lookup) : Session where
  options := circumstances.options
  draw := circumstances.draw
  lookup := lookup
  stage := FileSystem.stage
  engine := circumstances.engine
  timeline := timeline
  files := circumstances.files

theorem run_eq (circumstances : Circumstances) (timeline : Timeline) (lookup : Lookup) :
    circumstances.run timeline lookup =
      (circumstances.session timeline lookup).runAtOnce circumstances.cancellation := rfl

def lead (circumstances : Circumstances) : String :=
  Path.join (circumstances.files.scratchPath circumstances.options.scratchRoot
    circumstances.draw.scratchName) ""

/-- The scratch directories lie in one directory, and the names that were drawn have no slash. -/
structure SameRoot (first second : Circumstances) : Prop where
  working_eq : first.files.working = second.files.working
  root_eq : first.options.scratchRoot = second.options.scratchRoot
  plain : '/' ∉ first.draw.suffix.toList
  plain' : '/' ∉ second.draw.suffix.toList

theorem SameRoot.lead_eq_iff {first second : Circumstances} (h : first.SameRoot second) :
    first.lead = second.lead ↔ first.draw.scratchName = second.draw.scratchName := by
  have hplain : Path.IsPlain first.draw.scratchName.text := ScratchName.isPlain_text h.plain
  have hplain' : Path.IsPlain second.draw.scratchName.text := ScratchName.isPlain_text h.plain'
  rw [lead, lead, FileSystem.scratchPath, FileSystem.scratchPath, h.working_eq, h.root_eq]
  constructor
  · intro heq
    have hpath := Path.eq_of_join_empty_eq (hplain.getLast?_join _) (hplain'.getLast?_join _) heq
    exact ScratchName.text_inj
      (Path.join_inj hplain.not_isAbsolute hplain'.not_isAbsolute hpath)
  · intro heq
    rw [heq]

end Circumstances

def RenderResult.failedIds (result : RenderResult) : List String :=
  result.failures.map AssetFailure.assetId

section Requests

variable (timeline : Timeline) (lookup : Lookup) (first second : Circumstances)
  (result result' : RenderResult)

/-- Each asset that was fetched was staged in neither run, or in both of them below one path. -/
def StagedAlike : Prop :=
  ∀ answer ∈ timeline.lookupAll lookup, isFetched answer = true →
    (answer.1 ∈ result.failedIds ↔ answer.1 ∈ result'.failedIds) ∧
      (answer.1 ∉ result.failedIds → first.lead = second.lead)

/-- How the plans of two successful runs compare. -/
structure Repeats (plan plan' : Plan) : Prop where
  given : (first.run timeline lookup).job.map (·.1.plan) = some plan
  given' : (second.run timeline lookup).job.map (·.1.plan) = some plan'
  fingerprint : result.fingerprint = plan.fingerprint
  fingerprint' : result'.fingerprint = plan'.fingerprint
  arguments_iff : plan.arguments "" = plan'.arguments "" ↔
    StagedAlike timeline lookup first second result result'
  plan_eq : StagedAlike timeline lookup first second result result' → plan = plan'
  inPlace : (∀ answer ∈ timeline.lookupAll lookup, isFetched answer = false) →
    result.fingerprint = result'.fingerprint
  drawn : first.SameRoot second → (∃ answer ∈ timeline.lookupAll lookup,
      isFetched answer = true ∧ answer.1 ∉ result.failedIds) →
    plan.arguments "" = plan'.arguments "" →
      first.draw.scratchName = second.draw.scratchName

variable {timeline lookup first second result result'}

theorem lead_eq {files : FileSystem} {scratch : Scratch}
    (hmade : (first.session timeline lookup).Made files scratch) : scratch.lead = first.lead := by
  have hpath : scratch.path = first.files.scratchPath first.options.scratchRoot
      first.draw.scratchName := (FileSystem.isScratch_makeScratch hmade.made).path_eq
  rw [Scratch.lead, Circumstances.lead, hpath]

theorem mem_answers_iff {answer : String × Asset × Except LookupError AssetContent} :
    answer ∈ timeline.lookupAll lookup ↔
      ∃ index, (answer, index) ∈ (first.session timeline lookup).answers := by
  rw [List.mem_iff_getElem?]
  exact exists_congr fun index => List.mk_mem_zipIdx_iff_getElem?.symm

section Staged

variable {files files' : FileSystem} {scratch scratch' : Scratch}
  (h : (first.session timeline lookup).Yields first.cancellation result files scratch)
  (h' : (second.session timeline lookup).Yields second.cancellation result' files' scratch')
include h h'

theorem stagedAlike_iff :
    StagedAlike timeline lookup first second result result' ↔
      ∀ item ∈ (first.session timeline lookup).answers,
        ((first.session timeline lookup).staged files scratch).paths.get? item.1.1 =
          ((second.session timeline lookup).staged files' scratch').paths.get? item.1.1 := by
  have hitem (item : Answered) (hmem : item ∈ (first.session timeline lookup).answers) :=
    Session.get?_staged_eq_iff h.made h'.made rfl rfl hmem hmem
  rw [lead_eq h.made, lead_eq h'.made] at hitem
  simp only [Staging.failedIds, ← h.failures, ← h'.failures] at hitem
  constructor
  · intro halike item hmem
    exact (hitem item hmem).mpr (halike item.1 (List.fst_mem_of_mem_zipIdx hmem))
  · intro hsame answer hanswer
    obtain ⟨index, hmem⟩ := mem_answers_iff.mp hanswer
    exact (hitem (answer, index) hmem).mp (hsame (answer, index) hmem)

theorem plan_eq_of_stagedAlike
    (halike : StagedAlike timeline lookup first second result result') :
    ((first.session timeline lookup).callOf files scratch).plan =
      ((second.session timeline lookup).callOf files' scratch').plan := by
  refine Timeline.compile_congr fun id hid => ?_
  obtain ⟨done, item, rest, hsplit, rfl⟩ := Session.exists_answer h.made hid
  refine (stagedAlike_iff h h').mp halike item ?_
  rw [hsplit]
  exact List.mem_append_right _ List.mem_cons_self

theorem arguments_eq_iff_stagedAlike :
    ((first.session timeline lookup).callOf files scratch).plan.arguments "" =
        ((second.session timeline lookup).callOf files' scratch').plan.arguments "" ↔
      StagedAlike timeline lookup first second result result' := by
  constructor
  · intro harguments
    exact (stagedAlike_iff h h').mpr
      (Session.get?_staged_eq_of_arguments_eq h.made h'.made rfl rfl rfl rfl harguments)
  · intro halike
    rw [plan_eq_of_stagedAlike h h' halike]

end Staged

/-- Two successful runs of one request give the engine the same arguments just if what was fetched
was staged alike. -/
theorem repeats_of_ok
    (hok : (first.run timeline lookup).outcome = some (.ok result))
    (hok' : (second.run timeline lookup).outcome = some (.ok result')) :
    ∃ plan plan', Repeats timeline lookup first second result result' plan plan' := by
  rw [Circumstances.run_eq] at hok hok'
  obtain ⟨files, scratch, h⟩ := Session.exists_yields_of_ok rfl hok
  obtain ⟨files', scratch', h'⟩ := Session.exists_yields_of_ok rfl hok'
  have hplan := plan_eq_of_stagedAlike h h'
  have harguments := arguments_eq_iff_stagedAlike h h'
  refine ⟨_, _, h.given, h'.given, h.fingerprint, h'.fingerprint, harguments, hplan, ?_, ?_⟩
  · intro hplace
    have halike : StagedAlike timeline lookup first second result result' :=
      fun answer hanswer hfetched => absurd hfetched (by simp [hplace answer hanswer])
    rw [h.fingerprint, h'.fingerprint, hplan halike]
  · rintro hroot ⟨answer, hanswer, hfetched, hstaged⟩ hsame
    exact hroot.lead_eq_iff.mp ((harguments.mp hsame answer hanswer hfetched).2 hstaged)

end Requests

def clipped : Timeline where
  tracks := [⟨"t", .video, "", [⟨"c", "a", "t", 0.0, 1.0, 1.0, 0.0, 0.0, .cut⟩], false, 1.0⟩]
  settings := .default "x" 1.0
  assets := .ofList [("a", .plain .video "a.mp4")]

def fetchAll : Lookup := fun _ _ => .ok (.bytes [1])

def attempt (draw : RunDraw) : Circumstances where
  options := ⟨"out", "tmp", 1000, true⟩
  draw := draw
  cancellation := .never
  engine job files :=
    ⟨((files.write job.output [0]).toOption).getD files, [], .finished 0 (.ok "")⟩
  files := ⟨[(["out"], .directory)], []⟩

theorem exists_ok_of_fingerprint {outcome : Option (Except RenderError RenderResult)}
    {fingerprint : UInt64}
    (h : (outcome.bind Except.toOption).map RenderResult.fingerprint = some fingerprint) :
    ∃ result, outcome = some (.ok result) ∧ result.fingerprint = fingerprint := by
  have hsome : (outcome.bind Except.toOption).isSome = true := by
    rw [← Option.isSome_map, h, Option.isSome_some]
  obtain ⟨result, rfl⟩ := exists_eq_of_isSome_bind hsome
  exact ⟨result, rfl, Option.some.inj h⟩

theorem exists_ok_attempt :
    (∃ result, ((attempt ⟨⟨0⟩, "abc", 5⟩).run clipped fetchAll).outcome = some (.ok result) ∧
      result.fingerprint = 3462352574936674072) ∧
    ∃ result, ((attempt ⟨⟨1⟩, "xyz", 6⟩).run clipped fetchAll).outcome = some (.ok result) ∧
      result.fingerprint = 14513270076181076504 :=
  ⟨exists_ok_of_fingerprint (by decide +kernel), exists_ok_of_fingerprint (by decide +kernel)⟩

theorem repeats_of_ok_clipped :
    ∃ result result',
      ((attempt ⟨⟨0⟩, "abc", 5⟩).run clipped fetchAll).outcome = some (.ok result) ∧
      ((attempt ⟨⟨1⟩, "xyz", 6⟩).run clipped fetchAll).outcome = some (.ok result') ∧
      ∃ plan plan', Repeats clipped fetchAll (attempt ⟨⟨0⟩, "abc", 5⟩)
        (attempt ⟨⟨1⟩, "xyz", 6⟩) result result' plan plan' := by
  obtain ⟨⟨result, hok, -⟩, result', hok', -⟩ := exists_ok_attempt
  exact ⟨result, result', hok, hok', repeats_of_ok hok hok'⟩

theorem fingerprint_ne_clipped :
    ¬ ∀ (timeline : Timeline) (lookup : Lookup) (first second : Circumstances)
      (result result' : RenderResult), timeline.validate = .ok () →
      (first.run timeline lookup).outcome = some (.ok result) →
      (second.run timeline lookup).outcome = some (.ok result') →
      result.fingerprint = result'.fingerprint := by
  intro h
  have hvalid : clipped.validate = .ok () := Timeline.validate_of_isNone (by decide +kernel)
  obtain ⟨⟨result, hok, hfirst⟩, result', hok', hsecond⟩ := exists_ok_attempt
  have heq := h clipped fetchAll _ _ result result' hvalid hok hok'
  rw [hfirst, hsecond] at heq
  exact absurd heq (by decide)

end Compositor
