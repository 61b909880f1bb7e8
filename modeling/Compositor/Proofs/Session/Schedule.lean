import Compositor.Proofs.Session.Phases

/-!
# Runs as executions

Taken step by step a run comes to the same reports as at once: every execution
that ends does so as the run under some cancellation, and every run is the end
of an execution.
-/

namespace Compositor

namespace Session

variable {session : Session} {events : List Event} {files : FileSystem} {scratch : Scratch}
  {cancellation : Cancellation} {calls : List Call} {report : RunReport}

def runAtOnce (session : Session) (cancellation : Cancellation) : RunReport :=
  run session.options session.draw cancellation session.lookup session.engine session.timeline
    session.files

theorem stageAll_eq (hstage : session.stage = FileSystem.stage) :
    stageAll files scratch (session.timeline.lookupAll session.lookup) =
      session.staged files scratch := by
  rw [stageAll, staged, stagedSome, answers, hstage, Staging.addBy_stage]

theorem renderStaged_eq (hcancellation : cancellation ≠ .beforeRender) (staging : Staging) :
    renderStaged session.options session.draw cancellation session.engine session.timeline staging =
      session.rendered (session.call staging (session.timeline.compile staging.paths))
        (cancellation == .duringRender) := by
  simp only [renderStaged, hcancellation, if_false, rendered, call, Call.job]

theorem runAtOnce_of_made (hmade : session.Made files scratch)
    (hcancellation : cancellation ≠ .beforeStart) :
    session.runAtOnce cancellation =
      let report := runWithin session.options session.draw cancellation session.lookup
        session.engine session.timeline files scratch
      { report with files := report.files.closeScratch scratch } := by
  simp only [runAtOnce, run, hmade.valid, hmade.made, hcancellation, if_false]

theorem runWithin_eq (hstage : session.stage = FileSystem.stage)
    (hlookup : cancellation ≠ .duringLookup) :
    runWithin session.options session.draw cancellation session.lookup session.engine
        session.timeline files scratch =
      renderStaged session.options session.draw cancellation session.engine session.timeline
        (session.staged files scratch) := by
  simp only [runWithin, hlookup, if_false, stageAll_eq hstage]

theorem Conclusion.report_eq (h : session.Conclusion cancellation calls report)
    (hstage : session.stage = FileSystem.stage) : report = session.runAtOnce cancellation := by
  cases h with
  | invalid hproblem => simp only [runAtOnce, run, hproblem]
  | beforeStart hvalid => simp only [runAtOnce, run, hvalid, if_true]
  | unprepared hvalid hmake =>
      simp only [runAtOnce, run, hvalid, hmake, reduceCtorEq, if_false]
  | duringLookup hmade =>
      rw [runAtOnce_of_made hmade (by decide)]
      simp only [runWithin, if_true, RunReport.close]
  | beforeRender hmade =>
      rw [runAtOnce_of_made hmade (by decide), runWithin_eq hstage (by decide)]
      simp only [renderStaged, if_true, RunReport.close]
  | rendered isCancelled hmade =>
      cases isCancelled with
      | false =>
          rw [runAtOnce_of_made hmade (by decide), runWithin_eq hstage (by decide),
            renderStaged_eq (by decide)]
          rfl
      | true =>
          rw [runAtOnce_of_made hmade (by decide), runWithin_eq hstage (by decide),
            renderStaged_eq (by decide)]
          rfl

theorem exists_runAtOnce_of_ended (hstage : session.stage = FileSystem.stage)
    (hphase : (session.execute events).phase = .ended report) :
    ∃ cancellation, report = session.runAtOnce cancellation := by
  have h := session.holds_execute events
  rw [Holds, hphase] at h
  obtain ⟨cancellation, h⟩ := h
  exact ⟨cancellation, h.report_eq hstage⟩

def advance (count : Nat) : List Event := List.replicate count (.proceed false)

def answerAll (session : Session) : List Event :=
  (List.range session.timeline.usedAssets.length).map .answer

def prepareAll (session : Session) : List Event :=
  advance 3 ++ session.answerAll ++ advance 1 ++ advance session.answers.length ++ advance 1

theorem getElem?_foldl_modify {α : Type} (f : α → α) (items : List α) (count index : Nat) :
    ((List.range count).foldl (fun items index => items.modify index f) items)[index]? =
      if index < count then items[index]?.map f else items[index]? := by
  induction count with
  | zero => simp
  | succ count ih =>
      rw [List.range_succ, List.foldl_append, List.foldl_cons, List.foldl_nil,
        List.getElem?_modify, ih]
      by_cases hlast : count = index
      · simp [hlast]
      · by_cases hindex : index < count
        · simp [hlast, hindex, Nat.lt_succ_of_lt hindex]
        · have hnext : ¬ index < count + 1 := by omega
          simp [hlast, hindex, hnext]

theorem foldl_modify_range {α : Type} (f : α → α) (items : List α) :
    (List.range items.length).foldl (fun items index => items.modify index f) items =
      items.map f := by
  refine List.ext_getElem? fun index => ?_
  rw [getElem?_foldl_modify, List.getElem?_map]
  split
  · rfl
  · rename_i hindex
    simp [List.getElem?_eq_none (Nat.not_lt.mp hindex)]

theorem foldl_step_answer (world : World) (files : FileSystem) (scratch : Scratch)
    (lookups : List Pending) (hphase : world.phase = .lookingUp files scratch lookups)
    (indices : List Nat) :
    (indices.map Event.answer).foldl session.step world =
      world.enter (.lookingUp files scratch (indices.foldl
        (fun lookups index => lookups.modify index (·.complete session.lookup)) lookups)) := by
  induction indices generalizing world lookups with
  | nil => simp [World.enter, ← hphase]
  | cons index indices ih =>
      rw [List.map_cons, List.foldl_cons, ih _ (lookups.modify index (·.complete session.lookup))]
      · simp [step, answer, hphase, World.enter]
      · simp [step, answer, hphase, World.enter]

theorem foldl_step_staging (world : World) (scratch : Scratch)
    (rest : List ((String × Asset × Except LookupError AssetContent) × Nat)) (staging : Staging)
    (hphase : world.phase = .staging scratch staging rest) :
    (advance rest.length).foldl session.step world =
      world.enter (.staging scratch
        (rest.foldl (Staging.addBy session.stage scratch) staging) []) := by
  induction rest generalizing world staging with
  | nil => simp [advance, World.enter, ← hphase]
  | cons item rest ih =>
      have hnext := ih (session.step world (.proceed false))
        (staging.addBy session.stage scratch item)
        (by simp [step, proceed, hphase, World.enter])
      rw [List.length_cons, advance, List.replicate_succ, List.foldl_cons]
      rw [advance] at hnext
      rw [hnext]
      simp [step, proceed, hphase, World.enter]

theorem execute_made (hmade : session.Made files scratch) :
    session.execute (advance 3) = ⟨false, [], .lookingUp files scratch session.lookups⟩ := by
  simp [execute, advance, List.replicate, step, proceed, World.start, check, Session.begin, prepare,
    hmade.valid, hmade.made, World.enter]

theorem execute_answered (hmade : session.Made files scratch) :
    session.execute (advance 3 ++ session.answerAll) =
      ⟨false, [], .lookingUp files scratch
        (session.lookups.map (·.complete session.lookup))⟩ := by
  have hlength : session.timeline.usedAssets.length = session.lookups.length := by
    simp [lookups]
  rw [execute_append, execute_made hmade, answerAll, foldl_step_answer _ files scratch _ rfl,
    hlength, foldl_modify_range]
  rfl

theorem execute_compiled (hmade : session.Made files scratch) :
    session.execute session.prepareAll =
      ⟨false, [], .compiled scratch (session.callOf files scratch).staging
        (session.callOf files scratch).plan⟩ := by
  have hjoin : session.execute (advance 3 ++ session.answerAll ++ advance 1) =
      ⟨false, [], .staging scratch ⟨files, .empty, []⟩ session.answers⟩ := by
    rw [execute_append, execute_answered hmade]
    have hall : (session.lookups.map (·.complete session.lookup)).all Pending.isAnswered = true := by
      simp [Pending.isAnswered, Pending.complete]
    have hanswers : (session.lookups.map (·.complete session.lookup)).filterMap
        Pending.answered? = session.timeline.lookupAll session.lookup := by
      simp [lookups, Timeline.lookupAll, List.filterMap_map, Function.comp_def,
        Pending.answered?, Pending.complete, Pending.ask]
    simp [advance, step, proceed, World.join, hall, hanswers, World.enter, answers]
  rw [prepareAll, execute_append, execute_append, hjoin, foldl_step_staging _ scratch _ _ rfl]
  rfl

theorem exists_execute_of_made (hmade : session.Made files scratch)
    (hcancellation : cancellation ≠ .beforeStart) :
    ∃ events calls report, session.Conclusion cancellation calls report ∧
      (session.execute events).phase = .ended report := by
  cases cancellation with
  | never =>
      refine ⟨session.prepareAll ++ advance 2, _, _, .rendered false hmade, ?_⟩
      rw [execute_append, execute_compiled hmade]
      rfl
  | beforeStart => exact absurd rfl hcancellation
  | duringLookup =>
      refine ⟨advance 3 ++ [.cancel, .proceed true], _, _, .duringLookup hmade, ?_⟩
      rw [execute_append, execute_made hmade]
      rfl
  | beforeRender =>
      refine ⟨session.prepareAll ++ [.cancel, .proceed false], _, _, .beforeRender hmade, ?_⟩
      rw [execute_append, execute_compiled hmade]
      rfl
  | duringRender =>
      refine ⟨session.prepareAll ++ [.proceed false, .cancel, .proceed false], _, _, .rendered true hmade, ?_⟩
      rw [execute_append, execute_compiled hmade]
      rfl

theorem exists_execute_eq_runAtOnce (session : Session) (hstage : session.stage = FileSystem.stage)
    (cancellation : Cancellation) :
    ∃ events, (session.execute events).phase = .ended (session.runAtOnce cancellation) := by
  cases hvalid : session.timeline.validate with
  | error problem =>
      have hrun : session.runAtOnce cancellation =
          .failed session.files (.invalid problem) := by
        simp only [runAtOnce, run, hvalid]
      refine ⟨advance 1, ?_⟩
      simp [hrun, execute, advance, step, proceed, World.start, check, hvalid, World.enter]
  | ok =>
      by_cases hstart : cancellation = .beforeStart
      · subst hstart
        rw [← (Conclusion.beforeStart hvalid).report_eq hstage]
        refine ⟨.cancel :: advance 2, ?_⟩
        simp [execute, advance, List.replicate, step, proceed, World.start, check, Session.begin,
          hvalid, World.enter]
      · generalize hmake : session.files.makeScratch session.options.scratchRoot
          session.draw.scratchName = made
        obtain ⟨files, error | scratch⟩ := made
        · have hrun : session.runAtOnce cancellation = .failed files error := by
            simp only [runAtOnce, run, hvalid, hmake, hstart, if_false]
          refine ⟨advance 3, ?_⟩
          simp [hrun, execute, advance, List.replicate, step, proceed, World.start, check,
            Session.begin, prepare, hvalid, hmake, World.enter]
        · obtain ⟨events, calls, report, hconclusion, hphase⟩ :=
            exists_execute_of_made ⟨hvalid, hmake⟩ hstart
          exact ⟨events, by rw [hphase, hconclusion.report_eq hstage]⟩

/-- Every run comes to a conclusion, under some cancellation. -/
theorem exists_conclusion (session : Session) (hstage : session.stage = FileSystem.stage)
    (cancellation : Cancellation) :
    ∃ other calls, session.Conclusion other calls (session.runAtOnce cancellation) := by
  obtain ⟨events, hended⟩ := session.exists_execute_eq_runAtOnce hstage cancellation
  have hholds := session.holds_execute events
  rw [Holds, hended] at hholds
  obtain ⟨other, hconclusion⟩ := hholds
  exact ⟨other, _, hconclusion⟩

end Session

end Compositor
