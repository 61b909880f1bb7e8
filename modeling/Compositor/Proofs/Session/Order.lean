import Compositor.Proofs.Session.Footprint
import Compositor.Proofs.Session.Schedule
import Compositor.Proofs.Session.Verdict

/-!
# Order and cancellation

The engine is called once at most, after everything else is done, and only if
the token was not cancelled until then.  A run whose token is cancelled earlier
comes to an end by itself, without the engine and without a new file.
-/

namespace Compositor

open FileSystem

namespace Session

variable {session : Session} {events : List Event} {world : World} {files : FileSystem}
  {scratch : Scratch}

@[simp] theorem isCancelled_enter (world : World) (phase : Phase) :
    (world.enter phase).isCancelled = world.isCancelled := rfl

@[simp] theorem isCancelled_close (world : World) (scratch : Scratch) (report : RunReport) :
    (world.close scratch report).isCancelled = world.isCancelled := rfl

theorem isCancelled_answer (session : Session) (world : World) (index : Nat) :
    (session.answer world index).isCancelled = world.isCancelled := by
  unfold answer
  split <;> rfl

theorem isCancelled_join (world : World) (tokenFirst : Bool) (files : FileSystem)
    (scratch : Scratch) (lookups : List Pending) :
    (world.join tokenFirst files scratch lookups).isCancelled = world.isCancelled := by
  unfold World.join
  split
  · rfl
  · split <;> rfl

theorem isCancelled_proceed (session : Session) (world : World) (tokenFirst : Bool) :
    (session.proceed world tokenFirst).isCancelled = world.isCancelled := by
  unfold proceed
  split
  · unfold check
    split <;> rfl
  · unfold Session.begin
    split <;> rfl
  · unfold prepare
    split <;> rfl
  · exact isCancelled_join _ _ _ _ _
  · rfl
  · rfl
  · unfold render
    split <;> rfl
  · rfl
  · rfl

theorem isCancelled_execute (session : Session) (events : List Event) :
    (session.execute events).isCancelled = true ↔ .cancel ∈ events := by
  induction events using List.reverseRecOn with
  | nil => simp [World.start]
  | append_singleton events event ih =>
      rw [execute_concat]
      cases event with
      | cancel => simp [step]
      | answer index => simp [step, isCancelled_answer, ih]
      | proceed tokenFirst => simp [step, isCancelled_proceed, ih]

/-! ## Calls -/

theorem calls_answer (session : Session) (world : World) (index : Nat) :
    (session.answer world index).calls = world.calls := by
  unfold answer
  split <;> rfl

theorem calls_join (world : World) (tokenFirst : Bool) (files : FileSystem) (scratch : Scratch)
    (lookups : List Pending) :
    (world.join tokenFirst files scratch lookups).calls = world.calls := by
  unfold World.join
  split
  · rfl
  · split <;> rfl

def Calls (session : Session) (world : World) (call : Call) : Prop :=
  ∃ scratch, world.phase = .compiled scratch call.staging call.plan ∧
    world.isCancelled = false ∧
    call.output = outputPath session.options session.draw session.timeline.settings.title

theorem calls_proceed (session : Session) (world : World) (tokenFirst : Bool) :
    (session.proceed world tokenFirst).calls = world.calls ∨
      ∃ call, session.Calls world call ∧
        (session.proceed world tokenFirst).calls = world.calls ++ [call] := by
  unfold proceed
  split
  · unfold check
    split <;> exact Or.inl rfl
  · unfold Session.begin
    split <;> exact Or.inl rfl
  · unfold prepare
    split <;> exact Or.inl rfl
  · exact Or.inl (calls_join _ _ _ _ _)
  · exact Or.inl rfl
  · exact Or.inl rfl
  · rename_i scratch staging plan hphase
    unfold render
    split
    · exact Or.inl rfl
    · rename_i hclear
      refine Or.inr ⟨session.call staging plan, ⟨scratch, hphase, by simpa using hclear, ?_⟩, rfl⟩
      simp only [call]
  · exact Or.inl rfl
  · exact Or.inl rfl

theorem calls_step (session : Session) (world : World) (event : Event) :
    (session.step world event).calls = world.calls ∨
      ∃ call tokenFirst, event = .proceed tokenFirst ∧ session.Calls world call ∧
        (session.step world event).calls = world.calls ++ [call] := by
  cases event with
  | cancel => exact Or.inl rfl
  | answer index => exact Or.inl (calls_answer session world index)
  | proceed tokenFirst =>
      rcases calls_proceed session world tokenFirst with hsame | ⟨call, hcall, hcalls⟩
      · exact Or.inl hsame
      · exact Or.inr ⟨call, tokenFirst, rfl, hcall, hcalls⟩

theorem length_calls_execute (session : Session) (events : List Event) :
    (session.execute events).calls.length ≤ 1 := by
  cases hcalls : (session.execute events).calls with
  | nil => simp
  | cons call rest =>
      have hcalled := called_of_mem (hcalls ▸ List.mem_cons_self)
      rw [← hcalls, hcalled.calls]
      simp

theorem exists_calls_of_mem {call : Call} (h : call ∈ (session.execute events).calls) :
    ∃ before tokenFirst after, events = before ++ .proceed tokenFirst :: after ∧
      session.Calls (session.execute before) call := by
  induction events using List.reverseRecOn with
  | nil => simp [World.start] at h
  | append_singleton events event ih =>
      rw [execute_concat] at h
      have hearlier : call ∈ (session.execute events).calls →
          ∃ before tokenFirst after, events ++ [event] = before ++ .proceed tokenFirst :: after ∧
            session.Calls (session.execute before) call := by
        intro hcall
        obtain ⟨before, tokenFirst, after, rfl, hcalls⟩ := ih hcall
        exact ⟨before, tokenFirst, after ++ [event], by simp, hcalls⟩
      rcases calls_step session (session.execute events) event with
        hsame | ⟨last, tokenFirst, rfl, hlast, hcalls⟩
      · exact hearlier (hsame ▸ h)
      · rw [hcalls, List.mem_append, List.mem_singleton] at h
        rcases h with hcall | rfl
        · exact hearlier hcall
        · exact ⟨events, tokenFirst, [], rfl, hlast⟩

theorem calls_foldl_step (hcancelled : world.isCancelled = true) (after : List Event) :
    (after.foldl session.step world).calls = world.calls := by
  induction after generalizing world with
  | nil => rfl
  | cons event after ih =>
      have hnext : (session.step world event).isCancelled = true := by
        cases event with
        | cancel => rfl
        | answer index => rwa [step, isCancelled_answer]
        | proceed tokenFirst => rwa [step, isCancelled_proceed]
      rw [List.foldl_cons, ih hnext]
      rcases calls_step session world event with hsame | ⟨_, _, _, ⟨_, _, hclear, _⟩, _⟩
      · exact hsame
      · simp [hcancelled] at hclear

/-- What is a file now was the same file before, but for some places. -/
def FilesKept (isFree : Location → Prop) (before after : FileSystem) : Prop :=
  ∀ location content, after.entry? location = some (.file content) →
    before.entry? location = some (.file content) ∨ isFree location

theorem filesKept_of_frame {isFree isNew : Location → Prop} {before after : FileSystem}
    (h : Frame isFree isNew before after) : FilesKept isFree before after := by
  intro location content hfile
  rcases h.entries location with hfree | hsame | ⟨_, _, hmade⟩
  · exact Or.inr hfree
  · exact Or.inl (hsame ▸ hfile)
  · simp [hmade] at hfile

theorem FilesKept.close {before after : FileSystem}
    (h : FilesKept (scratch.location <+: ·) before after) (isFree : Location → Prop) :
    FilesKept isFree before (after.closeScratch scratch) := by
  intro location content hfile
  by_cases hbelow : scratch.location <+: location
  · have hne : location ≠ [] := by
      rintro rfl
      simp at hfile
    rw [closeScratch, entry?_eraseTree_below hne hbelow] at hfile
    cases hfile
  · rw [closeScratch, entry?_eraseTree_outside hbelow] at hfile
    exact (h location content hfile).imp_right fun hfree => absurd hfree hbelow

theorem Made.isScratch (h : session.Made files scratch) :
    IsScratch session.options.scratchRoot session.draw.scratchName session.files files scratch :=
  isScratch_makeScratch h.made

theorem Made.filesKept (h : session.Made files scratch) (hstage : session.stage = FileSystem.stage)
    (done : List ((String × Asset × Except LookupError AssetContent) × Nat)) :
    FilesKept (scratch.location <+: ·) session.files
      (session.stagedSome files scratch done).files := by
  have hscratch := h.isScratch
  have hmade : Frame (scratch.location <+: ·) (session.files.OnWay session.options.scratchRoot)
      session.files files := by
    refine hscratch.frame.mono ?_ fun _ => id
    rintro location rfl
    exact List.prefix_rfl
  rw [stagedSome, hstage, Staging.addBy_stage]
  refine filesKept_of_frame (hmade.trans ?_)
  refine (Staging.frame_foldl_add done ⟨files, .empty, []⟩ ?_).mono (fun _ => id)
    fun _ => False.elim
  rw [hmade.place_eq, hscratch.location_eq]

theorem Made.there (h : session.Made files scratch) (hstage : session.stage = FileSystem.stage)
    (done : List ((String × Asset × Except LookupError AssetContent) × Nat)) :
    (session.stagedSome files scratch done).files.entry? scratch.location = some .directory := by
  rw [stagedSome, hstage, Staging.addBy_stage]
  exact Staging.keepsDirectories_foldl_add done ⟨files, .empty, []⟩ _ h.isScratch.there

structure Invoked (session : Session) (events : List Event) (call : Call) : Prop where
  valid : session.timeline.validate = .ok ()
  cleared : ∃ before tokenFirst after scratch,
    events = before ++ .proceed tokenFirst :: after ∧
    (session.execute before).phase = .compiled scratch call.staging call.plan ∧
    (session.execute before).isCancelled = false ∧ .cancel ∉ before ∧
    session.AllAnswered before ∧
    call.staging.files.entry? scratch.location = some .directory

theorem invoked_of_mem (hstage : session.stage = FileSystem.stage) {call : Call}
    (h : call ∈ (session.execute events).calls) : session.Invoked events call := by
  obtain ⟨before, tokenFirst, after, hevents, scratch, hphase, hclear, _⟩ := exists_calls_of_mem h
  have hholds := session.holds_execute before
  rw [Holds, hphase] at hholds
  obtain ⟨⟨files, hmade, hstaging, _⟩, hanswered, _⟩ := hholds
  refine ⟨hmade.valid, before, tokenFirst, after, scratch, hevents, hphase, hclear, ?_, hanswered,
    ?_⟩
  · rw [← isCancelled_execute session, hclear]
    exact Bool.false_ne_true
  · rw [hstaging]
    exact hmade.there hstage session.answers

def filesOf (session : Session) (world : World) : FileSystem :=
  match world.phase with
  | .unchecked | .checked | .cleared => session.files
  | .lookingUp files _ _ => files
  | .staging _ staging _ | .compiled _ staging _ => staging.files
  | .rendering _ call => call.staging.files
  | .ended report => report.files

/-- The reason for ending without a call: the timeline, or else the scratch directory or the
token. -/
def Explains (session : Session) (error : RenderError) : Prop :=
  match session.timeline.validate with
  | .error problem => error = .invalid problem
  | .ok () =>
    error.kind = "cancelled" ∨
      error.kind = "internal" ∧ ∃ files, session.files.makeScratch session.options.scratchRoot
        session.draw.scratchName = (files, .error error)

structure Stopped (session : Session) (world : World) : Prop where
  uncalled : world.calls = []
  files : FilesKept (fun location => ∃ scratch, world.scratch? = some scratch ∧
    scratch.location <+: location) session.files (session.filesOf world)
  outcome : ∀ report, world.phase = .ended report →
    ∃ error, report.outcome = some (.error error) ∧ session.Explains error

theorem Conclusion.explains {cancellation : Cancellation} {report : RunReport}
    (h : session.Conclusion cancellation [] report) :
    ∃ error, report.outcome = some (.error error) ∧ session.Explains error := by
  cases h with
  | invalid hproblem => exact ⟨_, rfl, by simp [Explains, hproblem]⟩
  | beforeStart hvalid => exact ⟨_, rfl, by simp [Explains, hvalid, RenderError.kind]⟩
  | unprepared hvalid hmake =>
      exact ⟨_, rfl, by simp [Explains, hvalid, hmake, kind_makeScratch hmake]⟩
  | duringLookup hmade => exact ⟨_, rfl, by simp [Explains, hmade.valid, RenderError.kind]⟩
  | beforeRender hmade => exact ⟨_, rfl, by simp [Explains, hmade.valid, RenderError.kind]⟩

theorem Conclusion.filesKept {cancellation : Cancellation} {report : RunReport}
    (h : session.Conclusion cancellation [] report) (hstage : session.stage = FileSystem.stage)
    (isFree : Location → Prop) : FilesKept isFree session.files report.files := by
  have hsame : FilesKept isFree session.files session.files := fun _ _ => Or.inl
  cases h with
  | invalid => exact hsame
  | beforeStart => exact hsame
  | unprepared _ hmake =>
      exact filesKept_of_frame
        ((frame_makeScratch_error hmake).mono (fun _ => False.elim) fun _ => id)
  | duringLookup hmade => exact (hmade.filesKept hstage []).close isFree
  | beforeRender hmade => exact (hmade.filesKept hstage session.answers).close isFree

theorem Holds.filesKept (h : session.Holds events world) (hcalls : world.calls = [])
    (hstage : session.stage = FileSystem.stage) :
    FilesKept (fun location => ∃ scratch, world.scratch? = some scratch ∧
      scratch.location <+: location) session.files (session.filesOf world) := by
  have hwithin : ∀ {files : FileSystem} {scratch : Scratch},
      world.scratch? = some scratch → FilesKept (scratch.location <+: ·) session.files files →
      FilesKept (fun location => ∃ scratch, world.scratch? = some scratch ∧
        scratch.location <+: location) session.files files :=
    fun hscratch hkept location content hfile =>
      (hkept location content hfile).imp_right fun hbelow => ⟨_, hscratch, hbelow⟩
  obtain ⟨isCancelled, calls, phase⟩ := world
  cases phase with
  | lookingUp files scratch lookups => exact hwithin rfl (h.1.filesKept hstage [])
  | staging scratch staging rest =>
      obtain ⟨⟨files, done, hmade, _, rfl⟩, _⟩ := h
      exact hwithin rfl (hmade.filesKept hstage done)
  | compiled scratch staging plan =>
      obtain ⟨⟨files, hmade, rfl, _⟩, _⟩ := h
      exact hwithin rfl (hmade.filesKept hstage session.answers)
  | rendering scratch call => simp [show calls = [call] from h.2] at hcalls
  | ended report =>
      obtain ⟨cancellation, h⟩ := h
      rw [hcalls] at h
      exact h.filesKept hstage _
  | _ => exact fun _ _ => Or.inl

theorem Holds.stopped (h : session.Holds events world) (hcalls : world.calls = [])
    (hstage : session.stage = FileSystem.stage) : session.Stopped world where
  uncalled := hcalls
  files := h.filesKept hcalls hstage
  outcome report hphase := by
    rw [Holds, hphase, hcalls] at h
    obtain ⟨cancellation, h⟩ := h
    exact h.explains

def stepsLeft (session : Session) (world : World) : Nat :=
  match world.phase with
  | .unchecked => session.timeline.usedAssets.length + 7
  | .checked => session.timeline.usedAssets.length + 6
  | .cleared => session.timeline.usedAssets.length + 5
  | .lookingUp _ _ lookups => lookups.length + 4
  | .staging _ _ rest => rest.length + 3
  | .compiled _ _ _ => 2
  | .rendering _ _ => 1
  | .ended _ => 0

theorem isEnded_of_stepsLeft (session : Session) (h : session.stepsLeft world = 0) : world.IsEnded := by
  obtain ⟨isCancelled, calls, phase⟩ := world
  cases phase <;> simp [stepsLeft] at h
  exact ⟨_, rfl⟩

theorem stepsLeft_answer (session : Session) (world : World) (index : Nat) :
    session.stepsLeft (session.answer world index) = session.stepsLeft world := by
  obtain ⟨isCancelled, calls, phase⟩ := world
  cases phase <;> simp [answer, stepsLeft, World.enter]

theorem stepsLeft_proceed (session : Session) (hcancelled : world.isCancelled = true)
    (tokenFirst : Bool) :
    session.stepsLeft (session.proceed world tokenFirst) ≤ session.stepsLeft world - 1 := by
  obtain ⟨isCancelled, calls, phase⟩ := world
  subst hcancelled
  cases phase with
  | unchecked =>
      simp only [proceed, check]
      split <;> simp [stepsLeft, World.enter]
  | checked => simp [proceed, Session.begin, stepsLeft, World.enter]
  | cleared =>
      simp only [proceed, prepare]
      split <;> simp [stepsLeft, World.enter, lookups]
  | lookingUp files scratch lookups =>
      simp only [proceed, World.join]
      split
      · simp [stepsLeft, World.close, World.enter]
      · split
        · have hlength := List.length_filterMap_le Pending.answered? lookups
          simp only [stepsLeft, World.enter, List.length_zipIdx]
          omega
        · simp_all
  | staging scratch staging rest => cases rest <;> simp [proceed, stepsLeft, World.enter]
  | compiled => simp [proceed, render, stepsLeft, World.close, World.enter]
  | rendering => simp [proceed, stepsLeft, World.close, World.enter]
  | ended => simp [proceed, stepsLeft]

theorem stepsLeft_foldl_step (session : Session) (hcancelled : world.isCancelled = true)
    (after : List Event) :
    session.stepsLeft (after.foldl session.step world) ≤
      session.stepsLeft world - after.countP Event.isProceed := by
  induction after generalizing world with
  | nil => simp
  | cons event after ih =>
      rw [List.foldl_cons, List.countP_cons]
      cases event with
      | cancel => exact ih rfl
      | answer index =>
          have hrest := @ih (session.answer world index) (by rwa [isCancelled_answer])
          rwa [stepsLeft_answer] at hrest
      | proceed tokenFirst =>
          have hrest := @ih (session.proceed world tokenFirst) (by rwa [isCancelled_proceed])
          have hfirst := stepsLeft_proceed session hcancelled tokenFirst
          simp only [step, Event.isProceed, if_true]
          omega

theorem stepsLeft_le (h : session.Holds events world) :
    session.stepsLeft world ≤ session.timeline.usedAssets.length + 7 := by
  obtain ⟨isCancelled, calls, phase⟩ := world
  cases phase with
  | lookingUp files scratch lookups =>
      have hlength := congrArg List.length h.2.1.items
      simp only [List.length_map] at hlength
      simp [stepsLeft, hlength]
  | staging scratch staging rest =>
      obtain ⟨⟨files, done, _, hdone, _⟩, _⟩ := h
      have hlength := congrArg List.length hdone
      simp only [List.length_append, answers, List.length_zipIdx, Timeline.lookupAll,
        List.length_map] at hlength
      simp only [stepsLeft]
      omega
  | _ => simp [stepsLeft]

/-! ## Every order -/

theorem stopped_of_cancel (hstage : session.stage = FileSystem.stage) {before after : List Event}
    (hcalls : (session.execute before).calls = []) :
    session.Stopped (session.execute (before ++ .cancel :: after)) := by
  refine (session.holds_execute _).stopped ?_ hstage
  rw [execute_append, List.foldl_cons, calls_foldl_step rfl]
  exact hcalls

theorem isEnded_of_cancel {before after : List Event}
    (hafter : session.timeline.usedAssets.length + 7 ≤ after.countP Event.isProceed) :
    (session.execute (before ++ .cancel :: after)).IsEnded := by
  have hleft := stepsLeft_le (session.holds_execute before)
  have hrest := @stepsLeft_foldl_step (session.step (session.execute before) .cancel) session rfl
    after
  apply isEnded_of_stepsLeft session
  rw [execute_append, List.foldl_cons]
  change _ ≤ session.stepsLeft (session.execute before) - _ at hrest
  omega

theorem isEnded_of_call {call : Call} (h : call ∈ (session.execute events).calls)
    (tokenFirst : Bool) : (session.execute (events ++ [.proceed tokenFirst])).IsEnded := by
  rw [execute_concat]
  obtain ⟨files, scratch, -, -, hphase | ⟨isCancelled, hphase⟩⟩ := (called_of_mem h).phase
  · refine ⟨(session.rendered call (session.execute events).isCancelled).close scratch, ?_⟩
    simp only [step, proceed, hphase, World.close, World.enter]
  · refine ⟨(session.rendered call isCancelled).close scratch, ?_⟩
    simp only [step, proceed, hphase]

theorem verdict_of_mem {call : Call} {report : RunReport}
    (h : call ∈ (session.execute events).calls)
    (hengine : ∀ isCancelled, (session.engine (call.job isCancelled) call.staging.files).files.stat
      call.output ≠ .ok .directory)
    (hended : (session.execute events).phase = .ended report) :
    ∃ isCancelled, report.job = some (call.job isCancelled, call.staging.files) ∧
      Verdict session.options.timeout call.output
        (session.engine (call.job isCancelled) call.staging.files) report.outcome := by
  obtain ⟨_, scratch, isCancelled, -, rfl⟩ := (called_of_mem h).report_eq hended
  exact ⟨isCancelled, rfl, (verdict_finishRender session.options (hengine isCancelled)).map _⟩

/-- The order of the stages of a run, and what a cancellation and the engine decide. -/
structure Ordered (session : Session) (events : List Event) : Prop where
  once : (session.execute events).calls.length ≤ 1
  invoked : ∀ call ∈ (session.execute events).calls, session.Invoked events call
  cancelled : ∀ before after, events = before ++ .cancel :: after →
    (session.execute before).calls = [] →
    session.Stopped (session.execute events) ∧
    (session.timeline.usedAssets.length + 7 ≤ after.countP Event.isProceed →
      (session.execute events).IsEnded)
  judged : ∀ call ∈ (session.execute events).calls,
    (∀ tokenFirst, (session.execute (events ++ [.proceed tokenFirst])).IsEnded) ∧
    ∀ report, (session.execute events).phase = .ended report →
      ∃ isCancelled, report.job = some (call.job isCancelled, call.staging.files) ∧
        Verdict session.options.timeout call.output
          (session.engine (call.job isCancelled) call.staging.files) report.outcome
  runs : ∀ report, (session.execute events).phase = .ended report →
    ∃ cancellation, report = session.runAtOnce cancellation

/-- In whatever order things happen, the engine is called once at most and after everything else;
a token that is cancelled before keeps it from being called; and what it does when it is called
decides about the outcome. -/
theorem ordered_execute (session : Session) (hstage : session.stage = FileSystem.stage)
    (events : List Event)
    (hengine : ∀ call ∈ (session.execute events).calls, ∀ isCancelled,
      (session.engine (call.job isCancelled) call.staging.files).files.stat call.output ≠
        .ok .directory) :
    session.Ordered events where
  once := length_calls_execute session events
  invoked _ := invoked_of_mem hstage
  cancelled := by
    rintro before after rfl hcalls
    exact ⟨stopped_of_cancel hstage hcalls, isEnded_of_cancel⟩
  judged call hcall :=
    ⟨isEnded_of_call hcall, fun _ => verdict_of_mem hcall (hengine call hcall)⟩
  runs _ := exists_runAtOnce_of_ended hstage

def rehearsal : Session where
  options := plainOptions
  draw := plainDraw
  lookup := lookupTable (Table.empty.insert "a" (.bytes [1]))
  stage := FileSystem.stage
  engine := Engine.writer [0]
  timeline :=
    ⟨[⟨"t", .video, "", [⟨"c", "a", "t", 0.0, 1.0, 1.0, 0.0, 0.0, .cut⟩], false, 1.0⟩],
      .default "x" 2.0, Table.empty.insert "a" (.plain .video "a.mp4")⟩
  files := ⟨[], []⟩

def lateCancellation : List Event :=
  advance 3 ++ .answer 0 :: advance 4 ++ [.cancel, .proceed false]

theorem ordered_execute_rehearsal :
    rehearsal.stage = FileSystem.stage ∧
    (∀ call ∈ (rehearsal.execute lateCancellation).calls, ∀ isCancelled,
      (rehearsal.engine (call.job isCancelled) call.staging.files).files.stat call.output ≠
        .ok .directory) ∧
    (rehearsal.execute lateCancellation).calls.length = 1 ∧
    rehearsal.Ordered lateCancellation := by
  have hengine : ∀ call ∈ (rehearsal.execute lateCancellation).calls, ∀ isCancelled,
      (rehearsal.engine (call.job isCancelled) call.staging.files).files.stat call.output ≠
        .ok .directory := by decide +kernel
  have hcalls : (rehearsal.execute lateCancellation).calls.length = 1 := by decide +kernel
  exact ⟨rfl, hengine, hcalls, ordered_execute rehearsal rfl lateCancellation hengine⟩

end Session

end Compositor
