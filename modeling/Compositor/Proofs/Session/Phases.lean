import Compositor.Proofs.Session.Execution
import Mathlib.Data.List.Basic
import Mathlib.Data.List.Induction

/-!
# What is known in each phase

In whatever order things happen, the phase of a run tells what has been checked,
made, answered and staged so far, and how often the engine has been called.  A
run that has ended did so in one of six ways.
-/

namespace Compositor

namespace Session

variable (session : Session)

/-- The timeline is fine, and there is a scratch directory. -/
structure Made (files : FileSystem) (scratch : Scratch) : Prop where
  valid : session.timeline.validate = .ok ()
  made : session.files.makeScratch session.options.scratchRoot session.draw.scratchName =
    (files, .ok scratch)

/-- Each lookup is open, or it was answered for its own asset. -/
structure Asked (events : List Event) (lookups : List Pending) : Prop where
  items : lookups.map (fun pending => (pending.id, pending.asset)) = session.timeline.usedAssets
  answers : ∀ index pending, lookups[index]? = some pending → pending.isAnswered = true →
    pending.answer = some (session.lookup pending.id pending.asset) ∧ .answer index ∈ events

def AllAnswered (events : List Event) : Prop :=
  ∀ index < session.timeline.usedAssets.length, Event.answer index ∈ events

def answers : List ((String × Asset × Except LookupError AssetContent) × Nat) :=
  (session.timeline.lookupAll session.lookup).zipIdx

/-- What is staged when some of the answers have been dealt with. -/
def stagedSome (files : FileSystem) (scratch : Scratch)
    (done : List ((String × Asset × Except LookupError AssetContent) × Nat)) : Staging :=
  done.foldl (Staging.addBy session.stage scratch) ⟨files, .empty, []⟩

def staged (files : FileSystem) (scratch : Scratch) : Staging :=
  session.stagedSome files scratch session.answers

def callOf (files : FileSystem) (scratch : Scratch) : Call :=
  let staging := session.staged files scratch
  session.call staging (session.timeline.compile staging.paths)

/-- How a run ended, with its calls and its report. -/
inductive Conclusion : Cancellation → List Call → RunReport → Prop where
  | invalid {problem : Problem} : session.timeline.validate = .error problem →
      Conclusion .never [] (.failed session.files (.invalid problem))
  | beforeStart : session.timeline.validate = .ok () →
      Conclusion .beforeStart []
        (.failed session.files (.cancelled "cancelled before start"))
  | unprepared {files : FileSystem} {error : RenderError} :
      session.timeline.validate = .ok () →
      session.files.makeScratch session.options.scratchRoot session.draw.scratchName =
        (files, .error error) →
      Conclusion .never [] (.failed files error)
  | duringLookup {files : FileSystem} {scratch : Scratch} : session.Made files scratch →
      Conclusion .duringLookup [] ((RunReport.failed files
        (.cancelled "cancelled while resolving assets")).close scratch)
  | beforeRender {files : FileSystem} {scratch : Scratch} : session.Made files scratch →
      Conclusion .beforeRender [] ((RunReport.failed (session.staged files scratch).files
        (.cancelled "cancelled before rendering")).close scratch)
  | rendered {files : FileSystem} {scratch : Scratch} (isCancelled : Bool) :
      session.Made files scratch →
      Conclusion (if isCancelled then .duringRender else .never) [session.callOf files scratch]
        ((session.rendered (session.callOf files scratch) isCancelled).close scratch)

/-- What the phase of a run tells, after some events. -/
def Holds (events : List Event) (world : World) : Prop :=
  match world.phase with
  | .unchecked => world.calls = []
  | .checked | .cleared => session.timeline.validate = .ok () ∧ world.calls = []
  | .lookingUp files scratch lookups =>
    session.Made files scratch ∧ session.Asked events lookups ∧ world.calls = []
  | .staging scratch staging rest =>
    (∃ files done, session.Made files scratch ∧ done ++ rest = session.answers ∧
      staging = session.stagedSome files scratch done) ∧
    session.AllAnswered events ∧ world.calls = []
  | .compiled scratch staging plan =>
    (∃ files, session.Made files scratch ∧ staging = session.staged files scratch ∧
      plan = session.timeline.compile staging.paths) ∧
    session.AllAnswered events ∧ world.calls = []
  | .rendering scratch call =>
    (∃ files, session.Made files scratch ∧ call = session.callOf files scratch) ∧
    world.calls = [call]
  | .ended report => ∃ cancellation, session.Conclusion cancellation world.calls report

variable {session} {events : List Event} {world : World} {lookups : List Pending}

theorem AllAnswered.mono (h : session.AllAnswered events) (event : Event) :
    session.AllAnswered (events ++ [event]) :=
  fun index hindex => List.mem_append_left _ (h index hindex)

theorem Asked.mono (h : session.Asked events lookups) (event : Event) :
    session.Asked (events ++ [event]) lookups :=
  ⟨h.items, fun index pending hpending hanswered =>
    let ⟨hanswer, hmem⟩ := h.answers index pending hpending hanswered
    ⟨hanswer, List.mem_append_left _ hmem⟩⟩

theorem asked_lookups (events : List Event) : session.Asked events session.lookups where
  items := by simp [lookups, Pending.ask, Function.comp_def]
  answers index pending hpending hanswered := by
    simp only [lookups, List.getElem?_map, Option.map_eq_some_iff] at hpending
    obtain ⟨item, -, rfl⟩ := hpending
    simp [Pending.ask, Pending.isAnswered] at hanswered

theorem Asked.answer (h : session.Asked events lookups) (index : Nat) :
    session.Asked (events ++ [.answer index])
      (lookups.modify index (·.complete session.lookup)) where
  items := by
    rw [← h.items]
    refine List.ext_getElem? fun other => ?_
    simp only [List.getElem?_map, List.getElem?_modify]
    cases lookups[other]? with
    | none => rfl
    | some pending => by_cases heq : index = other <;> simp [heq, Pending.complete]
  answers other pending hpending hanswered := by
    rw [List.getElem?_modify] at hpending
    obtain ⟨before, hbefore, rfl⟩ := Option.map_eq_some_iff.mp hpending
    by_cases heq : index = other
    · simp [heq, Pending.complete]
    · simp only [heq, if_false] at hanswered ⊢
      exact (h.mono (.answer index)).answers other before hbefore hanswered

theorem Asked.filterMap_answered? (h : session.Asked events lookups)
    (hall : lookups.all Pending.isAnswered = true) :
    lookups.filterMap Pending.answered? = session.timeline.lookupAll session.lookup := by
  have hanswer : ∀ pending ∈ lookups, pending.answered? =
      some (pending.id, pending.asset, session.lookup pending.id pending.asset) := by
    intro pending hpending
    obtain ⟨index, hindex⟩ := List.mem_iff_getElem?.mp hpending
    have hanswered := List.all_eq_true.mp hall pending hpending
    rw [Pending.answered?, (h.answers index pending hindex hanswered).1]
    rfl
  rw [List.filterMap_congr hanswer, List.filterMap_eq_map', Timeline.lookupAll, ← h.items,
    List.map_map]
  rfl

theorem Asked.allAnswered (h : session.Asked events lookups)
    (hall : lookups.all Pending.isAnswered = true) : session.AllAnswered events := by
  intro index hindex
  rw [← h.items, List.length_map] at hindex
  exact (h.answers index lookups[index] (List.getElem?_eq_getElem hindex)
    (List.all_eq_true.mp hall _ (List.getElem_mem hindex))).2

theorem Holds.cancel (h : session.Holds events world) :
    session.Holds (events ++ [.cancel]) { world with isCancelled := true } := by
  obtain ⟨isCancelled, calls, phase⟩ := world
  cases phase with
  | lookingUp files scratch lookups => exact ⟨h.1, h.2.1.mono _, h.2.2⟩
  | staging scratch staging rest => exact ⟨h.1, h.2.1.mono _, h.2.2⟩
  | compiled scratch staging plan => exact ⟨h.1, h.2.1.mono _, h.2.2⟩
  | _ => exact h

theorem Holds.answer (h : session.Holds events world) (index : Nat) :
    session.Holds (events ++ [.answer index]) (session.answer world index) := by
  obtain ⟨isCancelled, calls, phase⟩ := world
  cases phase with
  | lookingUp files scratch lookups => exact ⟨h.1, h.2.1.answer index, h.2.2⟩
  | staging scratch staging rest => exact ⟨h.1, h.2.1.mono _, h.2.2⟩
  | compiled scratch staging plan => exact ⟨h.1, h.2.1.mono _, h.2.2⟩
  | _ => exact h

theorem Conclusion.holds {cancellation : Cancellation} {calls : List Call} {report : RunReport}
    (h : session.Conclusion cancellation calls report) (hcalls : world.calls = calls)
    (events : List Event) : session.Holds events (world.enter (.ended report)) :=
  ⟨cancellation, hcalls.symm ▸ h⟩

theorem Holds.check (hcalls : world.calls = []) (events : List Event) :
    session.Holds events (session.check world) := by
  unfold Session.check
  split
  · rename_i problem hproblem
    exact Conclusion.holds (.invalid hproblem) hcalls events
  · rename_i hvalid
    exact ⟨hvalid, hcalls⟩

theorem Holds.begin (hvalid : session.timeline.validate = .ok ()) (hcalls : world.calls = [])
    (events : List Event) : session.Holds events (session.begin world) := by
  unfold Session.begin
  split
  · exact Conclusion.holds (.beforeStart hvalid) hcalls events
  · exact ⟨hvalid, hcalls⟩

theorem Holds.prepare (hvalid : session.timeline.validate = .ok ()) (hcalls : world.calls = [])
    (events : List Event) : session.Holds events (session.prepare world) := by
  unfold Session.prepare
  split
  · rename_i hmade
    exact Conclusion.holds (.unprepared hvalid hmade) hcalls events
  · rename_i hmade
    exact ⟨⟨hvalid, hmade⟩, asked_lookups events, hcalls⟩

theorem Holds.join {files : FileSystem} {scratch : Scratch} (hmade : session.Made files scratch)
    (hasked : session.Asked events lookups) (hcalls : world.calls = [])
    (hphase : world.phase = .lookingUp files scratch lookups) (tokenFirst : Bool) :
    session.Holds events (world.join tokenFirst files scratch lookups) := by
  unfold World.join
  split
  · exact Conclusion.holds (.duringLookup hmade) hcalls events
  · split
    · rename_i hall
      refine ⟨⟨files, [], hmade, ?_, rfl⟩, hasked.allAnswered hall, hcalls⟩
      rw [hasked.filterMap_answered? hall]
      rfl
    · simp only [Holds, hphase]
      exact ⟨hmade, hasked, hcalls⟩

theorem Holds.render {files : FileSystem} {scratch : Scratch} {staging : Staging} {plan : Plan}
    (hmade : session.Made files scratch) (hstaging : staging = session.staged files scratch)
    (hplan : plan = session.timeline.compile staging.paths) (hcalls : world.calls = [])
    (events : List Event) : session.Holds events (session.render world scratch staging plan) := by
  subst hstaging hplan
  unfold Session.render
  split
  · exact Conclusion.holds (.beforeRender hmade) hcalls events
  · refine ⟨⟨files, hmade, rfl⟩, ?_⟩
    rw [hcalls, List.nil_append]

theorem Holds.proceed (h : session.Holds events world) (tokenFirst : Bool) :
    session.Holds (events ++ [.proceed tokenFirst]) (session.proceed world tokenFirst) := by
  obtain ⟨isCancelled, calls, phase⟩ := world
  cases phase with
  | unchecked => exact .check h _
  | checked => exact .begin h.1 h.2 _
  | cleared => exact .prepare h.1 h.2 _
  | lookingUp files scratch lookups => exact .join h.1 (h.2.1.mono _) h.2.2 rfl tokenFirst
  | staging scratch staging rest =>
      obtain ⟨⟨files, done, hmade, hdone, rfl⟩, hanswered, hcalls⟩ := h
      cases rest with
      | nil =>
          rw [List.append_nil] at hdone
          exact ⟨⟨files, hmade, by rw [hdone]; rfl, rfl⟩, hanswered.mono _, hcalls⟩
      | cons item rest =>
          refine ⟨⟨files, done ++ [item], hmade, ?_, ?_⟩, hanswered.mono _, hcalls⟩
          · simp [← hdone]
          · simp [stagedSome]
  | compiled scratch staging plan =>
      obtain ⟨⟨files, hmade, hstaging, hplan⟩, -, hcalls⟩ := h
      exact .render hmade hstaging hplan hcalls _
  | rendering scratch call =>
      obtain ⟨⟨files, hmade, rfl⟩, hcalls⟩ := h
      exact Conclusion.holds (.rendered isCancelled hmade) hcalls _
  | ended report => exact h

theorem Holds.step (h : session.Holds events world) (event : Event) :
    session.Holds (events ++ [event]) (session.step world event) := by
  cases event with
  | cancel => exact h.cancel
  | answer index => exact h.answer index
  | proceed tokenFirst => exact h.proceed tokenFirst

@[simp] theorem execute_nil : session.execute [] = .start := rfl

@[simp] theorem execute_concat (events : List Event) (event : Event) :
    session.execute (events ++ [event]) = session.step (session.execute events) event := by
  simp [execute]

theorem execute_append (before after : List Event) :
    session.execute (before ++ after) = after.foldl session.step (session.execute before) := by
  simp [execute]

theorem holds_execute (session : Session) (events : List Event) :
    session.Holds events (session.execute events) := by
  induction events using List.reverseRecOn with
  | nil => rfl
  | append_singleton events event ih =>
      rw [execute_concat]
      exact ih.step event

/-- A call follows from the session, and nothing comes after it but its end. -/
structure Called (session : Session) (world : World) (call : Call) : Prop where
  calls : world.calls = [call]
  phase : ∃ files scratch, session.Made files scratch ∧ call = session.callOf files scratch ∧
    (world.phase = .rendering scratch call ∨
      ∃ isCancelled, world.phase = .ended ((session.rendered call isCancelled).close scratch))

theorem called_of_mem {call : Call} (h : call ∈ (session.execute events).calls) :
    session.Called (session.execute events) call := by
  have hholds := session.holds_execute events
  generalize session.execute events = world at h hholds
  obtain ⟨isCancelled, calls, phase⟩ := world
  cases phase with
  | unchecked => simp [show calls = [] from hholds] at h
  | checked => simp [show calls = [] from hholds.2] at h
  | cleared => simp [show calls = [] from hholds.2] at h
  | lookingUp => simp [show calls = [] from hholds.2.2] at h
  | staging => simp [show calls = [] from hholds.2.2] at h
  | compiled => simp [show calls = [] from hholds.2.2] at h
  | rendering scratch other =>
      obtain ⟨⟨files, hmade, hother⟩, hcalls⟩ := hholds
      have hcall : call = other := by simpa [show calls = [other] from hcalls] using h
      subst hcall
      exact ⟨hcalls, files, scratch, hmade, hother, Or.inl rfl⟩
  | ended report =>
      obtain ⟨cancellation, hconclusion⟩ := hholds
      cases hconclusion with
      | rendered isCancelled hmade =>
          rw [List.mem_singleton] at h
          subst h
          exact ⟨rfl, _, _, hmade, rfl, Or.inr ⟨isCancelled, rfl⟩⟩
      | _ => simp at h

theorem Called.report_eq {call : Call} {report : RunReport} (h : session.Called world call)
    (hended : world.phase = .ended report) :
    ∃ files scratch isCancelled, session.Made files scratch ∧
      report = (session.rendered call isCancelled).close scratch := by
  obtain ⟨files, scratch, hmade, -, hphase | ⟨isCancelled, hphase⟩⟩ := h.phase
  · rw [hended] at hphase
    cases hphase
  · rw [hended, Phase.ended.injEq] at hphase
    exact ⟨files, scratch, isCancelled, hmade, hphase⟩

end Session

end Compositor
