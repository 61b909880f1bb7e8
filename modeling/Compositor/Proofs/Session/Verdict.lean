import Compositor.Session.Run

/-!
# What comes of a call

Whether a render succeeded is decided by how the engine ended, by the time that
it took, and by what stands at the output.
-/

namespace Compositor

namespace EngineRun

def Returns (timeout : Nat) (run : EngineRun) (result : Except RenderError String) : Prop :=
  ∃ millis ≤ timeout, run.ending = .finished millis result

def IsLate (timeout : Nat) (run : EngineRun) : Prop :=
  run.ending = .endless ∨
    ∃ millis result, run.ending = .finished millis result ∧ timeout < millis

def LeavesNothing (output : String) (run : EngineRun) : Prop :=
  (∃ error, run.files.stat output = .error error) ∨ run.files.stat output = .ok (.file [])

def LeavesFile (output : String) (run : EngineRun) : Prop :=
  ∃ content, run.files.stat output = .ok (.file content) ∧ 0 < content.length

end EngineRun

def IsEngineFailure {α : Type} (outcome : Option (Except RenderError α)) : Prop :=
  ∃ error, outcome = some (.error error) ∧ error.kind = "render_engine"

/-- The outcome of a render, as it follows from what the engine did. -/
structure Verdict {α : Type} (timeout : Nat) (output : String) (run : EngineRun)
    (outcome : Option (Except RenderError α)) : Prop where
  ok_iff : (∃ result, outcome = some (.ok result)) ↔
    (∃ diagnostics, run.Returns timeout (.ok diagnostics)) ∧ run.LeavesFile output
  late : run.IsLate timeout → IsEngineFailure outcome
  unwritten : (∃ diagnostics, run.Returns timeout (.ok diagnostics)) →
    run.LeavesNothing output → IsEngineFailure outcome
  unchanged : ∀ error, run.Returns timeout (.error error) → outcome = some (.error error)
  crashed : run.ending = .crashed → outcome = none

variable {options : RunOptions} {output : String} {run : EngineRun}

theorem Verdict.map {α β : Type} {timeout : Nat} {outcome : Option (Except RenderError α)}
    (h : Verdict timeout output run outcome) (f : α → β) :
    Verdict timeout output run (outcome.map (·.map f)) := by
  have hfailure : IsEngineFailure outcome → IsEngineFailure (outcome.map (·.map f)) := by
    rintro ⟨error, rfl, hkind⟩
    exact ⟨error, rfl, hkind⟩
  refine ⟨?_, fun hlate => hfailure (h.late hlate), fun hok hnothing =>
    hfailure (h.unwritten hok hnothing), fun error herror => ?_, fun hcrashed => ?_⟩
  · rw [← h.ok_iff]
    rcases outcome with _ | _ | _ <;> simp [Except.map]
  · rw [h.unchanged error herror]
    rfl
  · rw [h.crashed hcrashed]
    rfl

theorem timeoutError_kind (options : RunOptions) :
    (timeoutError options).kind = "render_engine" := rfl

theorem inTime_of_returns {result : Except RenderError String}
    (h : run.Returns options.timeout result) : run.ending.inTime options = some result := by
  obtain ⟨millis, hmillis, hending⟩ := h
  simp [hending, EngineEnd.inTime, Nat.not_lt.mpr hmillis]

theorem inTime_of_isLate (h : run.IsLate options.timeout) :
    run.ending.inTime options = some (.error (timeoutError options)) := by
  rcases h with hending | ⟨millis, result, hending, hmillis⟩
  · simp [hending, EngineEnd.inTime]
  · simp [hending, EngineEnd.inTime, hmillis]

theorem crashed_or_late_or_returns (timeout : Nat) (run : EngineRun) :
    run.ending = .crashed ∨ run.IsLate timeout ∨ ∃ result, run.Returns timeout result := by
  cases hending : run.ending with
  | crashed => exact Or.inl rfl
  | endless => exact Or.inr (Or.inl (Or.inl hending))
  | finished millis result =>
      rcases Nat.lt_or_ge timeout millis with hlate | hmillis
      · exact Or.inr (Or.inl (Or.inr ⟨millis, result, hending, hlate⟩))
      · exact Or.inr (Or.inr ⟨result, millis, hmillis, hending⟩)

theorem verifyOutput_of_leavesFile (options : RunOptions) (h : run.LeavesFile output) :
    ∃ size, (verifyOutput options run.files output).2 = .ok size := by
  obtain ⟨content, hstat, hpos⟩ := h
  have hne : content ≠ [] := List.ne_nil_of_length_pos hpos
  exact ⟨content.length, by simp [verifyOutput, hstat, hne, FileEntry.size]⟩

theorem verifyOutput_of_leavesNothing (h : run.LeavesNothing output) :
    IsEngineFailure (some (verifyOutput options run.files output).2) := by
  rcases h with ⟨error, hstat⟩ | hstat <;>
    simp [IsEngineFailure, verifyOutput, hstat, FileEntry.size, RenderError.kind]

theorem leavesFile_or_leavesNothing (h : run.files.stat output ≠ .ok .directory) :
    run.LeavesFile output ∨ run.LeavesNothing output := by
  match hstat : run.files.stat output with
  | .error error => exact Or.inr (Or.inl ⟨error, hstat⟩)
  | .ok .directory => exact absurd hstat h
  | .ok (.file []) => exact Or.inr (Or.inr hstat)
  | .ok (.file (byte :: rest)) => exact Or.inl ⟨byte :: rest, hstat, by simp⟩

theorem IsEngineFailure.not_ok {α : Type} {outcome : Option (Except RenderError α)}
    (h : IsEngineFailure outcome) (result : α) : outcome ≠ some (.ok result) := by
  obtain ⟨error, rfl, _⟩ := h
  simp

theorem finishRender_crashed (h : run.ending = .crashed) :
    (finishRender options output run).2 = none := by
  simp [finishRender, h, EngineEnd.inTime]

theorem finishRender_late (h : run.IsLate options.timeout) :
    IsEngineFailure (finishRender options output run).2 :=
  ⟨timeoutError options, by simp [finishRender, inTime_of_isLate h], timeoutError_kind options⟩

theorem finishRender_error {error : RenderError} (h : run.Returns options.timeout (.error error)) :
    (finishRender options output run).2 = some (.error error) := by
  simp [finishRender, inTime_of_returns h]

theorem finishRender_ok {diagnostics : String}
    (h : run.Returns options.timeout (.ok diagnostics)) :
    (finishRender options output run).2 = some (verifyOutput options run.files output).2 := by
  simp [finishRender, inTime_of_returns h]

theorem verdict_finishRender (options : RunOptions)
    (h : run.files.stat output ≠ .ok .directory) :
    Verdict options.timeout output run (finishRender options output run).2 where
  ok_iff := by
    constructor
    · rintro ⟨size, hsize⟩
      rcases crashed_or_late_or_returns options.timeout run with hcrashed | hlate |
        ⟨_ | diagnostics, hreturns⟩
      · simp [finishRender_crashed hcrashed] at hsize
      · exact absurd hsize ((finishRender_late hlate).not_ok size)
      · simp [finishRender_error hreturns] at hsize
      · rcases leavesFile_or_leavesNothing h with hfile | hnothing
        · exact ⟨⟨diagnostics, hreturns⟩, hfile⟩
        · rw [finishRender_ok hreturns] at hsize
          exact absurd hsize ((verifyOutput_of_leavesNothing hnothing).not_ok size)
    · rintro ⟨⟨diagnostics, hreturns⟩, hfile⟩
      obtain ⟨size, hsize⟩ := verifyOutput_of_leavesFile options hfile
      exact ⟨size, by rw [finishRender_ok hreturns, hsize]⟩
  late := finishRender_late
  unwritten := by
    rintro ⟨diagnostics, hreturns⟩ hnothing
    rw [finishRender_ok hreturns]
    exact verifyOutput_of_leavesNothing hnothing
  unchanged _ := finishRender_error
  crashed := finishRender_crashed

end Compositor
