import Compositor.Proofs.Progress.Lines
import Mathlib.Data.List.Induction

/-!
# Samples of a progress report

A sample is a snapshot: of each value it has the one told last, whichever line
told it and whatever stands in between.  So lines that tell nothing can be put
into a report, or left out of it, and the samples stay the same.
-/

namespace Compositor

variable {line : List Char} {lines before : List (List Char)} {total : Float}

variable {α : Type} {tells : List Char → α → Prop} {find? : List Char → Option α}
  {default content : α}

/-- The content of the last line that has one, or the default if no line has any. -/
inductive LastTold (tells : List Char → α → Prop) (default : α) (lines : List (List Char)) :
    α → Prop
  | never : (∀ line ∈ lines, ∀ content, ¬ tells line content) →
      LastTold tells default lines default
  | last {before : List (List Char)} {line : List Char} {after : List (List Char)} {content : α} :
      lines = before ++ line :: after → tells line content →
      (∀ later ∈ after, ∀ other, ¬ tells later other) → LastTold tells default lines content

def lastFound (find? : List Char → Option α) (default : α) (lines : List (List Char)) : α :=
  lines.foldl (fun content line => (find? line).getD content) default

theorem lastFound_of_none (h : ∀ line ∈ lines, find? line = none) :
    lastFound find? default lines = default := by
  induction lines with
  | nil => rfl
  | cons line lines ih =>
      obtain ⟨hline, hlines⟩ := List.forall_mem_cons.mp h
      rw [lastFound, List.foldl_cons, hline, Option.getD_none]
      exact ih hlines

theorem lastFound_concat (lines : List (List Char)) (line : List Char) :
    lastFound find? default (lines ++ [line]) =
      (find? line).getD (lastFound find? default lines) := by
  rw [lastFound, List.foldl_append]
  rfl

theorem LastTold.concat_of_not (h : LastTold tells default lines content)
    (hline : ∀ other, ¬ tells line other) : LastTold tells default (lines ++ [line]) content := by
  cases h with
  | never h => exact .never (by simpa [or_imp, forall_and] using ⟨h, hline⟩)
  | @last before earlier after content hlines hlast hafter =>
      have hconcat : lines ++ [line] = before ++ earlier :: (after ++ [line]) := by simp [hlines]
      exact .last hconcat hlast (by simpa [or_imp, forall_and] using ⟨hafter, hline⟩)

variable (htells : ∀ line content, tells line content ↔ find? line = some content)

include htells

theorem find?_eq_none_iff : find? line = none ↔ ∀ content, ¬ tells line content := by
  simp [htells, Option.eq_none_iff_forall_ne_some]

theorem lastTold_lastFound (default : α) (lines : List (List Char)) :
    LastTold tells default lines (lastFound find? default lines) := by
  induction lines using List.reverseRecOn with
  | nil => exact .never (by simp)
  | append_singleton lines line ih =>
      rw [lastFound_concat]
      cases hline : find? line with
      | some content => exact .last rfl ((htells line content).mpr hline) (by simp)
      | none => exact ih.concat_of_not ((find?_eq_none_iff htells).mp hline)

theorem LastTold.eq (h : LastTold tells default lines content) :
    lastFound find? default lines = content := by
  cases h with
  | never h =>
      exact lastFound_of_none fun line hline => (find?_eq_none_iff htells).mpr (h line hline)
  | last hlines hline hafter =>
      rw [hlines, lastFound, List.foldl_append, List.foldl_cons, (htells _ _).mp hline,
        Option.getD_some]
      exact lastFound_of_none fun later hlater => (find?_eq_none_iff htells).mpr (hafter later hlater)

theorem lastTold_iff :
    LastTold tells default lines content ↔ lastFound find? default lines = content :=
  ⟨LastTold.eq htells, fun h => h ▸ lastTold_lastFound htells default lines⟩

omit htells

/-! ## States -/

namespace ProgressState

variable {state : ProgressState}

theorem fst_feed (state : ProgressState) (line : List Char) :
    (state.feed line).1 =
      (keyValue? line).elim state fun entry => state.update entry.1 entry.2 := by
  unfold feed
  split
  · rename_i hentry
    rw [hentry]
    rfl
  · rename_i name value hentry
    rw [hentry, Option.elim_some]
    split
    · rename_i hname
      rw [hname]
      rfl
    · rfl

theorem snd_feed_of_gives {value : List Char} (h : Gives line "progress" value) :
    (state.feed line).2 = some (state.sample (value == "end".toList)) := by
  rw [feed, gives_iff.mp h]
  rfl

theorem snd_feed_of_not_gives (h : ∀ value, ¬ Gives line "progress" value) :
    (state.feed line).2 = none := by
  cases hentry : keyValue? line with
  | none => rw [feed, hentry]
  | some entry =>
      obtain ⟨name, value⟩ := entry
      have hname : name ≠ "progress" := by
        rintro rfl
        exact h value (gives_iff.mpr hentry)
      simp [feed, hentry, hname]

theorem total_update (state : ProgressState) (name : String) (value : List Char) :
    (state.update name value).total = state.total := by
  unfold update
  split <;> rfl

theorem frame_update (state : ProgressState) (name : String) (value : List Char) :
    (state.update name value).frame = (frameOf? name value).getD state.frame := by
  unfold update frameOf?
  split <;> simp_all

theorem reached_update (state : ProgressState) (name : String) (value : List Char) :
    (state.update name value).reached = (timeOf? name value).getD state.reached := by
  unfold update timeOf?
  split <;> simp_all

theorem speed_update (state : ProgressState) (name : String) (value : List Char) :
    (state.update name value).speed = (speedOf? name value).getD state.speed := by
  unfold update speedOf?
  split <;> simp_all

def after (state : ProgressState) (lines : List (List Char)) : ProgressState :=
  lines.foldl (fun state line => (state.feed line).1) state

theorem total_after (state : ProgressState) (lines : List (List Char)) :
    (state.after lines).total = state.total := by
  induction lines generalizing state with
  | nil => rfl
  | cons line lines ih =>
      rw [after, List.foldl_cons]
      refine (ih _).trans ?_
      rw [fst_feed]
      cases keyValue? line with
      | none => rfl
      | some entry => exact total_update state entry.1 entry.2

theorem lastTold_after {field : ProgressState → α} {means : String → List Char → α → Prop}
    {find? : String → List Char → Option α}
    (hmeans : ∀ name value content, means name value content ↔ find? name value = some content)
    (hfield : ∀ state name value,
      field (ProgressState.update state name value) = (find? name value).getD (field state))
    (state : ProgressState) (lines : List (List Char)) :
    LastTold (Tells means) (field state) lines (field (state.after lines)) := by
  rw [lastTold_iff (tells_iff hmeans)]
  refine (List.foldl_hom field fun state line => ?_)
  rw [fst_feed, told?]
  cases keyValue? line with
  | none => rfl
  | some entry => exact (hfield state entry.1 entry.2).symm

end ProgressState

/-! ## Samples -/

/-- The sample of a block whose end gives `value`, when the lines before it were `before`. -/
structure Snapshot (total : Float) (before : List (List Char)) (value : List Char)
    (sample : Progress) : Prop where
  isLast : sample.isLast = true ↔ value = "end".toList
  frame : LastTold (Tells MeansFrame) 0 before sample.frame
  reached : LastTold (Tells MeansTime) 0.0 before sample.reached
  speed : LastTold (Tells MeansSpeed) none before sample.speed
  whole : sample.isLast = true → sample.fraction = 1.0
  unmeasured : sample.isLast = false → total ≤ 0.0 → sample.fraction = 0.0
  measured : sample.isLast = false → ¬ total ≤ 0.0 →
    sample.fraction = clampToUnit (sample.reached / total)

theorem fraction_sample {state : ProgressState} {isLast : Bool}
    (h : (state.sample isLast).isLast = false) :
    (state.sample isLast).fraction =
      if state.total ≤ 0.0 then 0.0 else clampToUnit (state.reached / state.total) := by
  cases isLast with
  | false => rfl
  | true => cases h

theorem snapshot_sample (total : Float) (before : List (List Char)) (value : List Char) :
    Snapshot total before value
      (((ProgressState.new total).after before).sample (value == "end".toList)) := by
  have htotal : ((ProgressState.new total).after before).total = total :=
    ProgressState.total_after _ before
  constructor
  · exact beq_iff_eq
  · exact ProgressState.lastTold_after meansFrame_iff ProgressState.frame_update
      (ProgressState.new total) before
  · exact ProgressState.lastTold_after meansTime_iff ProgressState.reached_update
      (ProgressState.new total) before
  · exact ProgressState.lastTold_after meansSpeed_iff ProgressState.speed_update
      (ProgressState.new total) before
  · intro hlast
    exact if_pos hlast
  · intro hlast hle
    exact (fraction_sample hlast).trans (if_pos (by rwa [htotal]))
  · intro hlast hle
    refine (fraction_sample hlast).trans ((if_neg (by rwa [htotal])).trans ?_)
    rw [htotal]
    rfl

theorem feedAll_cons (state : ProgressState) (line : List Char) (lines : List (List Char)) :
    state.feedAll (line :: lines) =
      (state.feed line).2 :: (state.feed line).1.feedAll lines := rfl

theorem length_feedAll (state : ProgressState) (lines : List (List Char)) :
    (state.feedAll lines).length = lines.length := by
  induction lines generalizing state with
  | nil => rfl
  | cons line lines ih => rw [feedAll_cons, List.length_cons, ih, List.length_cons]

theorem feedAll_append (state : ProgressState) (before after : List (List Char)) :
    state.feedAll (before ++ after) = state.feedAll before ++ (state.after before).feedAll after := by
  induction before generalizing state with
  | nil => rfl
  | cons line before ih =>
      rw [List.cons_append, feedAll_cons, feedAll_cons, ih]
      rfl

theorem getElem?_feedAll (state : ProgressState) (before : List (List Char)) (line : List Char)
    (after : List (List Char)) :
    (state.feedAll (before ++ line :: after))[before.length]? =
      some ((state.after before).feed line).2 := by
  rw [feedAll_append, List.getElem?_append_right (by rw [length_feedAll]), length_feedAll,
    Nat.sub_self]
  rfl

def knownNames : List String :=
  ["frame", "out_time_us", "out_time_ms", "out_time", "speed", "progress"]

/-- A line without a value, of an unknown name, or with frames or a time that cannot be read. -/
inductive IsIdle (line : List Char) : Prop
  | blank : '=' ∉ line → IsIdle line
  | unknown {name : String} {value : List Char} : Gives line name value → name ∉ knownNames →
      IsIdle line
  | frame {value : List Char} : Gives line "frame" value → Decimal.natural? value = none →
      IsIdle line
  | micros {name : String} {value : List Char} : name = "out_time_us" ∨ name = "out_time_ms" →
      Gives line name value → (∀ seconds, ¬ IsMicros value seconds) → IsIdle line
  | clock {value : List Char} : Gives line "out_time" value →
      (∀ seconds, ¬ IsClock value seconds) → IsIdle line

/-- Two reports that differ in idle lines, put in or left out anywhere. -/
inductive SameButIdle : List (List Char) → List (List Char) → Prop
  | nil : SameButIdle [] []
  | both {first second : List (List Char)} (line : List Char) : SameButIdle first second →
      SameButIdle (line :: first) (line :: second)
  | inserted {line : List Char} {first second : List (List Char)} : IsIdle line →
      SameButIdle first second → SameButIdle first (line :: second)
  | deleted {line : List Char} {first second : List (List Char)} : IsIdle line →
      SameButIdle first second → SameButIdle (line :: first) second

namespace ProgressState

variable {state : ProgressState} {name : String} {value : List Char}

theorem update_eq_self (hframe : frameOf? name value = none) (htime : timeOf? name value = none)
    (hspeed : speedOf? name value = none) : state.update name value = state := by
  have htotal := total_update state name value
  have hframe' := frame_update state name value
  have hreached := reached_update state name value
  have hspeed' := speed_update state name value
  rw [hframe, Option.getD_none] at hframe'
  rw [htime, Option.getD_none] at hreached
  rw [hspeed, Option.getD_none] at hspeed'
  generalize state.update name value = updated at *
  cases updated
  cases state
  simp_all

theorem feed_of_silent (hgives : Gives line name value) (hname : name ≠ "progress")
    (hframe : frameOf? name value = none) (htime : timeOf? name value = none)
    (hspeed : speedOf? name value = none) : state.feed line = (state, none) := by
  simp only [feed, gives_iff.mp hgives, if_neg hname, update_eq_self hframe htime hspeed]

theorem feed_of_isIdle (h : IsIdle line) : state.feed line = (state, none) := by
  cases h with
  | blank h => rw [feed, keyValue?_eq_none_iff.mpr h]
  | unknown hgives hname =>
      simp only [knownNames, List.mem_cons, List.not_mem_nil, or_false, not_or] at hname
      apply feed_of_silent hgives
      · exact hname.2.2.2.2.2
      · simp [frameOf?, hname]
      · simp [timeOf?, hname]
      · simp [speedOf?, hname]
  | frame hgives hvalue =>
      apply feed_of_silent hgives (by decide)
      · exact hvalue
      · rfl
      · rfl
  | @micros name value hname hgives hvalue =>
      have hnone : microSeconds? value = none :=
        Option.eq_none_iff_forall_ne_some.mpr fun seconds => mt isMicros_iff.mpr (hvalue seconds)
      rcases hname with rfl | rfl <;> exact feed_of_silent hgives (by decide) rfl hnone rfl
  | @clock value hgives hvalue =>
      have hnone : clockSeconds? value = none :=
        Option.eq_none_iff_forall_ne_some.mpr fun seconds => mt isClock_iff.mpr (hvalue seconds)
      exact feed_of_silent hgives (by decide) rfl hnone rfl

end ProgressState

theorem SameButIdle.filterMap_feedAll {first second : List (List Char)}
    (h : SameButIdle first second) (state : ProgressState) :
    (state.feedAll first).filterMap id = (state.feedAll second).filterMap id := by
  induction h generalizing state with
  | nil => rfl
  | both line _ ih => simp only [feedAll_cons, List.filterMap_cons, ih]
  | inserted hline _ ih =>
      rw [feedAll_cons, ProgressState.feed_of_isIdle hline]
      exact ih state
  | deleted hline _ ih =>
      rw [feedAll_cons, ProgressState.feed_of_isIdle hline]
      exact ih state

structure Reported (total : Float) (lines : List (List Char)) (answers : List (Option Progress)) :
    Prop where
  length : answers.length = lines.length
  sampled : ∀ before line after value, lines = before ++ line :: after →
    Gives line "progress" value →
    ∃ sample, answers[before.length]? = some (some sample) ∧ Snapshot total before value sample
  silent : ∀ before line after, lines = before ++ line :: after →
    (∀ value, ¬ Gives line "progress" value) → answers[before.length]? = some none
  steady : ∀ others, SameButIdle lines others →
    progressSamples total others = answers.filterMap id

/-- Samples tell what was told last, and idle lines do not matter. -/
theorem reported_feedAll (total : Float) (lines : List (List Char)) :
    Reported total lines ((ProgressState.new total).feedAll lines) where
  length := length_feedAll _ lines
  sampled := by
    rintro before line after value rfl hgives
    refine ⟨_, ?_, snapshot_sample total before value⟩
    rw [getElem?_feedAll, ProgressState.snd_feed_of_gives hgives]
  silent := by
    rintro before line after rfl hnot
    rw [getElem?_feedAll, ProgressState.snd_feed_of_not_gives hnot]
  steady := by
    intro others hothers
    exact (hothers.filterMap_feedAll (ProgressState.new total)).symm

end Compositor
