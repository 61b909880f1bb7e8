import Compositor.Progress
import Compositor.Proofs.Text.Trimming

/-!
# Lines of a progress report

A line gives a value to a name, or it gives none.  What it tells about the
frames, the time and the speed of the engine depends on nothing but this line.
-/

namespace Compositor

variable {line value : List Char} {name : String}

/-- The text on either side of the first equality sign of a line, but for blanks. -/
def Gives (line : List Char) (name : String) (value : List Char) : Prop :=
  ∃ text before after, Text.Trims line text ∧ text = before ++ '=' :: after ∧ '=' ∉ before ∧
    Text.Trims before name.toList ∧ Text.Trims after value

theorem gives_iff : Gives line name value ↔ keyValue? line = some (name, value) := by
  have hentry : keyValue? line = (Text.splitFirst? (· == '=') (Text.trim line)).map
      fun pair => (String.ofList (Text.trim pair.1), Text.trim pair.2) := by
    unfold keyValue?
    cases Text.splitFirst? (· == '=') (Text.trim line) <;> rfl
  rw [hentry, Option.map_eq_some_iff]
  constructor
  · rintro ⟨text, before, after, htext, heq, hbefore, hname, hvalue⟩
    refine ⟨(before, after), ?_, ?_⟩
    · rw [Text.splitFirst?_eq_some_iff, Text.trims_iff.mp htext]
      exact ⟨heq, hbefore⟩
    · simp only [Text.trims_iff.mp hname, Text.trims_iff.mp hvalue, String.ofList_toList]
  · rintro ⟨⟨before, after⟩, hsplit, hpair⟩
    obtain ⟨heq, hbefore⟩ := Text.splitFirst?_eq_some_iff.mp hsplit
    cases hpair
    refine ⟨_, before, after, Text.trims_trim line, heq, hbefore, ?_, Text.trims_trim after⟩
    rw [String.toList_ofList]
    exact Text.trims_trim before

theorem keyValue?_eq_none_iff : keyValue? line = none ↔ '=' ∉ line := by
  have hequals : Text.isBlank '=' = false := by decide
  have hsplit : keyValue? line = none ↔
      Text.splitFirst? (· == '=') (Text.trim line) = none := by
    unfold keyValue?
    cases Text.splitFirst? (· == '=') (Text.trim line) <;> simp
  rw [hsplit, Text.splitFirst?_eq_none_iff, ← (Text.trims_trim line).mem_iff hequals]
  constructor
  · intro hall hmem
    simpa using hall _ hmem
  · intro hnot item hitem
    simpa using fun heq : item = '=' => hnot (heq ▸ hitem)

def IsClock (value : List Char) (seconds : Float) : Prop :=
  ∃ hours minutes rest h m s, value = hours ++ ':' :: (minutes ++ ':' :: rest) ∧
    ':' ∉ hours ∧ ':' ∉ minutes ∧ Decimal.float? hours = some h ∧
    Decimal.float? minutes = some m ∧ Decimal.float? rest = some s ∧
    seconds = h * 3600.0 + m * 60.0 + s

theorem isClock_iff {seconds : Float} :
    IsClock value seconds ↔ clockSeconds? value = some seconds := by
  simp only [clockSeconds?, Option.bind_eq_bind, Option.bind_eq_some_iff]
  constructor
  · rintro ⟨hours, minutes, rest, h, m, s, heq, hhours, hminutes, hh, hm, hs, rfl⟩
    exact ⟨(hours, minutes ++ ':' :: rest), Text.splitFirst?_eq_some_iff.mpr ⟨heq, hhours⟩,
      (minutes, rest), Text.splitFirst?_eq_some_iff.mpr ⟨rfl, hminutes⟩, h, hh, m, hm, s, hs, rfl⟩
  · rintro ⟨⟨hours, after⟩, hfirst, ⟨minutes, rest⟩, hsecond, h, hh, m, hm, s, hs, hsum⟩
    obtain ⟨rfl, hhours⟩ := Text.splitFirst?_eq_some_iff.mp hfirst
    obtain ⟨rfl, hminutes⟩ := Text.splitFirst?_eq_some_iff.mp hsecond
    exact ⟨hours, minutes, rest, h, m, s, rfl, hhours, hminutes, hh, hm, hs,
      (Option.some.inj hsum).symm⟩

def IsMicros (value : List Char) (seconds : Float) : Prop :=
  ∃ number, Decimal.integer? value = some number ∧
    seconds = Decimal.nearest false number.toNat 0 / 1000000.0

theorem isMicros_iff {seconds : Float} :
    IsMicros value seconds ↔ microSeconds? value = some seconds := by
  simp only [IsMicros, microSeconds?, Option.bind_eq_bind, Option.bind_eq_some_iff,
    Option.some.injEq, @eq_comm Float seconds]

/-- A number in front of any count of `x`, with blanks between them. -/
def IsSpeed (value : List Char) (speed : Option Float) : Prop :=
  ∃ kept count text, value = kept ++ List.replicate count 'x' ∧ kept.getLast? ≠ some 'x' ∧
    Text.Trims kept text ∧ speed = Decimal.float? text

theorem isSpeed_iff {speed : Option Float} : IsSpeed value speed ↔ speed? value = speed := by
  constructor
  · rintro ⟨kept, count, text, rfl, hlast, htext, rfl⟩
    have hend : Text.trimEnd (· == 'x') (kept ++ List.replicate count 'x') = kept := by
      apply Text.trimEnd_append
      · intro char hchar
        simpa using fun heq : char = 'x' => hlast (heq ▸ hchar)
      · intro char hchar
        simpa using List.eq_of_mem_replicate hchar
    rw [speed?, hend, Text.trims_iff.mp htext]
  · rintro rfl
    obtain ⟨after, hafter, hx, hlast⟩ := Text.exists_trimEnd (· == 'x') value
    have hreplicate : after = List.replicate after.length 'x' :=
      List.eq_replicate_of_mem fun char hchar => by simpa using hx char hchar
    refine ⟨Text.trimEnd (· == 'x') value, after.length, _, ?_, ?_, Text.trims_trim _, rfl⟩
    · rwa [← hreplicate]
    · intro hchar
      simpa using hlast 'x' hchar

def MeansFrame (name : String) (value : List Char) (frame : Nat) : Prop :=
  name = "frame" ∧ Decimal.natural? value = some frame

def MeansTime (name : String) (value : List Char) (seconds : Float) : Prop :=
  (name = "out_time_us" ∨ name = "out_time_ms") ∧ IsMicros value seconds ∨
    name = "out_time" ∧ IsClock value seconds

def MeansSpeed (name : String) (value : List Char) (speed : Option Float) : Prop :=
  name = "speed" ∧ IsSpeed value speed

def frameOf? (name : String) (value : List Char) : Option Nat :=
  if name = "frame" then Decimal.natural? value else none

def timeOf? (name : String) (value : List Char) : Option Float :=
  if name = "out_time_us" ∨ name = "out_time_ms" then microSeconds? value
  else if name = "out_time" then clockSeconds? value
  else none

def speedOf? (name : String) (value : List Char) : Option (Option Float) :=
  if name = "speed" then some (speed? value) else none

theorem meansFrame_iff (name : String) (value : List Char) (frame : Nat) :
    MeansFrame name value frame ↔ frameOf? name value = some frame := by
  simp [MeansFrame, frameOf?]

theorem meansTime_iff (name : String) (value : List Char) (seconds : Float) :
    MeansTime name value seconds ↔ timeOf? name value = some seconds := by
  rw [MeansTime, isMicros_iff, isClock_iff, timeOf?]
  by_cases hmicros : name = "out_time_us" ∨ name = "out_time_ms"
  · have hclock : name ≠ "out_time" := by
      rcases hmicros with rfl | rfl <;> decide
    simp [hmicros, hclock]
  · by_cases hclock : name = "out_time"
    · simp [hclock]
    · simp [hmicros, hclock]

theorem meansSpeed_iff (name : String) (value : List Char) (speed : Option Float) :
    MeansSpeed name value speed ↔ speedOf? name value = some speed := by
  simp [MeansSpeed, isSpeed_iff, speedOf?]

variable {α : Type} {means : String → List Char → α → Prop} {find? : String → List Char → Option α}

def Tells (means : String → List Char → α → Prop) (line : List Char) (content : α) : Prop :=
  ∃ name value, Gives line name value ∧ means name value content

def told? (find? : String → List Char → Option α) (line : List Char) : Option α :=
  keyValue? line |>.bind fun entry => find? entry.1 entry.2

theorem tells_iff (h : ∀ name value content, means name value content ↔
    find? name value = some content) (line : List Char) (content : α) :
    Tells means line content ↔ told? find? line = some content := by
  simp [Tells, told?, Option.bind_eq_some_iff, gives_iff, h]

end Compositor
