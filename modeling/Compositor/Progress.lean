import Compositor.Decimal.Reading
import Compositor.Text.Blank

/-!
# Progress of the engine

The engine reports its progress in lines `name=value`.  A line named
`progress` ends a block and gives a sample of the values seen last.
-/

namespace Compositor

structure Progress where
  frame : Nat
  reached : Float
  fraction : Float
  speed : Option Float
  isLast : Bool

structure ProgressState where
  total : Float
  frame : Nat
  reached : Float
  speed : Option Float

def ProgressState.new (total : Float) : ProgressState := ⟨total, 0, 0.0, none⟩

def clampToUnit (value : Float) : Float :=
  if value < 0.0 then 0.0 else if 1.0 < value then 1.0 else value

def ProgressState.fraction (state : ProgressState) (isLast : Bool) : Float :=
  if isLast then 1.0
  else if state.total ≤ 0.0 then 0.0
  else clampToUnit (state.reached / state.total)

def ProgressState.sample (state : ProgressState) (isLast : Bool) : Progress :=
  ⟨state.frame, state.reached, state.fraction isLast, state.speed, isLast⟩

def clockSeconds? (chars : List Char) : Option Float := do
  let (hours, rest) ← Text.splitFirst? (· == ':') chars
  let (minutes, seconds) ← Text.splitFirst? (· == ':') rest
  let hours ← Decimal.float? hours
  let minutes ← Decimal.float? minutes
  let seconds ← Decimal.float? seconds
  some (hours * 3600.0 + minutes * 60.0 + seconds)

def microSeconds? (chars : List Char) : Option Float := do
  let micros ← Decimal.integer? chars
  some (Decimal.nearest false micros.toNat 0 / 1000000.0)

def speed? (chars : List Char) : Option Float :=
  Decimal.float? (Text.trim (Text.trimEnd (· == 'x') chars))

def keyValue? (line : List Char) : Option (String × List Char) := do
  let (name, value) ← Text.splitFirst? (· == '=') (Text.trim line)
  some (String.ofList (Text.trim name), Text.trim value)

def ProgressState.update (state : ProgressState) (name : String) (value : List Char) :
    ProgressState :=
  match name with
  | "frame" => { state with frame := (Decimal.natural? value).getD state.frame }
  | "out_time_ms" | "out_time_us" =>
    { state with reached := (microSeconds? value).getD state.reached }
  | "out_time" => { state with reached := (clockSeconds? value).getD state.reached }
  | "speed" => { state with speed := speed? value }
  | _ => state

def ProgressState.feed (state : ProgressState) (line : List Char) :
    ProgressState × Option Progress :=
  match keyValue? line with
  | none => (state, none)
  | some (name, value) =>
    if name = "progress" then (state, some (state.sample (value == "end".toList)))
    else (state.update name value, none)

def ProgressState.feedAll (state : ProgressState) : List (List Char) → List (Option Progress)
  | [] => []
  | line :: lines =>
    let (state, sample) := state.feed line
    sample :: state.feedAll lines

def progressSamples (total : Float) (lines : List (List Char)) : List Progress :=
  ((ProgressState.new total).feedAll lines).filterMap id

end Compositor
