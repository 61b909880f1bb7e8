import Compositor.Proofs.Decimal.Value
import Compositor.Proofs.Plan.Signal

/-!
# Playback

Which second of a stream is presented when.  A stream starts at zero; a chain
keeps a part of it, lets what is left start at zero again, or delays it.  All
other filters present a second where it was before, and so do layers and mixes.
-/

namespace Compositor

open Decimal

/-- A part of a stream, presented by `shift` seconds later than it stands in the stream. -/
structure Playback where
  head : ℚ
  stop? : Option ℚ
  shift : ℚ
deriving DecidableEq

namespace Playback

def whole : Playback := ⟨0, none, 0⟩

/-- Keeps what is presented from zero until `stop`. -/
def trim (playback : Playback) (stop : ℚ) : Playback :=
  let last := stop - playback.shift
  { playback with
    head := max playback.head (-playback.shift)
    stop? := some (playback.stop?.elim last (min last)) }

def restart (playback : Playback) : Playback := { playback with shift := -playback.head }

def delay (playback : Playback) (seconds : ℚ) : Playback :=
  { playback with shift := playback.shift + seconds }

def secondAt? (playback : Playback) (second : ℚ) : Option ℚ :=
  let source := second - playback.shift
  if playback.head ≤ source ∧ ∀ stop ∈ playback.stop?, source < stop then some source else none

theorem secondAt?_whole {second : ℚ} (h : 0 ≤ second) : whole.secondAt? second = some second := by
  simp [secondAt?, whole, h]

theorem secondAt?_placed (stop seconds second : ℚ) :
    ((whole.trim stop).restart.delay seconds).secondAt? second =
      if seconds ≤ second ∧ second < seconds + stop then some (second - seconds) else none := by
  simp [secondAt?, whole, trim, restart, delay, sub_lt_iff_lt_add']

end Playback

def Filter.play (playback : Playback) : Filter Float → Playback
  | .audioTrim stop => playback.trim (value stop)
  | .audioRestart => playback.restart
  | .audioDelay millis => playback.delay (millis / 1000)
  | .color _ _ _ _ | .scaleCover _ | .centerCrop _ | .squarePixels | .format _ | .fade _ _ _
  | .overlay _ _ | .split _ | .audioSplit _ | .audioFade _ _ _ | .gain _ | .audioMix _ => playback

def Filter.Prompt (filter : Filter Float) : Prop := ∀ playback, filter.play playback = playback

theorem foldl_play_of_prompt {chain : List (Filter Float)} (h : ∀ filter ∈ chain, filter.Prompt)
    (playback : Playback) : chain.foldl Filter.play playback = playback := by
  induction chain with
  | nil => rfl
  | cons filter chain ih =>
      rw [List.forall_mem_cons] at h
      rw [List.foldl_cons, h.1, ih h.2]

/-- A stream of an input that a signal is made of, and how it is played. -/
structure Ingredient where
  source : InputStream
  playback : Playback
deriving DecidableEq

def Ingredient.through (chain : List (Filter Float)) (ingredient : Ingredient) : Ingredient :=
  { ingredient with playback := chain.foldl Filter.play ingredient.playback }

mutual

def Signal.ingredients : Signal → List Ingredient
  | .source slot stream => [⟨⟨slot, stream⟩, .whole⟩]
  | .filtered chain inputs => (Signal.allIngredients inputs).map (Ingredient.through chain)

def Signal.allIngredients : List Signal → List Ingredient
  | [] => []
  | signal :: signals => signal.ingredients ++ Signal.allIngredients signals

end

theorem Signal.allIngredients_eq (signals : List Signal) :
    Signal.allIngredients signals = signals.flatMap Signal.ingredients := by
  induction signals with
  | nil => rfl
  | cons signal signals ih => rw [Signal.allIngredients, ih, List.flatMap_cons]

theorem Signal.ingredients_filtered_of_prompt {chain : List (Filter Float)}
    (h : ∀ filter ∈ chain, filter.Prompt) (inputs : List Signal) :
    (Signal.filtered chain inputs).ingredients = inputs.flatMap Signal.ingredients := by
  have hthrough : Ingredient.through chain = id := by
    funext ingredient
    rw [Ingredient.through, foldl_play_of_prompt h]
    rfl
  rw [Signal.ingredients, allIngredients_eq, hthrough, List.map_id]

structure Strand where
  assetId : String
  stream : Stream
  playback : Playback
deriving DecidableEq

namespace Plan

def strand? (plan : Plan) (ingredient : Ingredient) : Option Strand := do
  let binding ← plan.inputs[ingredient.source.slot]?
  let id ← binding.assetId
  return ⟨id, ingredient.source.stream, ingredient.playback⟩

def strands (plan : Plan) (output : Option Label) : List Strand :=
  match output.bind fun label => plan.graph.signal? (.link label) with
  | none => []
  | some signal => signal.ingredients.filterMap plan.strand?

end Plan

end Compositor
