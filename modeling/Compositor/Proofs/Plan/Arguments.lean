import Compositor.Proofs.Decimal.Characters
import Compositor.Proofs.Plan.Framing

/-!
# What arguments say

A list of arguments is read from its front: each input begins with an option
that tells its kind, and no input begins like the graph that follows them all.
So whatever paths, names and labels look like, equal arguments come from plans
that agree in all that the engine is told, and equal bytes are hashed for equal
arguments only.
-/

namespace Compositor

theorem append_cons_inj_of_not_mem {α : Type} {mark : α} {before before' after after' : List α}
    (hafter : mark ∉ after) (hafter' : mark ∉ after')
    (h : before ++ mark :: after = before' ++ mark :: after') :
    before = before' ∧ after = after' := by
  rcases List.append_eq_append_iff.mp h with ⟨gap, rfl, hgap⟩ | ⟨gap, rfl, hgap⟩
  · cases gap with
    | nil => simpa using hgap
    | cons first gap =>
        rw [List.cons_append, List.cons.injEq] at hgap
        exact absurd (by simp [hgap.2]) hafter
  · cases gap with
    | nil => simpa using hgap.symm
    | cons first gap =>
        rw [List.cons_append, List.cons.injEq] at hgap
        exact absurd (by simp [hgap.2]) hafter'

theorem equals_not_mem {chars : List Char} (h : chars.all Decimal.isPlainChar = true) :
    '=' ∉ chars := by
  intro hmem
  have hplain := List.all_eq_true.mp h '=' hmem
  exact absurd hplain (by decide)

namespace Filter

def colorHead (tint : String) (canvas : Canvas) : String :=
  "color=c=" ++ tint ++ ":s=" ++ canvas.spelled "x" ++ ":d"

theorem toList_color (tint : String) (canvas : Canvas) (duration : Float) (rate : Nat) :
    (color tint canvas duration rate).text.toList =
      ((colorHead tint canvas).toList ++
          '=' :: ((Decimal.seconds duration).toList ++ [':', 'r'])) ++
        '=' :: Decimal.wholeDigits rate := by
  have hduration : ":d=".toList = ":d".toList ++ ['='] := rfl
  have hrate : ":r=".toList = [':', 'r', '='] := rfl
  unfold text colorHead
  simp only [String.toList_append, Decimal.toList_whole, hduration, hrate, List.append_assoc,
    List.cons_append, List.nil_append]

theorem color_text_inj {tint tint' : String} {canvas canvas' : Canvas}
    {duration duration' : Float} {rate rate' : Nat}
    (h : (color tint canvas duration rate).text = (color tint' canvas' duration' rate').text) :
    Decimal.seconds duration = Decimal.seconds duration' ∧ rate = rate' := by
  have hdigits (number : Nat) : '=' ∉ Decimal.wholeDigits number :=
    equals_not_mem (Decimal.all_isPlainChar_wholeDigits number)
  have hseconds (value : Float) : '=' ∉ (Decimal.seconds value).toList ++ [':', 'r'] := by
    rw [List.mem_append, not_or]
    exact ⟨equals_not_mem (Decimal.all_isPlainChar_seconds value), by decide⟩
  have hchars := congrArg String.toList h
  rw [toList_color, toList_color] at hchars
  obtain ⟨hhead, hrate⟩ := append_cons_inj_of_not_mem (hdigits rate) (hdigits rate') hchars
  obtain ⟨-, hduration⟩ :=
    append_cons_inj_of_not_mem (hseconds duration) (hseconds duration') hhead
  exact ⟨String.toList_inj.mp (List.append_cancel_right hduration),
    Decimal.wholeDigits_inj.mp hrate⟩

end Filter

namespace Source

/-- Sources of one kind of which the engine is told the same. -/
inductive Alike : Source → Source → Prop
  | file (path : String) : Alike (.file path) (.file path)
  | still (path : String) (rate : Nat) {duration duration' : Float} :
      Decimal.seconds duration = Decimal.seconds duration' →
      Alike (.still path duration rate) (.still path duration' rate)
  | color (rate : Nat) {tint tint' : String} {canvas canvas' : Canvas}
      {duration duration' : Float} :
      (Filter.color tint canvas duration rate).text =
        (Filter.color tint' canvas' duration' rate).text →
      Decimal.seconds duration = Decimal.seconds duration' →
      Alike (.color tint canvas duration rate) (.color tint' canvas' duration' rate)

variable {first second : Source} {rest rest' : List String}

theorem Alike.arguments_eq (h : first.Alike second) : first.arguments = second.arguments := by
  cases h with
  | file path => rfl
  | still path rate hduration => simp only [arguments, hduration]
  | color rate htext hduration => simp only [arguments, htext]

theorem arguments_append_inj (h : first.arguments ++ rest = second.arguments ++ rest') :
    first.Alike second ∧ rest = rest' := by
  cases first <;> cases second <;> simp [arguments] at h
  · obtain ⟨rfl, rfl⟩ := h
    exact ⟨.file _, rfl⟩
  · obtain ⟨hrate, hduration, rfl, rfl⟩ := h
    obtain rfl := Decimal.whole_inj.mp hrate
    exact ⟨.still _ _ hduration, rfl⟩
  · obtain ⟨htext, rfl⟩ := h
    obtain ⟨hduration, rfl⟩ := Filter.color_text_inj htext
    exact ⟨.color _ htext hduration, rfl⟩

theorem arguments_append_ne (source : Source) :
    source.arguments ++ rest ≠ "-filter_complex" :: rest' := by
  cases source <;> simp [arguments]

end Source

namespace Plan

def InputsAlike : List Binding → List Binding → Prop :=
  List.Forall₂ fun binding binding' => binding.source.Alike binding'.source

def inputArguments (inputs : List Binding) : List String :=
  inputs.flatMap fun binding => binding.source.arguments

theorem InputsAlike.arguments_eq {inputs inputs' : List Binding} (h : InputsAlike inputs inputs') :
    inputArguments inputs = inputArguments inputs' := by
  induction h with
  | nil => rfl
  | cons hsource _ ih =>
      rw [inputArguments, List.flatMap_cons, hsource.arguments_eq]
      exact congrArg (_ ++ ·) ih

theorem inputArguments_append_inj {inputs inputs' : List Binding} {rest rest' : List String}
    (h : inputArguments inputs ++ "-filter_complex" :: rest =
      inputArguments inputs' ++ "-filter_complex" :: rest') :
    InputsAlike inputs inputs' ∧ rest = rest' := by
  simp only [inputArguments] at h
  -- Where one plan has no more inputs its graph begins, and no input begins like that.
  induction inputs generalizing inputs' with
  | nil =>
      cases inputs' with
      | nil => exact ⟨.nil, (List.cons.inj h).2⟩
      | cons binding' inputs' =>
          rw [List.flatMap_cons, List.append_assoc] at h
          exact absurd h.symm binding'.source.arguments_append_ne
  | cons binding inputs ih =>
      rw [List.flatMap_cons, List.append_assoc] at h
      cases inputs' with
      | nil => exact absurd h binding.source.arguments_append_ne
      | cons binding' inputs' =>
          rw [List.flatMap_cons, List.append_assoc] at h
          obtain ⟨hsource, hinputs⟩ := Source.arguments_append_inj h
          obtain ⟨hrest, heq⟩ := ih hinputs
          exact ⟨.cons hsource hrest, heq⟩

theorem bracketed_inj {first second : Label} (h : first.bracketed = second.bracketed) :
    first = second := by
  have hchars := congrArg String.toList h
  simp only [Label.bracketed, Compositor.bracketed, String.toList_append] at hchars
  have htext := List.append_cancel_left (List.append_cancel_right hchars)
  exact congrArg Label.mk (String.toList_inj.mp htext)

structure Agrees (first second : Plan) : Prop where
  inputs : InputsAlike first.inputs second.inputs
  graph : first.graph.text = second.graph.text
  video : first.outputs.video = second.outputs.video
  audio : first.outputs.audio = second.outputs.audio
  videoCodec : first.videoCodecArguments = second.videoCodecArguments
  audioCodec : first.audioCodecArguments = second.audioCodecArguments
  duration : Decimal.seconds first.encoding.duration = Decimal.seconds second.encoding.duration

def outputArguments (plan : Plan) (output : String) : List String :=
  plan.audioMapArguments ++ plan.videoCodecArguments ++ plan.audioCodecArguments ++
    ["-t", Decimal.seconds plan.encoding.duration, "-movflags", "+faststart", output]

theorem arguments_eq (plan : Plan) (output : String) :
    plan.arguments output =
      inputArguments plan.inputs ++ "-filter_complex" :: plan.graph.text :: "-map" ::
        plan.outputs.video.bracketed :: plan.outputArguments output := by
  simp [arguments, inputArguments, outputArguments]

theorem audio_eq_of_outputArguments {first second : Plan} {rest rest' : List String}
    (h : first.audioMapArguments ++ rest = second.audioMapArguments ++ rest') :
    first.outputs.audio = second.outputs.audio := by
  cases hfirst : first.outputs.audio <;> cases hsecond : second.outputs.audio <;>
    simp [audioMapArguments, hfirst, hsecond] at h
  · rfl
  · rw [bracketed_inj h.1]

theorem outputArguments_inj {first second : Plan} {output output' : String}
    (h : first.outputArguments output = second.outputArguments output') :
    output = output' ∧ first.outputs.audio = second.outputs.audio ∧
      first.videoCodecArguments = second.videoCodecArguments ∧
      first.audioCodecArguments = second.audioCodecArguments ∧
      Decimal.seconds first.encoding.duration = Decimal.seconds second.encoding.duration := by
  obtain ⟨hcodecs, hend⟩ := List.append_inj' h rfl
  rw [List.append_assoc, List.append_assoc] at hcodecs
  have haudio := audio_eq_of_outputArguments hcodecs
  have hmap : first.audioMapArguments = second.audioMapArguments := by
    rw [audioMapArguments, audioMapArguments, haudio]
  rw [hmap] at hcodecs
  obtain ⟨hvideoCodec, haudioCodec⟩ := List.append_inj (List.append_cancel_left hcodecs) rfl
  simp only [List.cons.injEq, true_and, and_true] at hend
  exact ⟨hend.2, haudio, hvideoCodec, haudioCodec, hend.1⟩

theorem arguments_eq_iff {first second : Plan} {output output' : String} :
    first.arguments output = second.arguments output' ↔
      output = output' ∧ first.Agrees second := by
  rw [arguments_eq, arguments_eq]
  constructor
  · intro h
    obtain ⟨hinputs, hrest⟩ := inputArguments_append_inj h
    simp only [List.cons.injEq, true_and] at hrest
    obtain ⟨hgraph, hvideo, houtput⟩ := hrest
    obtain ⟨houtput, haudio, hvideoCodec, haudioCodec, hduration⟩ := outputArguments_inj houtput
    exact ⟨houtput, hinputs, hgraph, bracketed_inj hvideo, haudio, hvideoCodec, haudioCodec,
      hduration⟩
  · rintro ⟨rfl, h⟩
    simp only [outputArguments, audioMapArguments, h.inputs.arguments_eq, h.graph, h.video, h.audio,
      h.videoCodec, h.audioCodec, h.duration]

/-- The bytes of which the fingerprint of a plan is the hash. -/
def hashed (plan : Plan) : List UInt8 := (plan.arguments "").flatMap Fingerprint.framed

/-- Equal arguments are for one output and for plans that agree, and equal bytes are hashed for
equal arguments only. -/
theorem arguments_unambiguous (first second : Plan) :
    (∀ output output', first.arguments output = second.arguments output' ↔
      output = output' ∧ first.Agrees second) ∧
    first.fingerprint = Fingerprint.feed Fingerprint.basis first.hashed ∧
    ((∀ argument ∈ first.arguments "" ++ second.arguments "", Fingerprint.Fits argument) →
      (first.hashed = second.hashed ↔ first.arguments "" = second.arguments "")) := by
  refine ⟨fun output output' => arguments_eq_iff, rfl, fun hfits => ?_⟩
  rw [List.forall_mem_append] at hfits
  exact Fingerprint.flatMap_framed_inj hfits.1 hfits.2

def optionLike (duration : Float) : Plan where
  inputs :=
    [⟨0, some "a", .file "-filter_complex"⟩, ⟨1, none, .still "-i" duration 30⟩,
      ⟨2, none, .color "red:d=1:r=2" ⟨1, 1⟩ duration 30⟩]
  graph := ⟨[⟨[.input 0 .video], [.format "-map"], [⟨"-an"⟩]⟩]⟩
  outputs := ⟨⟨"-an"⟩, none⟩
  encoding := ⟨1.0, ⟨1, 1⟩, .fps30, "-t", "-i", "-map", 23, "-an", "-an"⟩
  counts := ⟨3, 0, 0, 0, 0⟩

theorem arguments_unambiguous_optionLike :
    (optionLike 0.0).arguments "-i" = (optionLike (-0.0)).arguments "-i" ∧
    (optionLike 0.0).Agrees (optionLike (-0.0)) ∧
    (∀ argument ∈ (optionLike 0.0).arguments "" ++ (optionLike (-0.0)).arguments "",
      Fingerprint.Fits argument) ∧
    (optionLike 0.0).hashed = (optionLike (-0.0)).hashed := by
  have harguments (output : String) :
      (optionLike 0.0).arguments output = (optionLike (-0.0)).arguments output := by rfl
  have hfits : ∀ argument ∈ (optionLike 0.0).arguments "" ++ (optionLike (-0.0)).arguments "",
      Fingerprint.Fits argument := by decide +kernel
  obtain ⟨hinj, -, hhashed⟩ := arguments_unambiguous (optionLike 0.0) (optionLike (-0.0))
  exact ⟨harguments "-i", ((hinj "-i" "-i").mp (harguments "-i")).2, hfits,
    (hhashed hfits).mpr (harguments "")⟩

end Plan

end Compositor
