import Compositor.Proofs.Timeline.Ranges

/-!
# The first problem of a timeline

A timeline is asked ten kinds of things, one after the other in the order in which
its parts are declared.  It passes the check just if all of them hold, and else the
check tells the problem of the first that does not.
-/

namespace Compositor

def IsPositive (value : Float) : Prop := value.isFinite = true ∧ 0.0 < value

def IsNotNegative (value : Float) : Prop := value.isFinite = true ∧ 0.0 ≤ value

instance (value : Float) : Decidable (IsPositive value) := inferInstanceAs (Decidable (_ ∧ _))

instance (value : Float) : Decidable (IsNotNegative value) := inferInstanceAs (Decidable (_ ∧ _))

/-- The media that a track can be fed with: pictures on visual tracks, and sound on audio tracks. -/
inductive MediaKind.Feeds : MediaKind → MediaKind → Prop where
  | picture {asset track : MediaKind} : asset = .video ∨ asset = .image →
      track = .video ∨ track = .image → Feeds asset track
  | sound {asset : MediaKind} : asset = .audio ∨ asset = .video → Feeds asset .audio

theorem MediaKind.accepts_iff_feeds {track asset : MediaKind} :
    track.accepts asset = true ↔ asset.Feeds track := by
  constructor
  · intro h
    cases track with
    | audio =>
        cases asset with
        | audio => exact .sound (.inl rfl)
        | video => exact .sound (.inr rfl)
        | image => cases h
    | video =>
        cases asset with
        | audio => cases h
        | video => exact .picture (.inl rfl) (.inl rfl)
        | image => exact .picture (.inr rfl) (.inl rfl)
    | image =>
        cases asset with
        | audio => cases h
        | video => exact .picture (.inl rfl) (.inr rfl)
        | image => exact .picture (.inr rfl) (.inr rfl)
  · rintro (⟨rfl | rfl, rfl | rfl⟩ | rfl | rfl) <;> rfl

theorem not_le_zero_iff {value : Float} (hfinite : value.isFinite = true) :
    (¬ value ≤ 0.0 ↔ 0.0 < value) ∧ (¬ value < 0.0 ↔ 0.0 ≤ value) := by
  have hzero : (0.0 : Float).toModel.unpack = .zero .positive := rfl
  have hunpacked : value.toModel.unpack.isFinite = true := hfinite
  simp only [Decimal.le_iff_compare, Decimal.lt_iff_compare, hzero]
  cases hunpack : value.toModel.unpack with
  | notANumber => simp [hunpack, Float.Model.UnpackedFloat.isFinite] at hunpacked
  | infinity sign => simp [hunpack, Float.Model.UnpackedFloat.isFinite] at hunpacked
  | zero sign => simp [Float.Model.UnpackedFloat.compare]
  | finite sign mantissa exponent hpos => cases sign <;> simp [Float.Model.UnpackedFloat.compare]

theorem Bound.admits_positive {value : Float} :
    Bound.positive.admits value = true ↔ IsPositive value := by
  simp only [admits, Quantity.isFinite, Quantity.isAtMost, Quantity.zero, Bool.and_eq_true,
    Bool.not_eq_true', decide_eq_false_iff_not, IsPositive]
  exact and_congr_right fun hfinite => (not_le_zero_iff hfinite).1

theorem Bound.admits_notNegative {value : Float} :
    Bound.notNegative.admits value = true ↔ IsNotNegative value := by
  simp only [admits, Quantity.isFinite, Quantity.isBelow, Quantity.zero, Bool.and_eq_true,
    Bool.not_eq_true', decide_eq_false_iff_not, IsNotNegative]
  exact and_congr_right fun hfinite => (not_le_zero_iff hfinite).2

namespace Timeline

variable {timeline : Timeline} {track : Track} {clip : Clip Float} {problem : Problem}

structure Suits (timeline : Timeline) (track : Track) (clip : Clip Float) : Prop where
  asset : ∃ asset, timeline.assets.get? clip.assetId = some asset ∧ asset.kind.Feeds track.kind
  track : ∃ other ∈ timeline.tracks, other.id = clip.trackId
  start : IsNotNegative clip.start
  duration : IsPositive clip.duration
  volume : IsNotNegative clip.volume
  fadeIn : IsNotNegative clip.fadeIn
  fadeOut : IsNotNegative clip.fadeOut

structure IsWellFormed (timeline : Timeline) : Prop where
  duration : IsPositive timeline.settings.duration
  volumes : ∀ track ∈ timeline.tracks, IsNotNegative track.volume
  clips : ∀ track ∈ timeline.tracks, ∀ clip ∈ track.clips, timeline.Suits track clip

theorem hasTrack_iff {id : String} :
    timeline.hasTrack id = true ↔ ∃ track ∈ timeline.tracks, track.id = id := by
  simp [hasTrack]

theorem suits_iff_admits : timeline.Suits track clip ↔ timeline.Admits track clip := by
  constructor
  · intro h
    obtain ⟨asset, hasset, hfeeds⟩ := h.asset
    refine ⟨⟨asset, hasset, MediaKind.accepts_iff_feeds.mpr hfeeds⟩, hasTrack_iff.mpr h.track, ?_⟩
    simp only [Clip.measures, List.forall_mem_cons, Measure.isAdmitted, Bound.admits_positive,
      Bound.admits_notNegative]
    exact ⟨h.start, h.duration, h.volume, h.fadeIn, h.fadeOut, by simp⟩
  · intro h
    obtain ⟨asset, hasset, haccepts⟩ := h.asset
    have hranges := h.ranges
    simp only [Clip.measures, List.forall_mem_cons, Measure.isAdmitted, Bound.admits_positive,
      Bound.admits_notNegative] at hranges
    obtain ⟨hstart, hduration, hvolume, hfadeIn, hfadeOut, -⟩ := hranges
    exact ⟨⟨asset, hasset, MediaKind.accepts_iff_feeds.mp haccepts⟩, hasTrack_iff.mp h.track,
      hstart, hduration, hvolume, hfadeIn, hfadeOut⟩

theorem validate_eq_ok_iff_isWellFormed : timeline.validate = .ok () ↔ timeline.IsWellFormed := by
  simp only [validate_eq_ok_iff, Bound.admits_positive, Bound.admits_notNegative,
    ← suits_iff_admits]
  constructor
  · intro h
    exact ⟨h.1, fun track htrack => (h.2 track htrack).1, fun track htrack => (h.2 track htrack).2⟩
  · intro h
    exact ⟨h.duration, fun track htrack => ⟨h.volumes track htrack, h.clips track htrack⟩⟩

/-- One thing that is checked.  A number is checked as some field of what is named. -/
inductive Check where
  | positive (subject field : String) (value : Float)
  | notNegative (subject field : String) (value : Float)
  | asset (clip : Clip Float)
  | track (clip : Clip Float)
  | kind (track : Track) (clip : Clip Float)

def clipChecks (track : Track) (clip : Clip Float) : List Check :=
  let subject := "clip '" ++ clip.id ++ "'"
  [.asset clip, .track clip, .notNegative subject "startTime" clip.start,
    .positive subject "duration" clip.duration, .notNegative subject "volume" clip.volume,
    .notNegative subject "fadeIn" clip.fadeIn, .notNegative subject "fadeOut" clip.fadeOut,
    .kind track clip]

def trackChecks (track : Track) : List Check :=
  .notNegative ("track '" ++ track.id ++ "'") "volume" track.volume ::
    track.clips.flatMap (clipChecks track)

def checks (timeline : Timeline) : List Check :=
  .positive "projectSettings" "duration" timeline.settings.duration ::
    timeline.tracks.flatMap trackChecks

inductive Fails (timeline : Timeline) : Check → Problem → Prop where
  | positive {subject field : String} {value : Float} : ¬ IsPositive value →
      Fails timeline (.positive subject field value) (.invalidRange subject field "> 0" value)
  | notNegative {subject field : String} {value : Float} : ¬ IsNotNegative value →
      Fails timeline (.notNegative subject field value) (.invalidRange subject field ">= 0" value)
  | asset {clip : Clip Float} : timeline.assets.get? clip.assetId = none →
      Fails timeline (.asset clip) (.missingReference clip.id .asset clip.assetId)
  | track {clip : Clip Float} : (∀ track ∈ timeline.tracks, track.id ≠ clip.trackId) →
      Fails timeline (.track clip) (.missingReference clip.id .track clip.trackId)
  | kind {track : Track} {clip : Clip Float} {asset : Asset} :
      timeline.assets.get? clip.assetId = some asset → ¬ asset.kind.Feeds track.kind →
      Fails timeline (.kind track clip)
        (.kindMismatch clip.id clip.assetId asset.kind track.id track.kind)

/-- All checks before it hold, and this one does not. -/
def FirstFails (timeline : Timeline) (problem : Problem) : Prop :=
  ∃ before check after, timeline.checks = before ++ check :: after ∧
    (∀ earlier ∈ before, ∀ other, ¬ timeline.Fails earlier other) ∧
    timeline.Fails check problem

def checkProblem? (timeline : Timeline) : Check → Option Problem
  | .positive subject field value => Measure.problem? subject ⟨field, .positive, value⟩
  | .notNegative subject field value => Measure.problem? subject ⟨field, .notNegative, value⟩
  | .asset clip =>
    if (timeline.assets.get? clip.assetId).isNone then
      some (.missingReference clip.id .asset clip.assetId)
    else none
  | .track clip => timeline.referenceProblem? clip
  | .kind track clip => (timeline.assets.get? clip.assetId).bind (kindProblem? track clip)

theorem problem?_measure_eq_some_iff {subject : String} {measure : Measure Float} :
    measure.problem? subject = some problem ↔
      ¬ measure.isAdmitted = true ∧
        .invalidRange subject measure.field measure.bound.text measure.value = problem := by
  cases h : measure.isAdmitted <;> simp [Measure.problem?, h]

theorem kindProblem?_eq_some_iff {asset : Asset} :
    kindProblem? track clip asset = some problem ↔
      ¬ asset.kind.Feeds track.kind ∧
        .kindMismatch clip.id clip.assetId asset.kind track.id track.kind = problem := by
  rw [← MediaKind.accepts_iff_feeds]
  cases h : track.kind.accepts asset.kind <;> simp [kindProblem?, h]

theorem referenceProblem?_eq_some_iff :
    timeline.referenceProblem? clip = some problem ↔
      (∀ track ∈ timeline.tracks, track.id ≠ clip.trackId) ∧
        .missingReference clip.id .track clip.trackId = problem := by
  have hunknown : timeline.hasTrack clip.trackId = false ↔
      ∀ track ∈ timeline.tracks, track.id ≠ clip.trackId := by
    rw [← Bool.not_eq_true, hasTrack_iff]
    push Not
    rfl
  rw [← hunknown]
  cases h : timeline.hasTrack clip.trackId <;> simp [referenceProblem?, h]

theorem checkProblem?_eq_some_iff {check : Check} :
    timeline.checkProblem? check = some problem ↔ timeline.Fails check problem := by
  constructor
  · intro h
    cases check with
    | positive subject field value =>
        rw [checkProblem?, problem?_measure_eq_some_iff, Measure.isAdmitted,
          Bound.admits_positive] at h
        exact h.2 ▸ .positive h.1
    | notNegative subject field value =>
        rw [checkProblem?, problem?_measure_eq_some_iff, Measure.isAdmitted,
          Bound.admits_notNegative] at h
        exact h.2 ▸ .notNegative h.1
    | asset clip =>
        rw [checkProblem?, Option.ite_none_right_eq_some, Option.isNone_iff_eq_none,
          Option.some.injEq] at h
        exact h.2 ▸ .asset h.1
    | track clip =>
        rw [checkProblem?, referenceProblem?_eq_some_iff] at h
        exact h.2 ▸ .track h.1
    | kind track clip =>
        obtain ⟨asset, hasset, hkind⟩ := Option.bind_eq_some_iff.mp h
        rw [kindProblem?_eq_some_iff] at hkind
        exact hkind.2 ▸ .kind hasset hkind.1
  · intro h
    cases h with
    | positive h =>
        rw [checkProblem?, problem?_measure_eq_some_iff, Measure.isAdmitted, Bound.admits_positive]
        exact ⟨h, rfl⟩
    | notNegative h =>
        rw [checkProblem?, problem?_measure_eq_some_iff, Measure.isAdmitted,
          Bound.admits_notNegative]
        exact ⟨h, rfl⟩
    | asset h =>
        rw [checkProblem?, h]
        rfl
    | track h =>
        rw [checkProblem?, referenceProblem?_eq_some_iff]
        exact ⟨h, rfl⟩
    | kind hasset hkind =>
        rw [checkProblem?, hasset, Option.bind_some, kindProblem?_eq_some_iff]
        exact ⟨hkind, rfl⟩

theorem findSome?_cons_eq_or {α β : Type} (f : α → Option β) (item : α) (items : List α) :
    (item :: items).findSome? f = (f item).or (items.findSome? f) := by
  rw [List.findSome?_cons]
  cases f item <;> rfl

theorem findSome?_flatMap {α β γ : Type} (items : List α) (f : α → List β) (g : β → Option γ) :
    (items.flatMap f).findSome? g = items.findSome? fun item => (f item).findSome? g := by
  induction items with
  | nil => rfl
  | cons item items ih => rw [List.flatMap_cons, List.findSome?_append, ih, findSome?_cons_eq_or]

theorem append_quoted (before text : String) :
    before ++ quoted text = before ++ "'" ++ text ++ "'" := by
  rw [quoted, ← String.append_assoc, ← String.append_assoc]

theorem clipProblem?_eq : timeline.clipProblem? track clip =
    (clipChecks track clip).findSome? timeline.checkProblem? := by
  have hsubject : "clip " ++ quoted clip.id = "clip '" ++ clip.id ++ "'" := append_quoted _ _
  cases hasset : timeline.assets.get? clip.assetId with
  | none => simp [clipProblem?, clipChecks, checkProblem?, hasset]
  | some asset =>
      simp [clipProblem?, rangeProblem?, Clip.measures, clipChecks, checkProblem?, hasset, hsubject,
        findSome?_cons_eq_or, Option.or_assoc]

theorem trackProblem?_eq :
    timeline.trackProblem? track = (trackChecks track).findSome? timeline.checkProblem? := by
  have hsubject : "track " ++ quoted track.id = "track '" ++ track.id ++ "'" := append_quoted _ _
  have hclips : timeline.clipProblem? track =
      fun clip => (clipChecks track clip).findSome? timeline.checkProblem? :=
    funext fun _ => clipProblem?_eq
  rw [trackChecks, findSome?_cons_eq_or, findSome?_flatMap, ← hclips, trackProblem?, checkProblem?,
    hsubject]

theorem problem?_eq : timeline.problem? = timeline.checks.findSome? timeline.checkProblem? := by
  have htracks : timeline.trackProblem? =
      fun track => (trackChecks track).findSome? timeline.checkProblem? :=
    funext fun _ => trackProblem?_eq
  rw [checks, findSome?_cons_eq_or, findSome?_flatMap, ← htracks, problem?, durationProblem?,
    checkProblem?]

theorem problem?_eq_some_iff : timeline.problem? = some problem ↔ timeline.FirstFails problem := by
  have hholds (check : Check) :
      timeline.checkProblem? check = none ↔ ∀ other, ¬ timeline.Fails check other := by
    simp only [← checkProblem?_eq_some_iff, Option.eq_none_iff_forall_ne_some, ne_eq]
  rw [problem?_eq, List.findSome?_eq_some_iff]
  simp only [hholds, checkProblem?_eq_some_iff, FirstFails, and_comm (a := timeline.Fails _ _)]

theorem validate_eq_error_iff :
    timeline.validate = .error problem ↔ timeline.FirstFails problem := by
  rw [← problem?_eq_some_iff, validate]
  cases timeline.problem? <;> simp

/-- A check of a timeline tells if it is well-formed, and else what is wrong first. -/
structure Judged (timeline : Timeline) (outcome : Except Problem Unit) : Prop where
  ok_iff : outcome = .ok () ↔ timeline.IsWellFormed
  error_iff : ∀ problem, outcome = .error problem ↔ timeline.FirstFails problem

theorem judged_validate (timeline : Timeline) : timeline.Judged timeline.validate where
  ok_iff := validate_eq_ok_iff_isWellFormed
  error_iff _ := validate_eq_error_iff

end Timeline

end Compositor
