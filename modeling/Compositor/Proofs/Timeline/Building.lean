import Compositor.Proofs.Table
import Compositor.Proofs.Timeline.Problems
import Compositor.Timeline.Builder

/-!
# What is built

A timeline is built by calls in any order, which give settings, assets and tracks;
a track and a clip are built by calls of their own.  What comes out can be read off
the calls: of each setting the value given last, and all parts in the order in which
they were given.  A chain of calls only fails where an asset is declared again.
-/

namespace Compositor

section LastGiven

variable {Call α : Type} {given? : Call → Option α} {default : α}

def lastGiven (given? : Call → Option α) (default : α) (calls : List Call) : α :=
  (calls.filterMap given?).getLast?.getD default

@[simp] theorem lastGiven_nil : lastGiven given? default [] = default := rfl

theorem lastGiven_cons (call : Call) (calls : List Call) :
    lastGiven given? default (call :: calls) =
      lastGiven given? ((given? call).getD default) calls := by
  cases h : given? call <;> simp [lastGiven, h, List.getLast?_cons]

theorem lastGiven_append {calls next : List Call} :
    lastGiven given? default (calls ++ next) =
      lastGiven given? (lastGiven given? default calls) next := by
  simp only [lastGiven, List.filterMap_append, List.getLast?_append]
  cases (next.filterMap given?).getLast? <;> simp

theorem lastGiven_of_none {calls : List Call} (h : ∀ call ∈ calls, given? call = none) :
    lastGiven given? default calls = default := by
  rw [lastGiven, List.filterMap_eq_nil_iff.mpr h]
  rfl

end LastGiven

inductive ClipCall where
  | volume (volume : Float)
  | fades (fadeIn fadeOut : Float)
  | transition (transition : Transition)
  | trackId (id : String)

namespace ClipCall

def volume? : ClipCall → Option Float
  | .volume value => some value
  | _ => none

def fades? : ClipCall → Option (Float × Float)
  | .fades fadeIn fadeOut => some (fadeIn, fadeOut)
  | _ => none

def transition? : ClipCall → Option Transition
  | .transition value => some value
  | _ => none

def trackId? : ClipCall → Option String
  | .trackId value => some value
  | _ => none

end ClipCall

def ClipDraft.call (draft : ClipDraft) : ClipCall → ClipDraft
  | .volume volume => draft.setVolume volume
  | .fades fadeIn fadeOut => draft.setFades fadeIn fadeOut
  | .transition transition => draft.setTransition transition
  | .trackId id => draft.setTrackId id

/-- A clip as it is asked for, with the calls that follow. -/
structure ClipScript where
  id : String
  assetId : String
  start : Float
  duration : Float
  calls : List ClipCall

namespace ClipScript

def draft (script : ClipScript) : ClipDraft :=
  script.calls.foldl ClipDraft.call (.plain script.id script.assetId script.start script.duration)

def clip (script : ClipScript) (enclosing : String) : Clip Float where
  id := script.id
  assetId := script.assetId
  trackId := lastGiven ClipCall.trackId? enclosing script.calls
  start := script.start
  duration := script.duration
  volume := lastGiven ClipCall.volume? 1.0 script.calls
  fadeIn := (lastGiven ClipCall.fades? (0.0, 0.0) script.calls).1
  fadeOut := (lastGiven ClipCall.fades? (0.0, 0.0) script.calls).2
  transition := lastGiven ClipCall.transition? .cut script.calls

end ClipScript

theorem ClipDraft.finish_foldl_call (calls : List ClipCall) (draft : ClipDraft)
    (enclosing : String) :
    (calls.foldl ClipDraft.call draft).finish enclosing =
      ⟨draft.id, draft.assetId,
        lastGiven ClipCall.trackId? (draft.trackId.getD enclosing) calls, draft.start,
        draft.duration, lastGiven ClipCall.volume? draft.volume calls,
        (lastGiven ClipCall.fades? (draft.fadeIn, draft.fadeOut) calls).1,
        (lastGiven ClipCall.fades? (draft.fadeIn, draft.fadeOut) calls).2,
        lastGiven ClipCall.transition? draft.transition calls⟩ := by
  induction calls generalizing draft with
  | nil => rfl
  | cons call calls ih =>
      rw [List.foldl_cons, ih]
      simp only [lastGiven_cons]
      cases call with
      | volume | fades | transition | trackId => rfl

theorem ClipScript.finish_draft (script : ClipScript) (enclosing : String) :
    script.draft.finish enclosing = script.clip enclosing :=
  ClipDraft.finish_foldl_call script.calls _ enclosing

inductive TrackCall where
  | name (name : String)
  | muted (muted : Bool)
  | volume (volume : Float)
  | clip (script : ClipScript)

namespace TrackCall

def name? : TrackCall → Option String
  | .name value => some value
  | _ => none

def muted? : TrackCall → Option Bool
  | .muted value => some value
  | _ => none

def volume? : TrackCall → Option Float
  | .volume value => some value
  | _ => none

def clip? : TrackCall → Option ClipScript
  | .clip value => some value
  | _ => none

end TrackCall

def TrackDraft.call (draft : TrackDraft) : TrackCall → TrackDraft
  | .name name => draft.setName name
  | .muted muted => draft.setMuted muted
  | .volume volume => draft.setVolume volume
  | .clip script => draft.add script.draft

structure TrackScript where
  id : String
  kind : MediaKind
  calls : List TrackCall

namespace TrackScript

def draft (script : TrackScript) : TrackDraft :=
  script.calls.foldl TrackDraft.call (.plain script.id script.kind)

def clips (script : TrackScript) : List ClipScript := script.calls.filterMap TrackCall.clip?

def track (script : TrackScript) : Track where
  id := script.id
  kind := script.kind
  name := lastGiven TrackCall.name? script.id script.calls
  clips := script.clips.map (·.clip script.id)
  muted := lastGiven TrackCall.muted? false script.calls
  volume := lastGiven TrackCall.volume? 1.0 script.calls

end TrackScript

theorem TrackDraft.finish_foldl_call (calls : List TrackCall) (draft : TrackDraft) :
    (calls.foldl TrackDraft.call draft).finish =
      ⟨draft.id, draft.kind, lastGiven TrackCall.name? draft.name calls,
        draft.clips.map (·.finish draft.id) ++
          (calls.filterMap TrackCall.clip?).map (·.clip draft.id),
        lastGiven TrackCall.muted? draft.muted calls,
        lastGiven TrackCall.volume? draft.volume calls⟩ := by
  induction calls generalizing draft with
  | nil => simp [TrackDraft.finish]
  | cons call calls ih =>
      rw [List.foldl_cons, ih]
      simp only [lastGiven_cons]
      cases call with
      | name | muted | volume => rfl
      | clip script =>
          simp [TrackDraft.call, TrackDraft.add, TrackCall.clip?, TrackCall.name?, TrackCall.muted?,
            TrackCall.volume?, ClipScript.finish_draft]

theorem TrackScript.finish_draft (script : TrackScript) : script.draft.finish = script.track :=
  TrackDraft.finish_foldl_call script.calls _

/-! ## Timelines -/

inductive BuildCall where
  | resolution (resolution : Resolution)
  | frameRate (frameRate : FrameRate)
  | style (style : Style)
  | plainAsset (id : String) (kind : MediaKind) (location : String)
  | asset (id : String) (asset : Asset)
  | track (script : TrackScript)

namespace BuildCall

def resolution? : BuildCall → Option Resolution
  | .resolution value => some value
  | _ => none

def frameRate? : BuildCall → Option FrameRate
  | .frameRate value => some value
  | _ => none

def style? : BuildCall → Option Style
  | .style value => some value
  | _ => none

def asset? : BuildCall → Option (String × Asset)
  | .plainAsset id kind location => some (id, .plain kind location)
  | .asset id value => some (id, value)
  | _ => none

def track? : BuildCall → Option TrackScript
  | .track value => some value
  | _ => none

end BuildCall

def declaredAssets (calls : List BuildCall) : List (String × Asset) :=
  calls.filterMap BuildCall.asset?

def declaredIds (calls : List BuildCall) : List String := (declaredAssets calls).map Prod.fst

theorem declaredIds_append (calls next : List BuildCall) :
    declaredIds (calls ++ next) = declaredIds calls ++ declaredIds next := by
  simp [declaredIds, declaredAssets]

def trackScripts (calls : List BuildCall) : List TrackScript := calls.filterMap BuildCall.track?

def Settings.given (settings : Settings) (calls : List BuildCall) : Settings :=
  { settings with
    resolution := lastGiven BuildCall.resolution? settings.resolution calls
    frameRate := lastGiven BuildCall.frameRate? settings.frameRate calls
    style := lastGiven BuildCall.style? settings.style calls }

namespace Draft

def call (draft : Draft) : BuildCall → Except Problem Draft
  | .resolution resolution => .ok (draft.setResolution resolution)
  | .frameRate frameRate => .ok (draft.setFrameRate frameRate)
  | .style style => .ok (draft.setStyle style)
  | .plainAsset id kind location => draft.addPlainAsset id kind location
  | .asset id asset => draft.addAsset id asset
  | .track script => .ok (draft.addTrack script.draft)

def follow (draft : Draft) (calls : List BuildCall) : Except Problem Draft :=
  calls.foldlM call draft

def repeatedAsset (id : String) : Problem := .malformed ("duplicate asset id '" ++ id ++ "'")

variable {draft : Draft} {call : BuildCall} {calls : List BuildCall} {id : String} {asset : Asset}

/-- The draft that calls lead to if they declare no asset again. -/
def given (draft : Draft) (calls : List BuildCall) : Draft where
  settings := draft.settings.given calls
  assets := (declaredAssets calls).foldl (fun table pair => table.insert pair.1 pair.2) draft.assets
  tracks := draft.tracks ++ (trackScripts calls).map TrackScript.track

theorem given_nil : draft.given [] = draft := by
  simp [given, Settings.given, declaredAssets, trackScripts]

theorem given_append {next : List BuildCall} :
    draft.given (calls ++ next) = (draft.given calls).given next := by
  simp [given, Settings.given, lastGiven_append, declaredAssets, trackScripts]

theorem addAsset_of_new (h : draft.assets.contains id = false) :
    draft.addAsset id asset = .ok { draft with assets := draft.assets.insert id asset } := by
  rw [addAsset, h]
  rfl

theorem addAsset_of_contains (h : draft.assets.contains id = true) :
    draft.addAsset id asset = .error (repeatedAsset id) := by
  rw [addAsset, h, repeatedAsset, Timeline.append_quoted]
  rfl

theorem call_eq_addAsset (h : call.asset? = some (id, asset)) :
    draft.call call = draft.addAsset id asset := by
  cases call with
  | plainAsset | asset =>
      cases h
      rfl
  | resolution | frameRate | style | track => cases h

theorem contains_given :
    (draft.given calls).assets.contains id = true ↔
      draft.assets.contains id = true ∨ id ∈ declaredIds calls := by
  have hinsert (pairs : List (String × Asset)) (table : Table Asset) :
      (pairs.foldl (fun table pair => table.insert pair.1 pair.2) table).contains id = true ↔
        table.contains id = true ∨ id ∈ pairs.map Prod.fst := by
    induction pairs generalizing table with
    | nil => simp
    | cons pair pairs ih =>
        rw [List.foldl_cons, ih, Table.contains_insert, Bool.or_eq_true, beq_iff_eq, List.map_cons,
          List.mem_cons]
        tauto
  exact hinsert _ _

/-- A call only fails where it declares an asset that is there already. -/
theorem call_of_new (h : ∀ id ∈ declaredIds [call], draft.assets.contains id = false) :
    draft.call call = .ok (draft.given [call]) := by
  cases hasset : call.asset? with
  | some pair =>
      have hnew : draft.assets.contains pair.1 = false :=
        h pair.1 (by simp [declaredIds, declaredAssets, hasset])
      rw [call_eq_addAsset hasset, addAsset_of_new hnew]
      cases call with
      | plainAsset | asset =>
          cases hasset
          simp [given, Settings.given, declaredAssets, trackScripts, lastGiven, BuildCall.asset?,
            BuildCall.track?, BuildCall.resolution?, BuildCall.frameRate?, BuildCall.style?]
      | resolution | frameRate | style | track => cases hasset
  | none =>
      cases call with
      | resolution | frameRate | style | track =>
          simp [Draft.call, setResolution, setFrameRate, setStyle, addTrack, given, Settings.given,
            declaredAssets, trackScripts, lastGiven, hasset, BuildCall.track?,
            BuildCall.resolution?, BuildCall.frameRate?, BuildCall.style?,
            TrackScript.finish_draft]
      | plainAsset | asset => cases hasset

theorem follow_of_new (hdistinct : (declaredIds calls).Nodup)
    (hnew : ∀ id ∈ declaredIds calls, draft.assets.contains id = false) :
    draft.follow calls = .ok (draft.given calls) := by
  induction calls generalizing draft with
  | nil => rw [given_nil]; rfl
  | cons call calls ih =>
      have hids : declaredIds (call :: calls) = declaredIds [call] ++ declaredIds calls :=
        declaredIds_append [call] calls
      rw [hids] at hdistinct hnew
      obtain ⟨-, hrest, hapart⟩ := List.nodup_append.mp hdistinct
      have hcall : draft.call call = .ok (draft.given [call]) :=
        call_of_new fun id hid => hnew id (List.mem_append_left _ hid)
      have hcalls : (draft.given [call]).follow calls = .ok (draft.given (call :: calls)) := by
        rw [show call :: calls = [call] ++ calls from rfl, given_append]
        refine ih hrest fun id hid => Bool.eq_false_iff.mpr fun hcontains => ?_
        rcases contains_given.mp hcontains with hold | hdeclared
        · exact Bool.eq_false_iff.mp (hnew id (List.mem_append_right _ hid)) hold
        · exact hapart id hdeclared id hid rfl
      rw [← hcalls, follow, List.foldlM_cons, hcall]
      rfl

theorem follow_cons_of_error {problem : Problem} (h : draft.call call = .error problem) :
    draft.follow (call :: calls) = .error problem := by
  rw [follow, List.foldlM_cons, h]
  rfl

theorem follow_append_of_ok {next : List BuildCall} {after : Draft}
    (h : draft.follow calls = .ok after) : draft.follow (calls ++ next) = after.follow next := by
  rw [follow, List.foldlM_append]
  exact congrArg (· >>= fun reached => reached.follow next) h

end Draft

/-- A call declares an asset that calls before it declare, and they declare each just once. -/
structure BuildCall.Repeats (before : List BuildCall) (call : BuildCall) (id : String) : Prop where
  distinct : (declaredIds before).Nodup
  earlier : id ∈ declaredIds before
  again : ∃ asset, call.asset? = some (id, asset)

theorem exists_repeats {calls : List BuildCall} (h : ¬ (declaredIds calls).Nodup) :
    ∃ before call after id, calls = before ++ call :: after ∧ BuildCall.Repeats before call id := by
  induction calls using List.reverseRecOn with
  | nil => exact absurd List.nodup_nil h
  | append_singleton calls call ih =>
      by_cases hdistinct : (declaredIds calls).Nodup
      · cases hasset : call.asset? with
        | none =>
            have hids : declaredIds (calls ++ [call]) = declaredIds calls := by
              simp [declaredIds, declaredAssets, hasset]
            exact absurd (hids ▸ hdistinct) h
        | some pair =>
            have hids : declaredIds (calls ++ [call]) = declaredIds calls ++ [pair.1] := by
              simp [declaredIds, declaredAssets, hasset]
            have hearlier : pair.1 ∈ declaredIds calls := by
              by_contra hnew
              exact h (hids ▸ List.concat_eq_append ▸ hdistinct.concat hnew)
            exact ⟨calls, call, [], pair.1, rfl, hdistinct, hearlier, pair.2, hasset⟩
      · obtain ⟨before, repeated, after, id, rfl, hrepeats⟩ := ih hdistinct
        exact ⟨before, repeated, after ++ [call], id, by simp, hrepeats⟩

namespace Timeline

/-- Clips that name the track that they are on name a track of the timeline. -/
theorem validate_ne_missingTrack {timeline : Timeline}
    (h : ∀ track ∈ timeline.tracks, ∀ clip ∈ track.clips, clip.trackId = track.id)
    (clip id : String) : timeline.validate ≠ .error (.missingReference clip .track id) := by
  rw [Ne, validate_eq_error_iff]
  rintro ⟨before, check, after, hchecks, -, hfails⟩
  have hcheck : check ∈ timeline.checks := by simp [hchecks]
  cases hfails with
  | track hmissing =>
      rename_i placed
      obtain ⟨track, htrack, hplaced⟩ :
          ∃ track ∈ timeline.tracks, placed ∈ track.clips := by
        simpa [checks, trackChecks, clipChecks] using hcheck
      exact hmissing track htrack (h track htrack placed hplaced).symm

end Timeline

/-! ## What calls build -/

namespace Draft

variable {draft : Draft} {title : String} {duration : Float} {calls : List BuildCall}

/-- A draft holds what calls declare: settings, assets, and tracks in their order. -/
structure Holds (draft : Draft) (title : String) (duration : Float) (calls : List BuildCall) :
    Prop where
  settings : draft.timeline.settings = (Settings.default title duration).given calls
  assets : ∀ id asset,
    draft.timeline.assets.get? id = some asset ↔ (id, asset) ∈ declaredAssets calls
  tracks : draft.timeline.tracks = (trackScripts calls).map TrackScript.track

/-- A draft is finished as it stands if it passes the check, and else the check is what fails. -/
structure Finishes (draft : Draft) : Prop where
  passed : draft.timeline.validate = .ok () → draft.finish = .ok draft.timeline
  refused : ∀ problem, draft.timeline.validate = .error problem → draft.finish = .error problem

/-- No clip names another track than the one that it is on. -/
def Enclosed (calls : List BuildCall) : Prop :=
  ∀ track ∈ trackScripts calls, ∀ clip ∈ track.clips, ∀ call ∈ clip.calls, call.trackId? = none

structure Builds (title : String) (duration : Float) (calls : List BuildCall) : Prop where
  repeated : ¬ (declaredIds calls).Nodup → ∃ before call after id,
    calls = before ++ call :: after ∧ BuildCall.Repeats before call id
  stopped : ∀ before call after id, calls = before ++ call :: after →
    BuildCall.Repeats before call id →
      ∃ draft, (new title duration).follow before = .ok draft ∧
        draft.call call = .error (repeatedAsset id) ∧
        (new title duration).follow calls = .error (repeatedAsset id)
  built : (declaredIds calls).Nodup → ∃ draft, (new title duration).follow calls = .ok draft ∧
    draft.Holds title duration calls ∧ draft.Finishes ∧
    (Enclosed calls → ∀ clip id, draft.finish ≠ .error (.missingReference clip .track id))

theorem follow_new (h : (declaredIds calls).Nodup) :
    (new title duration).follow calls = .ok ((new title duration).given calls) :=
  follow_of_new h fun _ _ => rfl

theorem holds_given (h : (declaredIds calls).Nodup) :
    ((new title duration).given calls).Holds title duration calls where
  settings := rfl
  assets _ _ := Table.get?_ofList_eq_some_iff h
  tracks := List.nil_append _

theorem finishes (draft : Draft) : draft.Finishes where
  passed h := by rw [finish, h]; rfl
  refused problem h := by rw [finish, h]; rfl

theorem finish_ne_missingTrack (hholds : draft.Holds title duration calls)
    (henclosed : Enclosed calls) (clip id : String) :
    draft.finish ≠ .error (.missingReference clip .track id) := by
  have hclips : ∀ track ∈ draft.timeline.tracks, ∀ clip ∈ track.clips, clip.trackId = track.id := by
    rw [hholds.tracks]
    intro track htrack clip hclip
    obtain ⟨script, hscript, rfl⟩ := List.mem_map.mp htrack
    obtain ⟨clipScript, hclipScript, rfl⟩ := List.mem_map.mp hclip
    exact lastGiven_of_none (henclosed script hscript clipScript hclipScript)
  have hvalidate := Timeline.validate_ne_missingTrack hclips clip id
  intro hfinish
  cases hresult : draft.timeline.validate with
  | ok =>
      rw [draft.finishes.passed hresult] at hfinish
      cases hfinish
  | error problem =>
      rw [draft.finishes.refused problem hresult, Except.error.injEq] at hfinish
      exact hvalidate (hfinish ▸ hresult)

/-- A timeline is built just as it is asked for. -/
theorem builds (title : String) (duration : Float) (calls : List BuildCall) :
    Builds title duration calls where
  repeated := exists_repeats
  stopped before call after id hcalls hrepeats := by
    have hbefore : (new title duration).follow before = .ok ((new title duration).given before) :=
      follow_new hrepeats.distinct
    obtain ⟨asset, hasset⟩ := hrepeats.again
    have hcall : ((new title duration).given before).call call = .error (repeatedAsset id) := by
      rw [call_eq_addAsset hasset]
      exact addAsset_of_contains (contains_given.mpr (.inr hrepeats.earlier))
    refine ⟨_, hbefore, hcall, ?_⟩
    rw [hcalls, follow_append_of_ok hbefore]
    exact follow_cons_of_error hcall
  built h :=
    ⟨_, follow_new h, holds_given h, finishes _, finish_ne_missingTrack (holds_given h)⟩

end Draft

end Compositor
