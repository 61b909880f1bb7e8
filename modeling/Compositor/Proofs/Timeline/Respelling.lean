import Mathlib.Logic.Relation
import Compositor.Proofs.Json.Respelling
import Compositor.Proofs.Timeline.RoundTrip

/-!
# Spellings of a timeline

A text that is read as a timeline is the spelling of one document.  Blanks, the
order of members, the choice of names, members that nobody asks for, defaults that
are said and lists in place of records do not matter to what is read.  A record
that gives a field twice is not read at all.
-/

namespace Compositor

open Json

theorem Json.RecordFormat.distinct_of_field? {α : Type} {format : RecordFormat α}
    (hnodup : format.fields.Nodup)
    (h : ∀ field, ∀ name ∈ format.names field, format.field? name = some field) :
    format.Distinct where
  nodup := hnodup
  names field other name hfield hother :=
    Option.some.inj ((h field name hfield).symm.trans (h other name hother))

theorem Settings.format_distinct : Settings.format.Distinct :=
  RecordFormat.distinct_of_field? Settings.format_lawful.nodup fun field => by
    cases field <;> decide

theorem Asset.format_distinct : Asset.format.Distinct :=
  RecordFormat.distinct_of_field? Asset.format_lawful.nodup fun field => by
    cases field <;> decide

theorem Clip.format_distinct : Clip.format.Distinct :=
  RecordFormat.distinct_of_field? Clip.format_lawful.nodup fun field => by
    cases field <;> decide

theorem Track.format_distinct : Track.format.Distinct :=
  RecordFormat.distinct_of_field? Track.format_lawful.nodup fun field => by
    cases field <;> decide

theorem Timeline.format_distinct : Timeline.format.Distinct :=
  RecordFormat.distinct_of_field? Timeline.format_lawful.nodup fun field => by
    cases field <;> decide

theorem FrameRate.demanding : Demanding FrameRate.read := (demanding_natural _ _).bind _

theorem Settings.demanding : Demanding Settings.format.reader :=
  RecordFormat.demanding format_distinct fun field => by
    cases field with
    | title => exact demanding_text
    | duration => exact demanding_real
    | resolution => exact Resolution.format.demanding
    | frameRate => exact FrameRate.demanding
    | style => exact Style.format.demanding
    | upload => exact demanding_boolean

theorem Asset.demanding : Demanding Asset.format.reader :=
  RecordFormat.demanding format_distinct fun field => by
    cases field with
    | kind => exact MediaKind.format.demanding
    | location => exact demanding_text
    | name | bucket => exact demanding_text.option
    | nativeDuration => exact demanding_real.option

theorem Clip.demanding : Demanding Clip.format.reader :=
  RecordFormat.demanding format_distinct fun field => by
    cases field with
    | id | assetId | trackId => exact demanding_text
    | start | duration | volume | fadeIn | fadeOut => exact demanding_real
    | transition => exact Transition.format.demanding

theorem Track.demanding : Demanding Track.format.reader :=
  RecordFormat.demanding format_distinct fun field => by
    cases field with
    | id | name => exact demanding_text
    | kind => exact MediaKind.format.demanding
    | clips => exact Clip.demanding.list
    | muted => exact demanding_boolean
    | volume => exact demanding_real

theorem Timeline.demanding : Demanding Timeline.format.reader :=
  RecordFormat.demanding format_distinct fun field => by
    cases field with
    | tracks => exact Track.demanding.list
    | settings => exact Settings.demanding
    | assets => exact Asset.demanding.map.bind _

def Resolution.Names (resolution : Resolution) (quoted : Quoted) : Prop :=
  ∃ name ∈ Resolution.format.names resolution, quoted.text = .ok name

theorem Resolution.Names.ofQuoted {resolution : Resolution} {quoted : Quoted}
    (h : resolution.Names quoted) : Resolution.format.ofQuoted quoted = .ok resolution := by
  have hname : ∀ name ∈ Resolution.format.names resolution,
      Resolution.format.ofName? name = some resolution := by
    cases resolution <;> decide
  obtain ⟨name, hmem, htext⟩ := h
  refine bind_eq_ok.mpr ⟨name, htext, ?_⟩
  rw [hname name hmem]
  rfl

def hasKey (name : String) (member : Quoted × Document) : Bool :=
  member.1.text.toOption == some name

theorem liftFun_hasKey {α : Type} (read : Reader α) (name : String) :
    Relator.LiftFun (ReadsEntry read) Iff (fun member => hasKey name member = true)
      fun entry => (entry.1 == name) = true := by
  intro member entry h
  simp [hasKey, h.1, Except.toOption]

theorem rightUnique_readsEntry {α : Type} (read : Reader α) :
    Relator.RightUnique (ReadsEntry read) := by
  rintro member ⟨name, value⟩ ⟨name', value'⟩ ⟨hkey, hvalue⟩ ⟨hkey', hvalue'⟩
  cases hkey.symm.trans hkey'
  cases hvalue.symm.trans hvalue'
  rfl

/-- Members of different keys may change places. -/
theorem readAssets_eq_ok_of_perm {members members' : List (Quoted × Document)}
    {assets : Table Asset} (hperm : members.Perm members')
    (horder : ∀ name, members.filter (hasKey name) = members'.filter (hasKey name))
    (h : readAssets (.record members .closed) = .ok assets) :
    readAssets (.record members' .closed) = .ok assets := by
  obtain ⟨entries, hread, h⟩ := bind_eq_ok.mp h
  cases h
  obtain ⟨hentries, -⟩ := readMap_eq_ok_iff.mp hread
  obtain ⟨entries', hentries', -⟩ := List.perm_comp_forall₂ hperm.symm hentries
  refine bind_eq_ok.mpr ⟨entries', readMap_eq_ok_iff.mpr ⟨hentries', rfl⟩, ?_⟩
  refine congrArg Except.ok (Table.ofList_eq_of_filter_eq fun name => ?_)
  have hfilter := List.rel_filter (liftFun_hasKey _ name) hentries
  have hfilter' := List.rel_filter (liftFun_hasKey _ name) hentries'
  rw [horder name] at hfilter
  exact (rightUnique_readsEntry _).forall₂ hfilter' hfilter

namespace Timeline

/-- One resolution under another one of its names, as a text or as the record of a choice. -/
inductive RespellsResolution : Document → Document → Prop
  | text {resolution : Resolution} {first second : Quoted} (hfirst : resolution.Names first)
      (hsecond : resolution.Names second) : RespellsResolution (.text first) (.text second)
  | member {resolution : Resolution} {first second : Quoted} (hfirst : resolution.Names first)
      (hsecond : resolution.Names second) :
      RespellsResolution (.record [(first, .null)] .closed) (.record [(second, .null)] .closed)

theorem RespellsResolution.read_eq_ok {document document' : Document} {resolution : Resolution}
    (h : RespellsResolution document document')
    (hread : Resolution.format.read document = .ok resolution) :
    Resolution.format.read document' = .ok resolution := by
  cases h with
  | text hfirst hsecond =>
      cases hread.symm.trans hfirst.ofQuoted
      exact hsecond.ofQuoted
  | member hfirst hsecond =>
      obtain ⟨found, hfound, hrest⟩ := bind_eq_ok.mp hread
      cases hfound.symm.trans hfirst.ofQuoted
      exact bind_eq_ok.mpr ⟨_, hsecond.ofQuoted, hrest⟩

/-- Some part of a timeline is written in another way. -/
inductive Rewrites : Document → Document → Prop
  | record {α : Type} {format : RecordFormat α} (hformat : format.Distinct)
      {hole : Document → Document} (hcontext : Context Timeline.format.reader format.reader hole)
      {part part' : Document} (h : format.Respells part part') : Rewrites (hole part) (hole part')
  | resolution {hole : Document → Document}
      (hcontext : Context Timeline.format.reader Resolution.format.read hole)
      {part part' : Document} (h : RespellsResolution part part') :
      Rewrites (hole part) (hole part')
  | assets {hole : Document → Document} (hcontext : Context Timeline.format.reader readAssets hole)
      {members members' : List (Quoted × Document)} (hperm : members.Perm members')
      (horder : ∀ name, members.filter (hasKey name) = members'.filter (hasKey name)) :
      Rewrites (hole (.record members .closed)) (hole (.record members' .closed))

theorem Rewrites.reader_eq_ok {document document' : Document} {timeline : Timeline}
    (h : Rewrites document document') (hread : Timeline.format.reader document = .ok timeline) :
    Timeline.format.reader document' = .ok timeline := by
  cases h with
  | record hformat hcontext h =>
      obtain ⟨found, hfound, hreplace⟩ := hcontext.exists_of_read hread
      exact hreplace _ (h.reader_eq_ok hformat hfound)
  | resolution hcontext h =>
      obtain ⟨found, hfound, hreplace⟩ := hcontext.exists_of_read hread
      exact hreplace _ (h.read_eq_ok hfound)
  | assets hcontext hperm horder =>
      obtain ⟨found, hfound, hreplace⟩ := hcontext.exists_of_read hread
      exact hreplace _ (readAssets_eq_ok_of_perm hperm horder hfound)

inductive GivesTwice : Document → Prop
  | mk {α : Type} {format : RecordFormat α} (hformat : format.Distinct)
      {hole : Document → Document} (hcontext : Context Timeline.format.reader format.reader hole)
      {members : List (Quoted × Document)} (h : format.GivesTwice members) :
      GivesTwice (hole (.record members .closed))

theorem GivesTwice.reader_ne_ok {document : Document} (h : GivesTwice document)
    (timeline : Timeline) : Timeline.format.reader document ≠ .ok timeline := by
  obtain ⟨hformat, hcontext, h⟩ := h
  intro hread
  obtain ⟨found, hfound, -⟩ := hcontext.exists_of_read hread
  exact h.reader_ne_ok hformat .closed hfound

/-- The texts spell the same document, or one that is a rewrite of the other. -/
inductive Respelled (text text' : String) : Prop
  | blanks {document : Document} (h : document.Spelling text) (h' : document.Spelling text')
  | rewritten {document document' : Document} (h : document.Spelling text)
      (hrewrites : Rewrites document document') (h' : document'.Spelling text')

theorem ofJson_eq_ok_iff {text : String} {document : Document} (h : document.Spelling text)
    {timeline : Timeline} :
    ofJson text = .ok timeline ↔ Timeline.format.reader document = .ok timeline := by
  rw [ofJson, ofSymbols, Json.ofSymbols, h.reading, Reading.value_eq_ok_iff]
  simp

theorem exists_spelling {text : String} {timeline : Timeline} (h : ofJson text = .ok timeline) :
    ∃ document : Document, document.Spelling text := by
  obtain ⟨hread, hexcess⟩ := Reading.value_eq_ok_iff.mp h
  refine ⟨_, spelling_of_reading ?_ (Timeline.demanding _ _ hread)⟩
  exact congrArg (Reading.mk _) hexcess

theorem Respelled.ofJson_eq_ok {text text' : String} {timeline : Timeline}
    (h : Respelled text text') (hread : ofJson text = .ok timeline) :
    ofJson text' = .ok timeline := by
  cases h with
  | blanks h h' => exact (ofJson_eq_ok_iff h').mpr ((ofJson_eq_ok_iff h).mp hread)
  | rewritten h hrewrites h' =>
      exact (ofJson_eq_ok_iff h').mpr (hrewrites.reader_eq_ok ((ofJson_eq_ok_iff h).mp hread))

/-- A text that is read spells exactly one document, and every other spelling is read as the
same timeline.  A text in which a record gives a field twice is not read. -/
theorem ofJson_respelled (text : String) :
    (∀ timeline, ofJson text = .ok timeline →
      (∃! document : Document, document.Spelling text) ∧
        ∀ text', Relation.ReflTransGen Respelled text text' → ofJson text' = .ok timeline) ∧
      ∀ document : Document, document.Spelling text → GivesTwice document →
        ∀ timeline, ofJson text ≠ .ok timeline := by
  refine ⟨fun timeline h => ⟨?_, fun text' hrespelled => ?_⟩, fun document hspelling htwice => ?_⟩
  · obtain ⟨document, hspelling⟩ := exists_spelling h
    refine ⟨document, hspelling, fun other hother => ?_⟩
    exact congrArg Reading.document (hother.reading.symm.trans hspelling.reading)
  · induction hrespelled with
    | refl => exact h
    | tail _ hstep ih => exact hstep.ofJson_eq_ok ih
  · intro timeline h
    exact htwice.reader_ne_ok timeline ((ofJson_eq_ok_iff hspelling).mp h)

def brief : Timeline where
  tracks := []
  settings := ⟨"", 1, .hd1080, .fps60, .slideshow, false⟩
  assets := .empty

def briefText (names : List String) : String :=
  "\x7b\"tracks\":[],\"projectSettings\":\x7b\"duration\":1" ++
    String.join (names.map fun name => ",\"" ++ name ++ "\":60") ++ "\x7d\x7d"

/-- The other name of the frame rate, the members in another order, and more blanks. -/
def otherText : String :=
  " \x7b \"projectSettings\" : \x7b\"duration\": 1,
    \"framerate\": 60\x7d, \"tracks\": []\x7d"

def noTracks : Quoted × Document := (writtenText "tracks", .list [] .closed)

def briefSettings (names : List String) : Quoted × Document :=
  (writtenText "projectSettings",
    .record ((writtenText "duration", .number (wholeNumeral 1)) ::
      names.map fun name => (writtenText name, .number (wholeNumeral 60))) .closed)

theorem isWhole_brief (names : List String) :
    (Document.record [noTracks, briefSettings names] .closed).IsWhole ∧
      (Document.record [briefSettings names, noTracks] .closed).IsWhole := by
  simp [Document.IsWhole, membersWhole_iff, itemsWhole_iff, noTracks, briefSettings, writtenText]

theorem context_settings : Context Timeline.format.reader Settings.format.reader fun part =>
    .record [noTracks, (writtenText "projectSettings", part)] .closed := by
  have hkey : Timeline.format.Names .settings (writtenText "projectSettings") :=
    ⟨"projectSettings", by decide, text_writtenText _⟩
  exact .member Timeline.format_distinct (.here _) hkey [noTracks] []

theorem ofJson_respelled_brief :
    ofJson (briefText ["frameRate"]) = .ok brief ∧
      Relation.ReflTransGen Respelled (briefText ["frameRate"]) otherText ∧
      ofJson otherText = .ok brief ∧ ofJson (briefText ["frameRate", "framerate"]) ≠ .ok brief := by
  have hread : ofJson (briefText ["frameRate"]) = .ok brief := eq_ok_of_toOption (by decide +kernel)
  have hnames : ∀ name ∈ ["frameRate", "framerate"],
      Settings.format.Names .frameRate (writtenText name) := fun name hname =>
    ⟨name, hname, text_writtenText name⟩
  have hfirst : (Document.record [noTracks, briefSettings ["frameRate"]] .closed).Spelling
      (briefText ["frameRate"]) := spelling_of_tokens (isWhole_brief _).1 (by decide +kernel)
  have hsecond : (Document.record [noTracks, briefSettings ["framerate"]] .closed).Spelling
      (briefText ["framerate"]) := spelling_of_tokens (isWhole_brief _).1 (by decide +kernel)
  have hthird : (Document.record [briefSettings ["framerate"], noTracks] .closed).Spelling
      otherText := spelling_of_tokens (isWhole_brief _).2 (by decide +kernel)
  have htwice : (Document.record [noTracks, briefSettings ["frameRate", "framerate"]]
      .closed).Spelling (briefText ["frameRate", "framerate"]) :=
    spelling_of_tokens (isWhole_brief _).1 (by decide +kernel)
  have hrename : Rewrites (.record [noTracks, briefSettings ["frameRate"]] .closed)
      (.record [noTracks, briefSettings ["framerate"]] .closed) :=
    .record Settings.format_distinct context_settings <|
      .renamed (hnames "frameRate" (by decide)) (hnames "framerate" (by decide)) _
        [(writtenText "duration", .number (wholeNumeral 1))] []
  have hreorder : Rewrites (.record [noTracks, briefSettings ["framerate"]] .closed)
      (.record [briefSettings ["framerate"], noTracks] .closed) :=
    .record Timeline.format_distinct (.here _) (.reordered (.swap _ _ _))
  have hrespelled : Relation.ReflTransGen Respelled (briefText ["frameRate"]) otherText :=
    .tail (.single (.rewritten hfirst hrename hsecond)) (.rewritten hsecond hreorder hthird)
  refine ⟨hread, hrespelled, ((ofJson_respelled _).1 brief hread).2 _ hrespelled, ?_⟩
  refine (ofJson_respelled _).2 _ htwice ?_ brief
  refine .mk Settings.format_distinct context_settings ?_
  exact ⟨.frameRate, writtenText "frameRate", writtenText "framerate", by simp,
    hnames _ (by decide), hnames _ (by decide)⟩

end Timeline

end Compositor
