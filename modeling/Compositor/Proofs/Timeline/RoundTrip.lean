import Compositor.Proofs.Json.Formats
import Compositor.Proofs.Table
import Compositor.Timeline.Payload

/-!
# Timelines in text and back

The text of a timeline is read as the timeline, as long as its numbers are: every
field is written so that it is read back, and the fields that are left out are the
ones that are not there.  Numbers that were read from a text are finite.
-/

namespace Compositor

open Json

def Settings.numbers (settings : Settings) : List Float := [settings.duration]

def Asset.numbers (asset : Asset) : List Float := asset.nativeDuration.toList

def Clip.numbers (clip : Clip Float) : List Float :=
  [clip.start, clip.duration, clip.volume, clip.fadeIn, clip.fadeOut]

def Track.numbers (track : Track) : List Float := track.volume :: track.clips.flatMap Clip.numbers

def Timeline.numbers (timeline : Timeline) : List Float :=
  timeline.tracks.flatMap Track.numbers ++ timeline.settings.numbers ++
    timeline.assets.entries.flatMap fun entry => entry.2.numbers

theorem Settings.format_lawful : Settings.format.Lawful where
  field_name field := by cases field <;> rfl
  nodup := by decide
  build_part _ := rfl

theorem Asset.format_lawful : Asset.format.Lawful where
  field_name field := by cases field <;> rfl
  nodup := by decide
  build_part _ := rfl

theorem Clip.format_lawful : Clip.format.Lawful where
  field_name field := by cases field <;> rfl
  nodup := by decide
  build_part _ := rfl

theorem Track.format_lawful : Track.format.Lawful where
  field_name field := by cases field <;> rfl
  nodup := by decide
  build_part _ := rfl

theorem Timeline.format_lawful : Timeline.format.Lawful where
  field_name field := by cases field <;> rfl
  nodup := by decide
  build_part _ := rfl

theorem Transition.spells (transition : Transition) :
    Spells Transition.format.read (Transition.format.write transition) transition :=
  VariantFormat.spells (by cases transition <;> rfl)

theorem Style.spells (style : Style) :
    Spells Style.format.read (Style.format.write style) style :=
  VariantFormat.spells (by cases style <;> rfl)

theorem MediaKind.spells (kind : MediaKind) :
    Spells MediaKind.format.read (MediaKind.format.write kind) kind :=
  VariantFormat.spells (by cases kind <;> rfl)

theorem Resolution.spells (resolution : Resolution) :
    Spells Resolution.format.read (Resolution.format.write resolution) resolution :=
  VariantFormat.spells (by cases resolution <;> rfl)

theorem FrameRate.spells (rate : FrameRate) : Spells FrameRate.read rate.write rate := by
  have hbound : rate.perSecond < 2 ^ 32 := by cases rate <;> decide
  have hword : Spells readWord (.whole rate.perSecond) rate.perSecond :=
    spells_whole hbound (by omega) "u32"
  refine ⟨trivial, bind_eq_ok.mpr ⟨rate.perSecond, hword.read_document, ?_⟩⟩
  simp [FrameRate.ofPerSecond, pure, Except.pure]

theorem Settings.spells {settings : Settings} (h : ∀ value ∈ settings.numbers, ReadsBack value) :
    Spells Settings.format.reader (Settings.format.toTree settings) settings := by
  refine RecordFormat.spells Settings.format_lawful fun field => ?_
  cases field with
  | title => exact spells_text settings.title
  | duration => exact spells_number (h _ List.mem_cons_self)
  | resolution => exact settings.resolution.spells
  | frameRate => exact settings.frameRate.spells
  | style => exact settings.style.spells
  | upload => exact spells_boolean settings.upload

theorem Asset.spells {asset : Asset} (h : ∀ value ∈ asset.numbers, ReadsBack value) :
    Spells Asset.format.reader (Asset.format.toTree asset) asset := by
  obtain ⟨kind, location, name, nativeDuration, bucket⟩ := asset
  refine RecordFormat.spells Asset.format_lawful fun field => ?_
  cases field with
  | kind => exact kind.spells
  | location => exact spells_text location
  | name =>
      cases name with
      | none => exact rfl
      | some name => exact spells_some_text name
  | nativeDuration =>
      cases nativeDuration with
      | none => exact rfl
      | some duration => exact spells_some_number (h duration List.mem_cons_self)
  | bucket =>
      cases bucket with
      | none => exact rfl
      | some bucket => exact spells_some_text bucket

theorem Clip.spells {clip : Clip Float} (h : ∀ value ∈ clip.numbers, ReadsBack value) :
    Spells Clip.format.reader (Clip.format.toTree clip) clip := by
  refine RecordFormat.spells Clip.format_lawful fun field => ?_
  cases field with
  | id => exact spells_text clip.id
  | assetId => exact spells_text clip.assetId
  | trackId => exact spells_text clip.trackId
  | start => exact spells_number (h clip.start (by simp [Clip.numbers]))
  | duration => exact spells_number (h clip.duration (by simp [Clip.numbers]))
  | volume => exact spells_number (h clip.volume (by simp [Clip.numbers]))
  | fadeIn => exact spells_number (h clip.fadeIn (by simp [Clip.numbers]))
  | fadeOut => exact spells_number (h clip.fadeOut (by simp [Clip.numbers]))
  | transition => exact clip.transition.spells

theorem Track.spells {track : Track} (h : ∀ value ∈ track.numbers, ReadsBack value) :
    Spells Track.format.reader (Track.format.toTree track) track := by
  refine RecordFormat.spells Track.format_lawful fun field => ?_
  cases field with
  | id => exact spells_text track.id
  | kind => exact track.kind.spells
  | name => exact spells_text track.name
  | clips =>
      refine spells_list fun clip hclip => Clip.spells fun value hvalue => h value ?_
      exact List.mem_cons_of_mem _ (List.mem_flatMap.mpr ⟨clip, hclip, hvalue⟩)
  | muted => exact spells_boolean track.muted
  | volume => exact spells_number (h _ List.mem_cons_self)

theorem spells_assets {assets : Table Asset}
    (h : ∀ entry ∈ assets.entries, ∀ value ∈ entry.2.numbers, ReadsBack value) :
    Spells readAssets (writeAssets assets) assets := by
  have hmap : Spells (readMap Asset.format.reader) (writeAssets assets) assets.entries :=
    spells_map fun entry hentry => Asset.spells (h entry hentry)
  refine ⟨hmap.faithful, bind_eq_ok.mpr ⟨assets.entries, hmap.read_document, ?_⟩⟩
  simp [pure, Except.pure]

theorem Timeline.spells {timeline : Timeline} (h : ∀ value ∈ timeline.numbers, ReadsBack value) :
    Spells Timeline.format.reader (Timeline.format.toTree timeline) timeline := by
  simp only [Timeline.numbers, List.forall_mem_append, List.forall_mem_flatMap] at h
  obtain ⟨⟨htracks, hsettings⟩, hassets⟩ := h
  refine RecordFormat.spells Timeline.format_lawful fun field => ?_
  cases field with
  | tracks => exact spells_list fun track htrack => Track.spells (htracks track htrack)
  | settings => exact Settings.spells hsettings
  | assets => exact spells_assets hassets

theorem isFinite_of_field {value : Float} {absent : Option Float}
    (h : (∃ part, readReal part = .ok value) ∨ absent = some value)
    (habsent : ∀ default ∈ absent, default.isFinite = true) : value.isFinite = true := by
  rcases h with ⟨part, hread⟩ | hdefault
  · exact isFinite_of_readReal hread
  · exact habsent value hdefault

theorem isFinite_of_mem_some {number : Float} (h : number.isFinite = true) :
    ∀ default ∈ some number, default.isFinite = true := by
  rintro _ ⟨⟩
  exact h

theorem Settings.isFinite_of_reader {document : Document} {settings : Settings}
    (h : Settings.format.reader document = .ok settings) :
    ∀ value ∈ settings.numbers, value.isFinite = true := by
  obtain ⟨content, rfl, hcontent⟩ := RecordFormat.exists_content_of_reader h
  intro value hvalue
  cases List.mem_singleton.mp hvalue
  exact isFinite_of_field (hcontent .duration) nofun

theorem Asset.isFinite_of_reader {document : Document} {asset : Asset}
    (h : Asset.format.reader document = .ok asset) :
    ∀ value ∈ asset.numbers, value.isFinite = true := by
  obtain ⟨content, rfl, hcontent⟩ := RecordFormat.exists_content_of_reader h
  intro value hvalue
  have hduration : content .nativeDuration = some value := Option.mem_toList.mp hvalue
  rcases hcontent .nativeDuration with ⟨part, hread⟩ | hdefault
  · rw [hduration] at hread
    obtain ⟨part, hread⟩ := exists_read_of_readOption hread
    exact isFinite_of_readReal hread
  · rw [hduration] at hdefault
    cases hdefault

theorem Clip.isFinite_of_reader {document : Document} {clip : Clip Float}
    (h : Clip.format.reader document = .ok clip) :
    ∀ value ∈ clip.numbers, value.isFinite = true := by
  obtain ⟨content, rfl, hcontent⟩ := RecordFormat.exists_content_of_reader h
  have hone := isFinite_of_mem_some (by decide : (1.0 : Float).isFinite = true)
  have hzero := isFinite_of_mem_some (by decide : (0.0 : Float).isFinite = true)
  simp only [Clip.numbers, List.forall_mem_cons]
  exact ⟨isFinite_of_field (hcontent .start) nofun, isFinite_of_field (hcontent .duration) nofun,
    isFinite_of_field (hcontent .volume) hone, isFinite_of_field (hcontent .fadeIn) hzero,
    isFinite_of_field (hcontent .fadeOut) hzero, nofun⟩

theorem Track.isFinite_of_reader {document : Document} {track : Track}
    (h : Track.format.reader document = .ok track) :
    ∀ value ∈ track.numbers, value.isFinite = true := by
  obtain ⟨content, rfl, hcontent⟩ := RecordFormat.exists_content_of_reader h
  have hone := isFinite_of_mem_some (by decide : (1.0 : Float).isFinite = true)
  refine List.forall_mem_cons.mpr ⟨isFinite_of_field (hcontent .volume) hone, ?_⟩
  refine List.forall_mem_flatMap.mpr fun clip hclip => ?_
  rcases hcontent .clips with ⟨part, hread⟩ | hdefault
  · obtain ⟨part, hread⟩ := exists_read_of_readList hread clip hclip
    exact Clip.isFinite_of_reader hread
  · cases hdefault

theorem isFinite_of_readAssets {document : Document} {assets : Table Asset}
    (h : readAssets document = .ok assets) :
    ∀ entry ∈ assets.entries, ∀ value ∈ entry.2.numbers, value.isFinite = true := by
  obtain ⟨entries, hread, h⟩ := bind_eq_ok.mp h
  cases h
  intro entry hentry
  obtain ⟨part, hread⟩ := exists_read_of_readMap hread entry (Table.mem_of_mem_ofList hentry)
  exact Asset.isFinite_of_reader hread

theorem Timeline.isFinite_of_reader {document : Document} {timeline : Timeline}
    (h : Timeline.format.reader document = .ok timeline) :
    ∀ value ∈ timeline.numbers, value.isFinite = true := by
  obtain ⟨content, rfl, hcontent⟩ := RecordFormat.exists_content_of_reader h
  simp only [Timeline.numbers, List.forall_mem_append, List.forall_mem_flatMap]
  refine ⟨⟨fun track htrack => ?_, ?_⟩, ?_⟩
  · rcases hcontent .tracks with ⟨part, hread⟩ | hdefault
    · obtain ⟨part, hread⟩ := exists_read_of_readList hread track htrack
      exact Track.isFinite_of_reader hread
    · cases hdefault
  · rcases hcontent .settings with ⟨part, hread⟩ | hdefault
    · exact Settings.isFinite_of_reader hread
    · cases hdefault
  · rcases hcontent .assets with ⟨part, hread⟩ | hdefault
    · exact isFinite_of_readAssets hread
    · have hempty : content .assets = (Table.empty : Table Asset) := (Option.some.inj hdefault).symm
      simp [Timeline.format, hempty, Table.empty]

namespace Timeline

def Finite (timeline : Timeline) : Prop := ∀ value ∈ timeline.numbers, value.isFinite = true

/-- What is asked of the text of numbers, for the numbers of one timeline. -/
def NumbersReadBack (timeline : Timeline) : Prop :=
  ∀ value ∈ timeline.numbers, value.isFinite = true → ReadsBack value

theorem ofJson_toJson_of_finite {timeline : Timeline} (hreads : timeline.NumbersReadBack)
    (hfinite : timeline.Finite) : ofJson timeline.toJson = .ok timeline := by
  have hspells : Spells Timeline.format.reader (Timeline.format.toTree timeline) timeline :=
    Timeline.spells fun value hvalue => hreads value hvalue (hfinite value hvalue)
  rw [ofJson, toJson, ofSymbols, ofSymbols_compact _ hspells.faithful]
  exact hspells.read_document

theorem finite_of_ofJson {text : String} {timeline : Timeline}
    (h : ofJson text = .ok timeline) : timeline.Finite :=
  isFinite_of_reader (Reading.value_eq_ok_iff.mp h).1

/-- The text of a finite timeline is read as the timeline.  Whatever text a timeline was
read from, it is finite, and its own text is read as the same timeline. -/
theorem ofJson_toJson (timeline : Timeline) :
    (timeline.NumbersReadBack → timeline.Finite → ofJson timeline.toJson = .ok timeline) ∧
      ∀ text, ofJson text = .ok timeline →
        timeline.Finite ∧ (timeline.NumbersReadBack → ofJson timeline.toJson = .ok timeline) := by
  refine ⟨ofJson_toJson_of_finite, fun text h => ?_⟩
  have hfinite := finite_of_ofJson h
  exact ⟨hfinite, fun hreads => ofJson_toJson_of_finite hreads hfinite⟩

end Timeline

deriving instance DecidableEq for Settings, Asset, Clip, Track, Timeline

theorem eq_ok_of_toOption {ε α : Type} {outcome : Except ε α} {value : α}
    (h : outcome.toOption = some value) : outcome = .ok value := by
  cases outcome with
  | error fault => cases h
  | ok found =>
      cases h
      rfl

namespace Timeline

def fadingStill : Timeline where
  tracks := [⟨"v", .image, "", [⟨"c", "a", "v", 0, 2.5, 1, 0, 0, .fade⟩], false, 1⟩]
  settings := ⟨"", 2.5, .hd1080, .fps60, .slideshow, false⟩
  assets := .empty

def fadingStillText : String :=
  "\x7b\"tracks\":[[\"v\",\"image\",\"\",[[\"c\",\"a\",\"v\",0,2.5,1,0,0,\x7b\"fade\":null\x7d]]]],
  \"projectSettings\":\x7b\"duration\":2.5,\"framerate\":60\x7d\x7d"

theorem ofJson_toJson_fadingStill :
    ofJson fadingStillText = .ok fadingStill ∧ fadingStill.NumbersReadBack ∧ fadingStill.Finite ∧
      ofJson fadingStill.toJson = .ok fadingStill := by
  have hread : ofJson fadingStillText = .ok fadingStill := eq_ok_of_toOption (by decide +kernel)
  have hnumbers : ∀ value ∈ fadingStill.numbers,
      (Json.ofSymbols readReal ((numberChars value).map some)).toOption = some value := by
    decide +kernel
  have hreads : fadingStill.NumbersReadBack := fun value hvalue _ =>
    eq_ok_of_toOption (hnumbers value hvalue)
  have hfinite : fadingStill.Finite := ((ofJson_toJson fadingStill).2 fadingStillText hread).1
  exact ⟨hread, hreads, hfinite, (ofJson_toJson fadingStill).1 hreads hfinite⟩

end Timeline

end Compositor
