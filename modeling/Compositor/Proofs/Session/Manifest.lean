import Compositor.Proofs.Session.RunId
import Compositor.Proofs.Timeline.RoundTrip
import Compositor.Session.Manifest

/-!
# Manifests in text and back

The manifest of a run is read from its text, whichever way the run ended.  The object
in the text holds what the outcome calls for, and none of what belongs to the other
kind of outcome.
-/

namespace Compositor

open Json

namespace Json.RecordFormat

variable {α : Type} {format : RecordFormat α}

theorem Lawful.name_inj (hlawful : format.Lawful) {field other : format.Field}
    (h : format.name field = format.name other) : field = other := by
  have hfield := hlawful.field_name field
  rw [h, hlawful.field_name other] at hfield
  exact (Option.some.inj hfield).symm

theorem lookup_membersOf (hlawful : format.Lawful) (value : α) (field : format.Field)
    (fields : List format.Field) :
    (format.membersOf value fields).lookup (format.name field) =
      if field ∈ fields then format.write field (format.part value field) else none := by
  induction fields with
  | nil => rfl
  | cons other fields ih =>
      rw [membersOf_cons]
      by_cases heq : field = other
      · subst heq
        cases hwrite : format.write field (format.part value field) with
        | none => simp [ih, hwrite]
        | some tree => simp
      · have hname : (format.name field == format.name other) = false :=
          beq_eq_false_iff_ne.mpr fun h => heq (hlawful.name_inj h)
        cases hwrite : format.write other (format.part value other) with
        | none => simp [ih, heq]
        | some tree => simp [List.lookup_cons, hname, ih, heq]

theorem lookup_members (hlawful : format.Lawful) (value : α) (field : format.Field) :
    (format.members value).lookup (format.name field) =
      format.write field (format.part value field) := by
  have h := lookup_membersOf hlawful value field format.fields
  rwa [if_pos (format.mem_fields field)] at h

end Json.RecordFormat

theorem AssetFailure.format_lawful : AssetFailure.format.Lawful where
  field_name field := by cases field <;> rfl
  nodup := by decide
  build_part _ := rfl

theorem Manifest.format_lawful : Manifest.format.Lawful where
  field_name field := by cases field <;> rfl
  nodup := by decide
  build_part _ := rfl

theorem AssetFailure.spells (failure : AssetFailure) :
    Spells AssetFailure.format.reader (AssetFailure.format.toTree failure) failure := by
  refine RecordFormat.spells AssetFailure.format_lawful fun field => ?_
  cases field with
  | assetId => exact spells_text failure.assetId
  | message => exact spells_text failure.message

theorem RunId.spells (id : RunId) : Spells RunId.read (.text id.text) id := by
  refine ⟨trivial, bind_eq_ok.mpr ⟨id.text, text_writtenText id.text, ?_⟩⟩
  rw [RunId.ofText_text]
  rfl

/-- An optional content is left out where there is none. -/
theorem spells_option {α : Type} {read : Reader (Option α)} {write : α → Tree} {value : Option α}
    (h : ∀ content ∈ value, Spells read (write content) (some content)) :
    match value.map write with
    | some tree => Spells read tree value
    | none => (some none : Option (Option α)) = some value := by
  cases value with
  | none => rfl
  | some content => exact h content rfl

theorem spells_list_option {α : Type} {read : Reader α} {write : α → Tree} {values : List α}
    (h : ∀ value ∈ values, Spells read (write value) value) :
    match if values.isEmpty then none else some (Tree.list (values.map write)) with
    | some tree => Spells (readList read) tree values
    | none => some [] = some values := by
  cases values with
  | nil => rfl
  | cons value values => exact spells_list h

theorem spells_some_whole {number : Nat} (h : number < 2 ^ 64) (expected : String) :
    Spells (readOption (readNatural (Nat.pow 2 64) expected)) (.whole number) (some number) :=
  spells_some (spells_whole h h expected) nofun

namespace Manifest

/-- The numbers of a manifest fit into words, or are read as they are written. -/
structure Printable (manifest : Manifest) : Prop where
  byteSize : ∀ size ∈ manifest.byteSize, size < 2 ^ 64
  trackCount : ∀ count ∈ manifest.trackCount, count < 2 ^ 64
  clipCount : ∀ count ∈ manifest.clipCount, count < 2 ^ 64
  duration : ∀ duration ∈ manifest.duration, ReadsBack duration

theorem spells {manifest : Manifest} (h : manifest.Printable) :
    Spells Manifest.format.reader (Manifest.format.toTree manifest) manifest := by
  refine RecordFormat.spells Manifest.format_lawful fun field => ?_
  cases field with
  | success => exact spells_boolean manifest.success
  | outputLocation | filename | fingerprint | errorKind | message | diagnostics =>
      exact spells_option fun text _ => spells_some_text text
  | byteSize =>
      exact spells_option fun size hsize => spells_some_whole (h.byteSize size hsize) "u64"
  | trackCount =>
      exact spells_option fun count hcount => spells_some_whole (h.trackCount count hcount) "usize"
  | clipCount =>
      exact spells_option fun count hcount => spells_some_whole (h.clipCount count hcount) "usize"
  | duration =>
      exact spells_option fun duration hduration =>
        spells_some_number (h.duration duration hduration)
  | runId => exact spells_option fun id _ => spells_some id.spells nofun
  | failures => exact spells_list_option fun failure _ => failure.spells

def errorText : RenderError → String
  | .engine message _ => message
  | error => error.fullMessage

def errorDiagnostics? : RenderError → Option String
  | .engine _ diagnostics => if diagnostics = "" then none else some diagnostics
  | _ => none

def resultNames : List String :=
  ["outputLocation", "filename", "byteSize", "effectiveDuration", "trackCount", "clipCount",
    "compileId", "planFingerprint", "assetFailures"]

def errorNames : List String := ["errorKind", "message", "diagnostics"]

/-- The digits of the fingerprint are its number. -/
structure TellsResult (result : RenderResult) (members : List (String × Tree)) : Prop where
  success : members.lookup "success" = some (.boolean true)
  no_error : ∀ name ∈ errorNames, members.lookup name = none
  fingerprint : ∃ digits : String,
    members.lookup "planFingerprint" = some (.text digits) ∧ digits.length = 16 ∧
      RunId.hexNumber? digits.toList = some result.fingerprint.toNat

/-- Diagnostics are told where an engine has left any. -/
structure TellsError (error : RenderError) (members : List (String × Tree)) : Prop where
  success : members.lookup "success" = some (.boolean false)
  kind : members.lookup "errorKind" = some (.text error.kind)
  message : members.lookup "message" = some (.text (errorText error))
  diagnostics : members.lookup "diagnostics" = (errorDiagnostics? error).map .text
  no_result : ∀ name ∈ resultNames, members.lookup name = none

def Tells (members : List (String × Tree)) : Except RenderError RenderResult → Prop
  | .ok result => TellsResult result members
  | .error error => TellsError error members

theorem tellsResult (result : RenderResult) :
    TellsResult result (Manifest.format.members (ofResult result)) := by
  have hlookup := RecordFormat.lookup_members format_lawful (ofResult result)
  refine ⟨hlookup .success, ?_, Decimal.hex 16 result.fingerprint.toNat, hlookup .fingerprint, ?_,
    ?_⟩
  · simp only [errorNames, List.forall_mem_cons]
    exact ⟨hlookup .errorKind, hlookup .message, hlookup .diagnostics, nofun⟩
  · rw [Decimal.hex, String.length_ofList, length_hexDigits]
  · have hbound : result.fingerprint.toNat < 16 ^ 16 := result.fingerprint.toNat_lt
    rw [Decimal.hex, String.toList_ofList, RunId.hexNumber?_hexDigits, Nat.mod_eq_of_lt hbound]

theorem tellsError (error : RenderError) :
    TellsError error (Manifest.format.members (ofError error)) := by
  have hlookup := RecordFormat.lookup_members format_lawful (ofError error)
  cases error with
  | engine | invalid | cancelled | internal =>
      refine ⟨hlookup .success, hlookup .errorKind, hlookup .message, hlookup .diagnostics, ?_⟩
      simp only [resultNames, List.forall_mem_cons]
      exact ⟨hlookup .outputLocation, hlookup .filename, hlookup .byteSize, hlookup .duration,
        hlookup .trackCount, hlookup .clipCount, hlookup .runId, hlookup .fingerprint,
        hlookup .failures, nofun⟩

/-- The text of the manifest is that of an object with the members, and is read as the
manifest, on one line or over several. -/
structure Written (manifest : Manifest) (members : List (String × Tree)) : Prop where
  object : ofSymbols .ok (manifest.toJson.toList.map some) =
    .ok (.record (memberDocuments members) .closed)
  compact : manifest.toJson = (Tree.record members).compact
  ofJson_compact : ofJson (Tree.record members).compact = .ok manifest
  ofJson_spread : ofJson (Tree.record members).spread = .ok manifest

theorem written {manifest : Manifest} (h : manifest.Printable) :
    Written manifest (Manifest.format.members manifest) := by
  have hspells := spells h
  refine ⟨?_, rfl, ?_, ?_⟩
  · exact ofSymbols_compact _ hspells.faithful
  · exact (ofSymbols_compact _ hspells.faithful).trans hspells.read_document
  · exact (ofSymbols_spread _ hspells.faithful).trans hspells.read_document

theorem printable_ofError (error : RenderError) : (ofError error).Printable := by
  cases error <;> exact ⟨nofun, nofun, nofun, nofun⟩

end Manifest

namespace RenderResult

structure FitsWords (result : RenderResult) : Prop where
  byteSize : result.byteSize < 2 ^ 64
  trackCount : result.trackCount < 2 ^ 64
  clipCount : result.clipCount < 2 ^ 64

/-- What is asked of the text of numbers, for the one number of a result. -/
def NumbersReadBack (result : RenderResult) : Prop :=
  result.duration.isFinite = true → ReadsBack result.duration

theorem printable_ofResult {result : RenderResult} (hwords : result.FitsWords)
    (hduration : ReadsBack result.duration) : (Manifest.ofResult result).Printable where
  byteSize := by
    rintro _ ⟨⟩
    exact hwords.byteSize
  trackCount := by
    rintro _ ⟨⟩
    exact hwords.trackCount
  clipCount := by
    rintro _ ⟨⟩
    exact hwords.clipCount
  duration := by
    rintro _ ⟨⟩
    exact hduration

end RenderResult

namespace Manifest

/-- However a run ended, its manifest is read from its text, and the object in the text
holds what the outcome calls for. -/
theorem written_ofOutcome (outcome : Except RenderError RenderResult)
    (hresult : ∀ result, outcome = .ok result →
      result.duration.isFinite = true ∧ result.FitsWords)
    (hreads : ∀ result, outcome = .ok result → result.NumbersReadBack) :
    ∃ members, Written (ofOutcome outcome) members ∧ Tells members outcome := by
  refine ⟨Manifest.format.members (ofOutcome outcome), ?_, ?_⟩
  · cases outcome with
    | ok result =>
        obtain ⟨hfinite, hwords⟩ := hresult result rfl
        exact written (RenderResult.printable_ofResult hwords (hreads result rfl hfinite))
    | error error => exact written (printable_ofError error)
  · cases outcome with
    | ok result => exact tellsResult result
    | error error => exact tellsError error

def longResult : RenderResult where
  outputPath := "out/\"night\"\n.mp4"
  byteSize := 2 ^ 64 - 1
  duration := 2.5
  trackCount := 1
  clipCount := 2
  runId := RunId.ofDraw 5
  fingerprint := 0xff
  failures := [⟨"é", "\x01\\"⟩]

theorem written_ofOutcome_longResult :
    longResult.duration.isFinite = true ∧ longResult.FitsWords ∧ longResult.NumbersReadBack ∧
      ∃ members, Written (ofOutcome (.ok longResult)) members ∧
        Tells members (.ok longResult) := by
  have hfinite : longResult.duration.isFinite = true := by decide
  have hwords : longResult.FitsWords := ⟨by decide, by decide, by decide⟩
  have hreads : longResult.NumbersReadBack := fun _ => eq_ok_of_toOption (by decide +kernel)
  refine ⟨hfinite, hwords, hreads, written_ofOutcome (.ok longResult) ?_ ?_⟩
  · rintro _ ⟨⟩
    exact ⟨hfinite, hwords⟩
  · rintro _ ⟨⟩
    exact hreads

end Manifest

end Compositor
