import Compositor.Error
import Compositor.File.Path
import Compositor.Json.Record
import Compositor.Session.RunId

/-!
# Manifests

The one answer that a run gives: what was rendered, or why nothing was.
-/

namespace Compositor

open Json

structure AssetFailure where
  assetId : String
  message : String
deriving DecidableEq

structure RenderResult where
  outputPath : String
  byteSize : Nat
  duration : Float
  trackCount : Nat
  clipCount : Nat
  runId : RunId
  fingerprint : UInt64
  failures : List AssetFailure

structure Manifest where
  success : Bool
  outputLocation : Option String
  filename : Option String
  byteSize : Option Nat
  duration : Option Float
  trackCount : Option Nat
  clipCount : Option Nat
  runId : Option RunId
  fingerprint : Option String
  failures : List AssetFailure
  errorKind : Option String
  message : Option String
  diagnostics : Option String
deriving BEq

namespace Manifest

def empty (success : Bool) : Manifest :=
  ⟨success, none, none, none, none, none, none, none, none, [], none, none, none⟩

def ofResult (result : RenderResult) : Manifest :=
  { empty true with
    outputLocation := some result.outputPath
    filename := Path.fileName? result.outputPath
    byteSize := some result.byteSize
    duration := some result.duration
    trackCount := some result.trackCount
    clipCount := some result.clipCount
    runId := some result.runId
    fingerprint := some (Decimal.hex 16 result.fingerprint.toNat)
    failures := result.failures }

/-- The message of an engine error stands for itself; other errors tell their causes. -/
def ofError (error : RenderError) : Manifest :=
  match error with
  | .engine message diagnostics =>
    { empty false with
      errorKind := some error.kind
      message := some message
      diagnostics := if diagnostics = "" then none else some diagnostics }
  | _ =>
    { empty false with
      errorKind := some error.kind
      message := some error.fullMessage }

def ofOutcome : Except RenderError RenderResult → Manifest
  | .ok result => ofResult result
  | .error error => ofError error

end Manifest

inductive AssetFailure.Field where
  | assetId
  | message
deriving DecidableEq

def AssetFailure.format : RecordFormat AssetFailure where
  title := "AssetFailure"
  Field := AssetFailure.Field
  decideField := inferInstance
  fields := [.assetId, .message]
  mem_fields field := by cases field <;> decide
  name
    | .assetId => "assetId"
    | .message => "message"
  otherNames _ := []
  Content _ := String
  read _ := readText
  absent _ := none
  write _ text := some (.text text)
  build content := ⟨content .assetId, content .message⟩
  part failure
    | .assetId => failure.assetId
    | .message => failure.message

inductive Manifest.Field where
  | success
  | outputLocation
  | filename
  | byteSize
  | duration
  | trackCount
  | clipCount
  | runId
  | fingerprint
  | failures
  | errorKind
  | message
  | diagnostics
deriving DecidableEq

def Manifest.Content : Manifest.Field → Type
  | .success => Bool
  | .outputLocation | .filename | .fingerprint | .errorKind | .message | .diagnostics =>
    Option String
  | .byteSize | .trackCount | .clipCount => Option Nat
  | .duration => Option Float
  | .runId => Option RunId
  | .failures => List AssetFailure

def RunId.read : Reader RunId
  | .text quoted => do
    let text ← quoted.text
    match RunId.ofText text with
    | .ok id => return id
    | .error reason => throw (.refused reason)
  | document => document.mismatch "a UUID string"

def Manifest.format : RecordFormat Manifest where
  title := "RenderManifest"
  Field := Manifest.Field
  decideField := inferInstance
  fields :=
    [.success, .outputLocation, .filename, .byteSize, .duration, .trackCount, .clipCount,
      .runId, .fingerprint, .failures, .errorKind, .message, .diagnostics]
  mem_fields field := by cases field <;> decide
  name
    | .success => "success"
    | .outputLocation => "outputLocation"
    | .filename => "filename"
    | .byteSize => "byteSize"
    | .duration => "effectiveDuration"
    | .trackCount => "trackCount"
    | .clipCount => "clipCount"
    | .runId => "compileId"
    | .fingerprint => "planFingerprint"
    | .failures => "assetFailures"
    | .errorKind => "errorKind"
    | .message => "message"
    | .diagnostics => "diagnostics"
  otherNames _ := []
  Content := Manifest.Content
  read
    | .success => readBoolean
    | .outputLocation | .filename | .fingerprint | .errorKind | .message | .diagnostics =>
      readOption readText
    | .byteSize => readOption (readNatural (Nat.pow 2 64) "u64")
    | .trackCount | .clipCount => readOption (readNatural (Nat.pow 2 64) "usize")
    | .duration => readOption readReal
    | .runId => readOption RunId.read
    | .failures => readList AssetFailure.format.reader
  absent
    | .success => none
    | .outputLocation | .filename | .fingerprint | .errorKind | .message | .diagnostics =>
      some (none : Option String)
    | .byteSize | .trackCount | .clipCount => some (none : Option Nat)
    | .duration => some (none : Option Float)
    | .runId => some (none : Option RunId)
    | .failures => some ([] : List AssetFailure)
  write
    | .success => fun success => some (.boolean success)
    | .outputLocation | .filename | .fingerprint | .errorKind | .message | .diagnostics =>
      fun text => Option.map Tree.text text
    | .byteSize | .trackCount | .clipCount => fun number => Option.map Tree.whole number
    | .duration => fun duration => Option.map Tree.number duration
    | .runId => fun id => Option.map (fun id => Tree.text (RunId.text id)) id
    | .failures => fun failures =>
      if List.isEmpty failures then none
      else some (.list (List.map AssetFailure.format.toTree failures))
  build content :=
    ⟨content .success, content .outputLocation, content .filename, content .byteSize,
      content .duration, content .trackCount, content .clipCount, content .runId,
      content .fingerprint, content .failures, content .errorKind, content .message,
      content .diagnostics⟩
  part manifest
    | .success => manifest.success
    | .outputLocation => manifest.outputLocation
    | .filename => manifest.filename
    | .byteSize => manifest.byteSize
    | .duration => manifest.duration
    | .trackCount => manifest.trackCount
    | .clipCount => manifest.clipCount
    | .runId => manifest.runId
    | .fingerprint => manifest.fingerprint
    | .failures => manifest.failures
    | .errorKind => manifest.errorKind
    | .message => manifest.message
    | .diagnostics => manifest.diagnostics

namespace Manifest

def toJson (manifest : Manifest) : String := (Manifest.format.toTree manifest).compact

def ofJson (text : String) : Except Fault Manifest :=
  Json.ofSymbols Manifest.format.reader (text.toList.map some)

end Manifest

def RenderResult.toTree (result : RenderResult) : Tree :=
  .record [("outputPath", .text result.outputPath), ("byteSize", .whole result.byteSize),
    ("effectiveDuration", .number result.duration), ("trackCount", .whole result.trackCount),
    ("clipCount", .whole result.clipCount), ("compileId", .text result.runId.text),
    ("planFingerprint", .whole result.fingerprint.toNat),
    ("assetFailures", .list (result.failures.map AssetFailure.format.toTree))]

end Compositor
