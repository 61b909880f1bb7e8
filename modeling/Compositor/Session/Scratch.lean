import Compositor.Asset.Lookup
import Compositor.Error
import Compositor.Session.RunId
import Compositor.Text.Shown

/-!
# Scratch directories

Each run has a directory of its own, in which fetched assets are staged and
which is removed in the end.
-/

namespace Compositor

def isPortable (char : Char) : Bool :=
  decide ('a' ≤ char ∧ char ≤ 'z') || decide ('A' ≤ char ∧ char ≤ 'Z') ||
    Decimal.isDigit char || char == '-' || char == '_'

def isAsciiAlphanumeric (char : Char) : Bool :=
  isPortable char && char != '-' && char != '_'

def portableChar (char : Char) : Char := if isPortable char then char else '_'

/-- A text as a part of a file name: letters, digits, hyphens and underscores stay. -/
def fileStem (text : String) : String :=
  let stem := String.ofList ((Text.trim text.toList).map portableChar)
  if stem = "" then "untitled" else stem

def stagedExtension (asset : Asset) : String :=
  match asset.name.bind Path.extension? with
  | some extension =>
    if extension != "" && extension.toList.all isAsciiAlphanumeric then extension
    else asset.kind.extension
  | none => asset.kind.extension

/-- The name of a staged file; its number keeps it apart from the others. -/
def stagedName (index : Nat) (id : String) (asset : Asset) : String :=
  Decimal.paddedWhole 3 index ++ "_" ++ fileStem id ++ "." ++ stagedExtension asset

structure Scratch where
  path : String
  location : Location

structure ScratchName where
  id : RunId
  suffix : String

def ScratchName.text (name : ScratchName) : String :=
  "montage-" ++ name.id.text ++ "-" ++ name.suffix

def scratchError (root path : String) (error : FileError) : RenderError :=
  .internal ("failed to create scratch dir in " ++ quoted root)
    [error.message ++ " at path " ++ Text.shown path]

namespace FileSystem

/-- The path of a scratch directory, which stays the same when the working directory changes. -/
def scratchPath (files : FileSystem) (root : String) (name : ScratchName) : String :=
  Path.join (Path.join files.working.path root) name.text

def makeScratch (files : FileSystem) (root : String) (name : ScratchName) :
    FileSystem × Except RenderError Scratch :=
  match files.ensurePath root with
  | (files, .error error) =>
    (files, .error
      (.internal ("failed to create scratch root " ++ quoted root) [error.message]))
  | (files, .ok ()) =>
    let path := files.scratchPath root name
    match files.makeDirectory path, files.locate path with
    | .ok files, .ok location => (files, .ok ⟨path, location⟩)
    | .error error, _ | _, .error error => (files, .error (scratchError root path error))

def closeScratch (files : FileSystem) (scratch : Scratch) : FileSystem :=
  files.eraseTree scratch.location

/-- Makes an asset readable by a path: what is a file stays where it is. -/
def stage (files : FileSystem) (scratch : Scratch) (index : Nat) (id : String)
    (asset : Asset) : AssetContent → FileSystem × Except RenderError String
  | .path path => (files, .ok path)
  | .bytes content =>
    let path := Path.join scratch.path (stagedName index id asset)
    match files.write path content with
    | .ok files => (files, .ok path)
    | .error error =>
      (files, .error
        (.internal ("failed to stage asset " ++ quoted id ++ " to " ++ quoted path)
          [error.message]))

end FileSystem

end Compositor
