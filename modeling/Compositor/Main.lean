import Compositor.CommandLine
import Mathlib.Tactic.DeprecateTo

/-!
# The program

Looks at the places on the disk that a command asks about, carries the command
out on what was found there, and puts out what came of it.  No program is
started from here: a render ends as it does on a machine without an engine.
-/

namespace Compositor

/-- What lies at a place; of a file nothing but its presence is told. -/
def probe (location : Location) : IO (Option FileEntry) := do
  match ← (IO.FS.Handle.mk (location.path ++ "/.") .read).toBaseIO with
  | .ok _ => return some .directory
  | .error _ =>
    match ← (IO.FS.Handle.mk location.path .read).toBaseIO with
    | .ok _ => return some (.file [])
    | .error _ => return none

/-- Adds what lies on the way of some names, one after the other.  A missing name is passed by,
since a directory may be made there before the way is followed. -/
def lookAlong (files : FileSystem) (location : Location) : List String → IO FileSystem
  | [] => return files
  | name :: names => do
    let location := location.enter name
    match ← probe location with
    | some entry => lookAlong (files.put location entry) location names
    | none => lookAlong files location names

def lookAt (files : FileSystem) (path : String) : IO FileSystem :=
  lookAlong files (files.route path).1 (files.route path).2

def load (files : FileSystem) (path : String) : IO FileSystem := do
  let files ← lookAt files path
  match files.locate path, ← (IO.FS.readBinFile path).toBaseIO with
  | .ok location, .ok content => return files.put location (.file content.toList)
  | _, _ => return files

def Invocation.targets (temporary : String) : Invocation → List String
  | .render command => [command.outputDirectory, command.scratchRoot.getD temporary]
  | _ => []

def loadFor (files : FileSystem) (temporary : String) (invocation : Invocation) :
    IO FileSystem := do
  let files ← (invocation.targets temporary).foldlM lookAt files
  match invocation.source? with
  | none => return files
  | some (input, root) =>
    let files ← load files input
    match Timeline.loadFile files input with
    | .ok timeline => (timeline.candidatePaths root).foldlM lookAt files
    | .error _ => return files

def makeAdded (before after : FileSystem) : IO Unit :=
  after.entries.reverse.forM fun (location, entry) => do
    if before.entry? location != some entry then
      match entry with
      | .directory => IO.FS.createDirAll location.path
      | .file content => IO.FS.writeBinFile location.path ⟨content.toArray⟩

def bytesNumber (bytes : ByteArray) : Nat :=
  bytes.toList.foldl (fun number byte => 256 * number + byte.toNat) 0

def unixMillis : IO Nat := do
  let time ← Std.Time.Timestamp.now
  return time.toMillisecondsSinceUnixEpoch.val.toNat

def drawRun : IO RunDraw := do
  let id ← IO.getRandomBytes 16
  let suffix ← IO.getRandomBytes 3
  return ⟨.ofDraw (bytesNumber id), Decimal.hex 6 (bytesNumber suffix), ← unixMillis⟩

def carryOut (arguments : List String) : IO Response := do
  let working : Location := Path.parts (← IO.currentDir).toString
  let temporary := (← IO.getEnv "TMPDIR").getD "/tmp"
  let files ← [working.path, temporary].foldlM lookAt ⟨[], working⟩
  let files ← match Invocation.ofArguments? arguments with
    | some invocation => loadFor files temporary invocation
    | none => pure files
  let programs : Programs := ⟨fun _ => none, fun _ => none⟩
  let response := commandLine ⟨files, programs, temporary, ← drawRun⟩ arguments
  makeAdded files response.files
  return response

end Compositor

def main (arguments : List String) : IO UInt32 := do
  let response ← Compositor.carryOut arguments
  IO.print response.stdout
  IO.eprint response.stderr
  return UInt32.ofNat response.exitCode
