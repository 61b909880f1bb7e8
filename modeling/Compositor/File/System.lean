import Compositor.File.Path
import Compositor.Text.Utf8

/-!
# A file system

Directories and files, known by the names on the way from the root, and the
operations on them that a run needs.  A path is followed name by name: what it
passes through has to be a directory.
-/

namespace Compositor

/-- A place in the tree of directories: the names on the way from its root. -/
abbrev Location := List String

def Location.path (location : Location) : String :=
  String.join (location.map fun name => "/" ++ name)

/-- The place that a name leads to; two points lead upward. -/
def Location.enter (location : Location) (name : String) : Location :=
  if name = "." then location
  else if name = ".." then location.dropLast
  else location ++ [name]

inductive FileEntry where
  | directory
  | file (content : List UInt8)
deriving DecidableEq

def FileEntry.size : FileEntry → Nat
  | .directory => 4096
  | .file content => content.length

structure FileSystem where
  entries : List (Location × FileEntry)
  working : Location

inductive FileError where
  | notFound
  | permissionDenied
  | alreadyExists
  | notADirectory
  | isADirectory
  | nameTooLong
  | zeroByte
deriving DecidableEq, Repr

def FileError.message : FileError → String
  | .notFound => "No such file or directory (os error 2)"
  | .permissionDenied => "Permission denied (os error 13)"
  | .alreadyExists => "File exists (os error 17)"
  | .notADirectory => "Not a directory (os error 20)"
  | .isADirectory => "Is a directory (os error 21)"
  | .nameTooLong => "File name too long (os error 36)"
  | .zeroByte => "file name contained an unexpected NUL byte"

namespace FileSystem

def entry? (files : FileSystem) (location : Location) : Option FileEntry :=
  if location.isEmpty then some .directory else files.entries.lookup location

def put (files : FileSystem) (location : Location) (entry : FileEntry) : FileSystem :=
  { files with
    entries := (location, entry) :: files.entries.filter fun other => other.1 != location }

def erase (files : FileSystem) (location : Location) : FileSystem :=
  { files with entries := files.entries.filter fun other => other.1 != location }

def eraseTree (files : FileSystem) (location : Location) : FileSystem :=
  { files with entries := files.entries.filter fun other => !location.isPrefixOf other.1 }

def nameLimit : Nat := 255

def pathLimit : Nat := 4096

def walk (files : FileSystem) (location : Location) : List String → Except FileError Location
  | [] => .ok location
  | name :: names =>
    match files.entry? location with
    | none => .error .notFound
    | some (.file _) => .error .notADirectory
    | some .directory =>
      if nameLimit < name.utf8ByteSize then .error .nameTooLong
      else files.walk (location.enter name) names

def route (files : FileSystem) (path : String) : Location × List String :=
  (if Path.isAbsolute path then [] else files.working, Path.names path)

/-- The place that a path leads to; nothing needs to be there. -/
def locate (files : FileSystem) (path : String) : Except FileError Location :=
  if path.toList.contains '\x00' then .error .zeroByte
  else if path = "" then .error .notFound
  else if pathLimit ≤ path.utf8ByteSize then .error .nameTooLong
  else files.walk (files.route path).1 (files.route path).2

/-- A path that ends in a slash has to lead to a directory. -/
def endsInSlash (path : String) : Bool := path.toList.getLast? == some '/'

def stat (files : FileSystem) (path : String) : Except FileError FileEntry := do
  let location ← files.locate path
  match files.entry? location with
  | none => throw .notFound
  | some .directory => return .directory
  | some (.file content) =>
    if endsInSlash path then throw .notADirectory
    return .file content

def exists? (files : FileSystem) (path : String) : Bool := (files.stat path).toOption.isSome

def isDirectory (files : FileSystem) (path : String) : Bool :=
  match files.stat path with
  | .ok .directory => true
  | _ => false

def read (files : FileSystem) (path : String) : Except FileError (List UInt8) := do
  match ← files.stat path with
  | .directory => throw .isADirectory
  | .file content => return content

def write (files : FileSystem) (path : String) (content : List UInt8) :
    Except FileError FileSystem := do
  let location ← files.locate path
  if endsInSlash path then throw .isADirectory
  match files.entry? location with
  | some .directory => throw .isADirectory
  | _ => return files.put location (.file content)

def removeFile (files : FileSystem) (path : String) : Except FileError FileSystem := do
  let location ← files.locate path
  match ← files.stat path with
  | .directory => throw .isADirectory
  | .file _ => return files.erase location

def makeDirectory (files : FileSystem) (path : String) : Except FileError FileSystem := do
  let location ← files.locate path
  match files.entry? location with
  | some _ => throw .alreadyExists
  | none => return files.put location .directory

def ensureDirectory (files : FileSystem) (path : String) : Except FileError FileSystem :=
  match files.makeDirectory path with
  | .error .alreadyExists =>
    if files.isDirectory path then .ok files else .error .alreadyExists
  | result => result

/-- The directories that a path names, the path itself first. -/
def ancestors (path : String) : List String :=
  go path.length path
where
  go : Nat → String → List String
    | 0, _ => []
    | fuel + 1, path =>
      match Path.parent? path with
      | none => []
      | some parent => path :: go fuel parent

/-- Makes the first directory of the list after the missing ones of the rest. -/
def ensureAll (files : FileSystem) : List String → FileSystem × Except FileError Unit
  | [] => (files, .ok ())
  | path :: above =>
    match files.ensureDirectory path with
    | .ok files => (files, .ok ())
    | .error .notFound =>
      match files.ensureAll above with
      | (files, .error error) => (files, .error error)
      | (files, .ok ()) =>
        match files.ensureDirectory path with
        | .ok files => (files, .ok ())
        | .error error => (files, .error error)
    | .error error => (files, .error error)

/-- Makes a directory with all that are missing on the way; those made before an error stay. -/
def ensurePath (files : FileSystem) (path : String) : FileSystem × Except FileError Unit :=
  files.ensureAll (ancestors path)

end FileSystem

end Compositor
