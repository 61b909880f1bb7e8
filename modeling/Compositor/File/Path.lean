import Compositor.Text.Blank

/-!
# Paths

Paths are texts whose parts are separated by slashes.  Empty parts and parts
that are a single point say nothing, except that a leading slash makes the path
absolute.
-/

namespace Compositor.Path

def segments (path : String) : List String :=
  (Text.split (· == '/') path.toList).map String.ofList

def parts (path : String) : List String :=
  (segments path).filter fun segment => segment != "" && segment != "."

def names (path : String) : List String := (segments path).filter (· != "")

def isAbsolute (path : String) : Bool := path.toList.head? == some '/'

def fileName? (path : String) : Option String :=
  match (parts path).getLast? with
  | some name => if name = ".." then none else some name
  | none => none

def extension? (path : String) : Option String := do
  let name ← fileName? path
  let (reversed, stem) ← Text.splitFirst? (· == '.') name.toList.reverse
  if stem.isEmpty then none else some (String.ofList reversed.reverse)

def join (directory path : String) : String :=
  if isAbsolute path || directory = "" then path
  else if directory.toList.getLast? == some '/' then directory ++ path
  else directory ++ "/" ++ path

/-- Drops the parts that say nothing from the end of a path, which is given in reverse. -/
def trimReversed : List Char → List Char
  | ['/'] => ['/']
  | '/' :: chars => trimReversed chars
  | '.' :: '/' :: chars => trimReversed ('/' :: chars)
  | chars => chars

def parent? (path : String) : Option String :=
  match trimReversed path.toList.reverse with
  | [] => none
  | ['/'] => none
  | reversed =>
    some (String.ofList (trimReversed (reversed.dropWhile (· != '/'))).reverse)

end Compositor.Path
