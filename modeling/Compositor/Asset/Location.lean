import Compositor.Text.Blank

/-!
# Locations of assets

A location names a file below some root.  Both kinds of slashes separate its
parts, a leading slash means nothing, and nothing may lead out of the root.
-/

namespace Compositor.AssetLocation

inductive Fault where
  | remote
  | upward
  | empty
deriving DecidableEq, Repr

def Fault.reason : Fault → String
  | .remote => "remote locations are not readable locally"
  | .upward => "paths must not contain '..'"
  | .empty => "path must contain a file name"

def remoteMark : List Char := [':', '/', '/']

def isRemote (location : String) : Bool := Text.occurs remoteMark location.toList

def forwardSlash (char : Char) : Char := if char = '\\' then '/' else char

def segments (location : String) : List (List Char) :=
  Text.split (· == '/') (location.toList.map forwardSlash)

/-- Empty parts and single points say nothing. -/
def isNamed (segment : List Char) : Bool := segment != [] && segment != ['.']

def normalize (location : String) : Except Fault String :=
  let named := (segments location).filter isNamed
  if isRemote location then .error .remote
  else if named.contains ['.', '.'] then .error .upward
  else if named.isEmpty then .error .empty
  else .ok (String.ofList (Text.join ['/'] named))

end Compositor.AssetLocation
