import Compositor.Asset.Location
import Compositor.File.System
import Compositor.Timeline.Check

/-!
# Looking assets up

An asset is found as a file that can be read in place, or as bytes that have to
be put somewhere first.  It is looked up below a directory or in a table.
-/

namespace Compositor

inductive AssetContent where
  | path (path : String)
  | bytes (content : List UInt8)
deriving DecidableEq

inductive LookupError where
  | notFound (id location : String)
  | invalidLocation (id location reason : String)
  | unreadable (id cause : String)
deriving DecidableEq

def LookupError.message : LookupError → String
  | .notFound id location =>
    "asset " ++ quoted id ++ " not found at " ++ quoted location
  | .invalidLocation id location reason =>
    "asset " ++ quoted id ++ " has unusable location " ++ quoted location ++ ": " ++ reason
  | .unreadable id cause => "asset " ++ quoted id ++ " could not be read: " ++ cause

abbrev Lookup := String → Asset → Except LookupError AssetContent

def candidatePath (root id : String) (asset : Asset) : Except LookupError String :=
  match AssetLocation.normalize asset.location with
  | .ok relative => .ok (Path.join root relative)
  | .error fault => .error (.invalidLocation id asset.location fault.reason)

/-- Assets are regular files below the root. -/
def lookupBelow (files : FileSystem) (root : String) : Lookup := fun id asset => do
  let path ← candidatePath root id asset
  match files.stat path with
  | .ok (.file _) => return .path path
  | .ok .directory => throw (.notFound id path)
  | .error .notFound => throw (.notFound id path)
  | .error error => throw (.unreadable id error.message)

def lookupTable (table : Table AssetContent) : Lookup := fun id asset =>
  match table.get? id with
  | some content => .ok content
  | none => .error (.notFound id asset.location)

namespace Timeline

/-- The assets that are used and declared, in order of their first use. -/
def usedAssets (timeline : Timeline) : List (String × Asset) :=
  timeline.referencedIds.filterMap fun id => (timeline.assets.get? id).map (id, ·)

def lookupAll (timeline : Timeline) (lookup : Lookup) :
    List (String × Asset × Except LookupError AssetContent) :=
  timeline.usedAssets.map fun (id, asset) => (id, asset, lookup id asset)

end Timeline

end Compositor
