import Compositor.File.System
import Compositor.Timeline.Check
import Compositor.Timeline.Payload

/-!
# Loading timelines

A payload that cannot be read is a problem of the timeline.
-/

namespace Compositor

def Problem.unreadable (reason : String) : Problem :=
  .malformed ("parse timeline JSON: " ++ reason)

def Problem.ofFault (fault : Json.Fault) : Problem := .unreadable fault.message

def Problem.unopened (path : String) (error : FileError) : Problem :=
  .malformed ("open timeline JSON " ++ quoted path ++ ": " ++ error.message)

namespace Timeline

def loadText (text : String) : Except Problem Timeline :=
  (Timeline.ofJson text).mapError .ofFault

def loadBytes (bytes : List UInt8) : Except Problem Timeline :=
  (Timeline.ofBytes bytes).mapError .ofFault

/-- A directory can be opened, but not read. -/
def loadFile (files : FileSystem) (path : String) : Except Problem Timeline :=
  match files.read path with
  | .ok bytes => loadBytes bytes
  | .error .isADirectory => .error (.unreadable FileError.isADirectory.message)
  | .error error => .error (.unopened path error)

end Timeline

end Compositor
