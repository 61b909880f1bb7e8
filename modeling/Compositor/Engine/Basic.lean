import Compositor.Error
import Compositor.File.System
import Compositor.Plan.Basic
import Compositor.Progress

/-!
# Engines

An engine is given a plan and a place for the output.  It changes files, sends
samples of its progress, and comes to an end in its own time, or not at all.
-/

namespace Compositor

structure Job where
  plan : Plan
  output : String
  isCancelled : Bool

inductive EngineEnd where
  | finished (millis : Nat) (result : Except RenderError String)
  | crashed
  | endless

structure EngineRun where
  files : FileSystem
  samples : List Progress
  ending : EngineEnd

abbrev Engine := Job → FileSystem → EngineRun

end Compositor
