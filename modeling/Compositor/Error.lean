import Compositor.Timeline.Check

/-!
# Errors of a run

Why a run did not end in a rendered file.
-/

namespace Compositor

inductive RenderError where
  | invalid (problem : Problem)
  | engine (message diagnostics : String)
  | cancelled (message : String)
  /-- Something else went wrong; causes follow the message, the deepest last. -/
  | internal (message : String) (causes : List String)

namespace RenderError

def kind : RenderError → String
  | invalid _ => "validation"
  | engine _ _ => "render_engine"
  | cancelled _ => "cancelled"
  | internal _ _ => "internal"

def message : RenderError → String
  | invalid problem => "validation error: " ++ problem.message
  | engine message _ => "render engine error: " ++ message
  | cancelled message => "cancelled: " ++ message
  | internal message _ => message

def withCauses (message : String) (causes : List String) : String :=
  ": ".intercalate (message :: causes)

def fullMessage : RenderError → String
  | internal message causes => withCauses message causes
  | error => error.message

/-- What is written under an error at the end of a program: a rejected timeline names its
problem. -/
def report : RenderError → String
  | invalid problem => withCauses (invalid problem).message [problem.message]
  | error => error.fullMessage

end RenderError

end Compositor
