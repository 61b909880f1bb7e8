import Compositor.Session.Run

/-!
# Runs step by step

A run waits for lookups and for its engine, and its token may be cancelled at any
time.  Here the steps of a run are taken one at a time, in every order with the
answers to the lookups and with the cancellation.  The token is looked at before
anything is written, all the time while answers are missing, and once more
before the engine is called.
-/

namespace Compositor

abbrev Stager := FileSystem → Scratch → Nat → String → Asset → AssetContent →
  FileSystem × Except RenderError String

/-- A timeline with all that its run may meet. -/
structure Session where
  options : RunOptions
  draw : RunDraw
  lookup : Lookup
  stage : Stager
  engine : Engine
  timeline : Timeline
  files : FileSystem

inductive Event where
  | cancel
  | answer (index : Nat)
  /-- The run goes on.  If it could both go on and be cancelled, the token may come first. -/
  | proceed (tokenFirst : Bool)
deriving DecidableEq

def Event.isProceed : Event → Bool
  | .proceed _ => true
  | _ => false

structure Pending where
  id : String
  asset : Asset
  answer : Option (Except LookupError AssetContent)

namespace Pending

def ask (item : String × Asset) : Pending := ⟨item.1, item.2, none⟩

def complete (lookup : Lookup) (pending : Pending) : Pending :=
  { pending with answer := some (lookup pending.id pending.asset) }

def isAnswered (pending : Pending) : Bool := pending.answer.isSome

def answered? (pending : Pending) :
    Option (String × Asset × Except LookupError AssetContent) :=
  pending.answer.map (pending.id, pending.asset, ·)

end Pending

def Staging.record (staging : Staging) (id : String) :
    FileSystem × Except RenderError String → Staging
  | (files, .ok path) => { staging with files, paths := staging.paths.insert id path }
  | (files, .error error) => { staging with files }.fail id error.message

def Staging.addBy (stage : Stager) (scratch : Scratch) (staging : Staging)
    (item : (String × Asset × Except LookupError AssetContent) × Nat) : Staging :=
  match item.1.2.2 with
  | .error error => staging.fail item.1.1 error.message
  | .ok content =>
    staging.record item.1.1 (stage staging.files scratch item.2 item.1.1 item.1.2.1 content)

theorem Staging.addBy_stage (scratch : Scratch) :
    Staging.addBy FileSystem.stage scratch = Staging.add scratch := by
  funext staging ⟨⟨id, asset, answer⟩, index⟩
  cases answer with
  | error error => rfl
  | ok content =>
      simp only [addBy, add]
      generalize staging.files.stage scratch index id asset content = staged
      obtain ⟨files, _ | _⟩ := staged <;> rfl

structure Call where
  staging : Staging
  plan : Plan
  output : String

def Call.job (call : Call) (isCancelled : Bool) : Job := ⟨call.plan, call.output, isCancelled⟩

def RunReport.close (report : RunReport) (scratch : Scratch) : RunReport :=
  { report with files := report.files.closeScratch scratch }

/-- What a run has done so far. -/
inductive Phase where
  | unchecked
  | checked
  | cleared
  | lookingUp (files : FileSystem) (scratch : Scratch) (lookups : List Pending)
  | staging (scratch : Scratch) (staging : Staging)
      (rest : List ((String × Asset × Except LookupError AssetContent) × Nat))
  | compiled (scratch : Scratch) (staging : Staging) (plan : Plan)
  | rendering (scratch : Scratch) (call : Call)
  | ended (report : RunReport)

structure World where
  isCancelled : Bool
  calls : List Call
  phase : Phase

namespace World

def start : World := ⟨false, [], .unchecked⟩

def enter (world : World) (phase : Phase) : World := { world with phase }

def IsEnded (world : World) : Prop := ∃ report, world.phase = .ended report

def scratch? (world : World) : Option Scratch :=
  match world.phase with
  | .unchecked | .checked | .cleared | .ended _ => none
  | .lookingUp _ scratch _ | .staging scratch _ _ | .compiled scratch _ _ |
    .rendering scratch _ => some scratch

def close (world : World) (scratch : Scratch) (report : RunReport) : World :=
  world.enter (.ended (report.close scratch))

/-- All answers are awaited, and they are taken in the order of the lookups. -/
def join (world : World) (tokenFirst : Bool) (files : FileSystem) (scratch : Scratch)
    (lookups : List Pending) : World :=
  if world.isCancelled && (tokenFirst || !lookups.all Pending.isAnswered) then
    world.close scratch (.failed files (.cancelled "cancelled while resolving assets"))
  else if lookups.all Pending.isAnswered then
    world.enter
      (.staging scratch ⟨files, .empty, []⟩ (lookups.filterMap Pending.answered?).zipIdx)
  else world

end World

namespace Session

variable (session : Session)

def lookups : List Pending := session.timeline.usedAssets.map Pending.ask

def rendered (call : Call) (isCancelled : Bool) : RunReport :=
  let run := session.engine (call.job isCancelled) call.staging.files
  let (files, size) := finishRender session.options call.output run
  ⟨files, some (call.job isCancelled, call.staging.files), run.samples,
    size.map (·.map
      (renderResult session.draw session.timeline call.output call.plan call.staging.failures))⟩

def answer (world : World) (index : Nat) : World :=
  match world.phase with
  | .lookingUp files scratch lookups =>
    world.enter (.lookingUp files scratch (lookups.modify index (·.complete session.lookup)))
  | _ => world

def check (world : World) : World :=
  match session.timeline.validate with
  | .error problem => world.enter (.ended (.failed session.files (.invalid problem)))
  | .ok () => world.enter .checked

def begin (world : World) : World :=
  if world.isCancelled then
    world.enter (.ended (.failed session.files (.cancelled "cancelled before start")))
  else world.enter .cleared

def prepare (world : World) : World :=
  match session.files.makeScratch session.options.scratchRoot session.draw.scratchName with
  | (files, .error error) => world.enter (.ended (.failed files error))
  | (files, .ok scratch) => world.enter (.lookingUp files scratch session.lookups)

def call (staging : Staging) (plan : Plan) : Call :=
  ⟨staging, plan, outputPath session.options session.draw session.timeline.settings.title⟩

def render (world : World) (scratch : Scratch) (staging : Staging) (plan : Plan) : World :=
  if world.isCancelled then
    world.close scratch (.failed staging.files (.cancelled "cancelled before rendering"))
  else
    { world with
      calls := world.calls ++ [session.call staging plan]
      phase := .rendering scratch (session.call staging plan) }

def proceed (world : World) (tokenFirst : Bool) : World :=
  match world.phase with
  | .unchecked => session.check world
  | .checked => session.begin world
  | .cleared => session.prepare world
  | .lookingUp files scratch lookups => world.join tokenFirst files scratch lookups
  | .staging scratch staging (item :: rest) =>
    world.enter (.staging scratch (staging.addBy session.stage scratch item) rest)
  | .staging scratch staging [] =>
    world.enter (.compiled scratch staging (session.timeline.compile staging.paths))
  | .compiled scratch staging plan => session.render world scratch staging plan
  | .rendering scratch call => world.close scratch (session.rendered call world.isCancelled)
  | .ended _ => world

def step (world : World) : Event → World
  | .cancel => { world with isCancelled := true }
  | .answer index => session.answer world index
  | .proceed tokenFirst => session.proceed world tokenFirst

def execute (events : List Event) : World := events.foldl session.step .start

end Session

end Compositor
