import DesiredState.Reconcile.Children
import DesiredState.Time.Duration

/-!
# Phases of a pass

A pass goes through its phases in order. A phase proceeds, halts or fails; the first that does not
proceed ends the pass, and the owner is then not ready. How each phase ended is noted in the
status.
-/

namespace DesiredState

structure Phase (m : Type → Type) (ω : Type) where
  name : String
  /-- When to come back if the phase halts. -/
  delay : Duration
  /-- The pass may go on to the next phase. -/
  run : Step m ω Bool

/-- How a sequence of phases ended. -/
inductive Ending where
  | complete
  | halted (phase : String) (delay : Duration)
  | failed (phase : String) (delay : Duration) (error : Error)

namespace Phase

variable {m : Type → Type} [Monad m] {ω : Type} [Owner ω]

/-- When to come back unless a phase says otherwise. -/
def defaultDelay : Duration := .ofSeconds 10

/-! ## The standard phases -/

/-- An owner that is being deleted goes no further. -/
def preFlight : Phase m ω where
  name := "PreFlight"
  delay := defaultDelay
  run := do
    let p ← get
    if Owner.isDeleted p.owner then return false
    else
      modify (·.withStatus ({ · with dependenciesSatisfied := true }))
      return true

/-- Apply the resources. -/
def createResources [Absorbs m] (e : Engine m ω) : Phase m ω where
  name := "CreateResources"
  delay := defaultDelay
  run := do
    let p ← get
    e.ensureChildren p.resources.manifests

/-- Wait until the resources are ready, and then the owner. -/
def checkReady [Absorbs m] (e : Engine m ω) : Phase m ω where
  name := "CheckReady"
  delay := .ofSeconds 5
  run := do
    let p ← get
    if ← Step.attempt (e.rules.areReady e.store p.resources.keys) then
      Step.attempt (e.hooks.ownerReady p.owner)
    else return false

/-- Say that the owner is ready. -/
def complete : Phase m ω where
  name := "Complete"
  delay := defaultDelay
  run := do
    modify (·.setReady true)
    return true

def standard [Absorbs m] (e : Engine m ω) : List (Phase m ω) :=
  [preFlight, createResources e, checkReady e, complete]

/-! ## Sequences -/

/-- What the condition of a phase says of its result. -/
def report (name : String) : Result Bool → PhaseReport
  | .ok true => .complete name
  | .ok false => .pending name
  | .error error => .failed name error

/-- Run phases in order until one does not proceed. -/
def runAll (now : m Timestamp) : List (Phase m ω) → Progress ω → m (Ending × Progress ω)
  | [], p => return (.complete, p)
  | phase :: rest, p => do
    let (result, p) ← (phase.run.run).run p
    let p := p.notePhase (← now) (report phase.name result)
    match result with
    | .ok true => runAll now rest p
    | .ok false => return (.halted phase.name phase.delay, p.setReady false)
    | .error error => return (.failed phase.name phase.delay error, p.setReady false)

end Phase

end DesiredState
