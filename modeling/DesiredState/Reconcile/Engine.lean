import DesiredState.Applier
import DesiredState.Owner
import DesiredState.Readiness.Rulebook
import DesiredState.ResourceSet

/-!
# What a pass over an owner works with

A pass brings the children of one owner in line with what the owner wants. It works with an
engine, which does not change, and on its progress, which survives an error.
-/

namespace DesiredState

/-! ## Hooks -/

/-- What becomes of a wanted object before it joins the set. -/
structure Mutation where
  replacements : List Manifest
  /-- Nothing joins the set, whatever the replacements are. -/
  skip : Bool

namespace Mutation

def keep (m : Manifest) : Mutation := ⟨[m], false⟩

def replace (l : List Manifest) : Mutation := ⟨l, false⟩

def drop : Mutation := ⟨[], true⟩

/-- The manifests that join the set. -/
def accepted (m : Mutation) : List Manifest := if m.skip then [] else m.replacements

end Mutation

/-- What is particular to a kind of owners. -/
structure Hooks (m : Type → Type) (ω : Type) where
  /-- The objects that an owner wants. -/
  generate : ω → Result (List Manifest)
  mutate : ω → Manifest → ExceptT Error m Mutation
  /-- An object may be applied now. -/
  mayApply : ω → Manifest → ExceptT Error m Bool
  /-- The owner is ready, apart from its children. -/
  ownerReady : ω → ExceptT Error m Bool

namespace Hooks

variable {m : Type → Type} [Monad m] {ω : Type}

/-- Objects are kept and applied at once, and the owner is ready with its children. -/
def ofGenerator (generate : ω → Result (List Manifest)) : Hooks m ω where
  generate := generate
  mutate _ wanted := return .keep wanted
  mayApply _ _ := return true
  ownerReady _ := return true

end Hooks

/-! ## Progress -/

structure Progress (ω : Type) where
  owner : ω
  key : ObjectKey
  identity : OwnerIdentity
  resources : ResourceSet
  /-- The status as it will be written. -/
  status : OwnerStatus
  /-- The attempts to apply objects so far. -/
  attempts : List Attempt

namespace Progress

variable {ω : Type} [Owner ω]

/-- The start of a pass over an owner. -/
def start (owner : ω) : Result (Progress ω) :=
  (Owner.identity owner).map fun identity =>
    { owner, key := Owner.key owner, identity, resources := .empty,
      status := (Owner.status? owner).getD .empty, attempts := [] }

/-- The start of a pass over a live owner. -/
def ofLive (live : Json) : Result (Progress ω) := do
  start (← Result.ofDecode (Owner.decode live))

def withStatus (f : OwnerStatus → OwnerStatus) (p : Progress ω) : Progress ω :=
  { p with status := f p.status }

/-- Note how a phase ended. -/
def notePhase (now : Timestamp) (report : PhaseReport) : Progress ω → Progress ω :=
  withStatus fun s => (s.setPhase now.text (.undated report)).1

/-- Note how far a resource has come. -/
def noteResource (now : Timestamp) (report : ResourceReport) : Progress ω → Progress ω :=
  withStatus fun s => (s.setResource now.text (.undated report)).1

def noteAttempt (attempt : Attempt) (p : Progress ω) : Progress ω :=
  { p with attempts := p.attempts ++ [attempt] }

/-- Say whether the owner is ready. -/
def setReady (ready : Bool) : Progress ω → Progress ω := withStatus ({ · with ready })

end Progress

/-! ## Engines and steps -/

structure Engine (m : Type → Type) (ω : Type) where
  store : Store m
  applier : Applier
  rules : Rulebook
  hooks : Hooks m ω
  now : m Timestamp

/-- A step of a pass. Progress made before an error stays. -/
abbrev Step (m : Type → Type) (ω : Type) (α : Type) : Type :=
  ExceptT Error (StateT (Progress ω) m) α

namespace Step

variable {m : Type → Type} [Monad m] {ω α : Type}

/-- A step that does not touch the progress. -/
def perform (x : m α) : Step m ω α := ExceptT.lift (StateT.lift x)

/-- A step that can fail and does not touch the progress. -/
def attempt (x : ExceptT Error m α) : Step m ω α := ExceptT.mk (StateT.lift x.run)

end Step

end DesiredState
