import DesiredState.Reconcile.Engine

/-!
# Children of an owner

The resources of a pass are taken in order. Each is applied once its hook admits it; the first
that has to wait or fails ends the round. Every resource that was reached has a condition in the
status, except that an error of the hook itself leaves none.
-/

namespace DesiredState

namespace Applied

/-- What the condition of a resource says. -/
def description : Applied → String
  | skippedImmutable => "resource exists; updates not permitted for this kind"
  | conflicted => "resource changed during update; retrying"
  | created | updated _ | unchanged => "resource in desired state"

end Applied

namespace ResourceReport

/-- A resource that is held back. -/
def waiting (key : ObjectKey) (created : Bool) : ResourceReport :=
  ⟨key, "WaitForResource", created, "waiting for resource dependencies"⟩

/-- A resource after an attempt to apply it. A failure leaves the mark of creation as it was. -/
def attempted (key : ObjectKey) (created : Bool) (attempt : Attempt) : ResourceReport :=
  match attempt.result with
  | .ok applied => ⟨key, "PersistResource", true, applied.description⟩
  | .error e => ⟨key, "PersistResource", created, e.message⟩

end ResourceReport

namespace Engine

variable {m : Type → Type} [Monad m] {ω : Type} [Owner ω]

/-- Note how far a resource has come. -/
def note (e : Engine m ω) (report : ResourceReport) : Step m ω Unit := do
  let now ← Step.perform e.now
  modify (·.noteResource now report)

variable [Absorbs m]

/-- Apply a resource and note how that went. -/
def applyChild (e : Engine m ω) (wanted : Manifest) : Step m ω Unit := do
  let p ← get
  let attempt ← Step.perform (e.applier.apply e.store wanted p.identity)
  modify (·.noteAttempt attempt)
  e.note (.attempted wanted.key (p.status.wasCreated wanted.key) attempt)
  match attempt.result with
  | .ok _ => return
  | .error error => throw error

/-- Apply a resource if its hook admits it. -/
def ensureChild (e : Engine m ω) (wanted : Manifest) : Step m ω Bool := do
  let p ← get
  if ← Step.attempt (e.hooks.mayApply p.owner wanted) then
    e.applyChild wanted
    return true
  else
    e.note (.waiting wanted.key (p.status.wasCreated wanted.key))
    return false

/-- Apply resources in order, until one has to wait. -/
def ensureChildren (e : Engine m ω) : List Manifest → Step m ω Bool
  | [] => return true
  | wanted :: rest => do
    if ← e.ensureChild wanted then e.ensureChildren rest else return false

end Engine

end DesiredState
