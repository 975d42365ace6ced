import DesiredState.Object.OwnerReference
import DesiredState.Plan
import DesiredState.Store.Basic

/-!
# Applying wanted objects

A wanted object is applied by one look at the live one and at most one write. An attempt keeps
apart which call failed.
-/

namespace DesiredState

/-- How an object came to be as it is. -/
inductive Applied where
  | created
  | updated (difference : Difference)
  | unchanged
  /-- The object is there and of an immutable kind. -/
  | skippedImmutable
  /-- The object changed since it was looked at, so nothing was written. -/
  | conflicted
  deriving DecidableEq

namespace Applied

def text : Applied → String
  | created => "created"
  | updated _ => "updated"
  | unchanged => "unchanged"
  | skippedImmutable => "skipped_immutable"
  | conflicted => "conflicted"

end Applied

/-- One attempt to apply an object. -/
inductive Attempt where
  | succeeded (applied : Applied)
  | notRead (error : Error)
  | notCreated (error : Error)
  | notPatched (error : Error)
  deriving DecidableEq

namespace Attempt

def result : Attempt → Result Applied
  | succeeded applied => .ok applied
  | notRead e | notCreated e | notPatched e => .error e

/-- The counters that the attempt moves. -/
def counters : Attempt → List String
  | succeeded applied => ["persist_" ++ applied.text]
  | notPatched _ => ["persist_err"]
  | notRead _ | notCreated _ => []

/-- The attempt that a plan to create ended in. -/
def ofCreate : Result Json → Attempt
  | .ok _ => .succeeded .created
  | .error e => .notCreated e

/-- The attempt that a plan to patch ended in; a conflict is no failure. -/
def ofPatch (difference : Difference) : Result Json → Attempt
  | .ok _ => .succeeded (.updated difference)
  | .error e => if e.isConflict then .succeeded .conflicted else .notPatched e

end Attempt

/-- In whose name objects are applied, and which kinds are never updated. -/
structure Applier where
  manager : String
  immutable : List String

namespace Applier

/-- The manager of every write unless another is chosen. -/
def defaultManager : String := "converge"

def standard : Applier := ⟨defaultManager, ["CustomResourceDefinition"]⟩

variable {m : Type → Type} [Monad m]

/-- Carry a plan out. -/
def carryOut (a : Applier) (store : Store m) (key : ObjectKey) : Plan → m Attempt
  | .create body => do
    let created ← (store.create key body a.manager).run
    return .ofCreate created
  | .leave => return .succeeded .skippedImmutable
  | .keep => return .succeeded .unchanged
  | .patch document difference => do
    let patched ← (store.patch key document a.manager).run
    return .ofPatch difference patched

/-- Apply a wanted object in the name of its owner. -/
def apply [Absorbs m] (a : Applier) (store : Store m) (wanted : Manifest) (owner : OwnerIdentity) :
    m Attempt := do
  match ← (store.get wanted.key).run with
  | .error e => return .notRead e
  | .ok live =>
    let plan ← absorb (Plan.draw a.immutable (wanted.ownedBy owner) live)
    a.carryOut store wanted.key plan

end Applier

end DesiredState
