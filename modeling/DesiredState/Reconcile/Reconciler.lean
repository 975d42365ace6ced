import DesiredState.Backoff
import DesiredState.Reconcile.Phase

/-!
# Reconciling owners

A pass over an owner reads it, builds the set of its resources, runs the phases and writes the
status if it changed. Retries after failures are delayed by name; a pass that ends well, or finds
no owner, forgets the failures.
-/

namespace DesiredState

/-- What follows a pass that did not fail. -/
inductive Outcome where
  | done
  | requeueAfter (delay : Duration)
  deriving DecidableEq

/-- A pass over an owner. -/
structure Pass where
  result : Result Outcome
  /-- The owner is there. -/
  found : Bool
  attempts : List Attempt
  statusWritten : Bool

namespace Pass

/-- The pass ended before anything was applied. -/
def early (error : Error) : Pass := ⟨.error error, true, [], false⟩

/-- There is no such owner. -/
def absent : Pass := ⟨.ok .done, false, [], false⟩

/-- The result of the phases, unless they went well and the status could not be written. -/
def conclude (ending : Ending) (written : Result Bool) : Result Outcome :=
  match ending with
  | .complete => written.map fun _ => .done
  | .halted _ delay => written.map fun _ => .requeueAfter delay
  | .failed _ _ error => .error error

def ofEnding {ω : Type} (ending : Ending) (p : Progress ω) (written : Result Bool) : Pass :=
  ⟨conclude ending written, true, p.attempts, written matches .ok true⟩

/-- The counters that the pass moves, each as often as it moves. -/
def counters (p : Pass) : List String :=
  p.attempts.flatMap Attempt.counters ++
    (p.attempts.filter (·.result matches .error _)).map (fun _ => "reconcile_persist_err") ++
    if p.statusWritten then ["reconcile_status_writes"] else []

end Pass

/-- An engine with the phases of its passes. -/
structure Reconciler (m : Type → Type) (ω : Type) where
  engine : Engine m ω
  phases : List (Phase m ω)

namespace Reconciler

variable {m : Type → Type} [Monad m] {ω : Type} [Owner ω]

/-- The reconciler with the standard phases. -/
def standard [Absorbs m] (engine : Engine m ω) : Reconciler m ω := ⟨engine, Phase.standard engine⟩

def phaseNames (r : Reconciler m ω) : List String := r.phases.map Phase.name

/-! ## Resources -/

/-- An error of a generator, which keeps its text if it already is one. -/
def generatorError : Error → Error
  | .generator detail => .generator detail
  | error => .generator error.message

/-- Pass manifests through the hook and put them into a set. -/
def gather (r : Reconciler m ω) (owner : ω) :
    List Manifest → ResourceSet → ExceptT Error m ResourceSet
  | [], set => return set
  | wanted :: rest, set => do
    let mutation ← r.engine.hooks.mutate owner wanted
    r.gather owner rest (set.extend mutation.accepted)

/-- The set of the resources of an owner. -/
def resources (r : Reconciler m ω) (owner : ω) : ExceptT Error m ResourceSet :=
  match r.engine.hooks.generate owner with
  | .ok wanted => r.gather owner wanted .empty
  | .error error => throw (generatorError error)

/-! ## Status -/

/-- Write the status onto the owner as it was read, if the status changed. A conflict means that
it is not written. The flag tells whether it was. -/
def writeStatus (r : Reconciler m ω) (key : ObjectKey) (live : Json)
    (before after : OwnerStatus) : m (Result Bool) := do
  if before = after then return .ok false
  else
    let object := live.setMember "status" after.encode
    match ← (r.engine.store.updateStatus key object r.engine.applier.manager).run with
    | .ok _ => return .ok true
    | .error error => if error.isConflict then return .ok false else return .error error

/-! ## Passes -/

/-- The pass over an owner that was read and decoded. -/
def passOver (r : Reconciler m ω) (key : ObjectKey) (live : Json) (start : Progress ω) :
    m Pass := do
  match ← (r.resources start.owner).run with
  | .error error => return .early error
  | .ok resources =>
    let (ending, p) ← Phase.runAll r.engine.now r.phases { start with resources }
    let written ← r.writeStatus key live start.status p.status
    return .ofEnding ending p written

/-- The pass over the owner of a key. -/
def pass (r : Reconciler m ω) (key : ObjectKey) : m Pass := do
  match ← (r.engine.store.get key).run with
  | .error error => return .early error
  | .ok none => return .absent
  | .ok (some live) =>
    match Progress.ofLive (ω := ω) live with
    | .error error => return .early error
    | .ok start => r.passOver key live start

/-- Reconcile the owner of a key. Without an owner, its failures are forgotten. -/
def reconcileKey (r : Reconciler m ω) (key : ObjectKey) : StateT Backoff m Pass := do
  let pass ← r.pass key
  if pass.found then return pass
  else
    modify (·.reset key.text)
    return pass

/-- Reconcile an owner. If that goes well, its failures are forgotten. -/
def reconcile (r : Reconciler m ω) (owner : ω) : StateT Backoff m Pass := do
  let pass ← r.reconcileKey (Owner.key owner)
  match pass.result with
  | .ok _ =>
    modify (·.reset (Owner.key owner).text)
    return pass
  | .error _ => return pass

/-- Count a failure of an owner; the delay is how long to wait before its next pass. -/
def retryDelay (owner : ω) (b : Backoff) : Duration × Backoff := b.next (Owner.key owner).text

end Reconciler

end DesiredState
