import DesiredState.Reconcile.Reconciler
import Mathlib.Tactic.Common

/-!
# Passes among other effects

A translation takes effects of one kind to effects of another, and goes along with doing nothing,
with doing one thing after the other and with steps that no check guards. Then it goes along with
all of a pass: the pass of an engine, translated, is the pass of the engine whose calls, hooks and
clock are translated (`withState_reconcileKey`). So what a pass does depends on nothing but what
these do.
-/

namespace DesiredState

/-- Effects of one kind as effects of another. -/
structure Translation (m n : Type → Type) [Monad m] [Monad n] [Absorbs m] [Absorbs n] where
  map : {α : Type} → m α → n α
  map_pure : ∀ {α : Type} (a : α), map (pure a) = pure a
  map_bind : ∀ {α β : Type} (x : m α) (f : α → m β),
    map (x >>= f) = map x >>= fun a => map (f a)
  map_absorb : ∀ {α : Type} (x : Tracked α), map (absorb x) = absorb x

namespace Translation

variable {m n : Type → Type} [Monad m] [Monad n] [Absorbs m] [Absorbs n] {ω α β : Type}
  (h : Translation m n)

/-- One thing after the other is translated one after the other. -/
theorem map_then {x : m α} {y : n α} {f : α → m β} {g : α → n β} (first : h.map x = y)
    (rest : ∀ a, h.map (f a) = g a) : h.map (x >>= f) = y >>= g := by
  rw [h.map_bind, first]
  exact congrArg (y >>= ·) (funext rest)

/-- The same translation of programs that can fail. -/
def except (x : ExceptT Error m α) : ExceptT Error n α := ExceptT.mk (h.map x.run)

/-- The same translation of programs that have a state of their own. -/
def withState (τ : Type) : Translation (StateT τ m) (StateT τ n) where
  map x := fun t => h.map (x.run t)
  map_pure a := funext fun t => h.map_pure (a, t)
  map_bind x f := funext fun t => h.map_bind (x.run t) fun r => (f r.1).run r.2
  map_absorb x := funext fun t => h.map_then (h.map_absorb x) fun a => h.map_pure (a, t)

/-- The same translation of steps of a pass. -/
def step (x : Step m ω α) : Step n ω α := (h.withState (Progress ω)).except x

def hooks (k : Hooks m ω) : Hooks n ω where
  generate := k.generate
  mutate owner wanted := h.except (k.mutate owner wanted)
  mayApply owner wanted := h.except (k.mayApply owner wanted)
  ownerReady owner := h.except (k.ownerReady owner)

def engine (e : Engine m ω) : Engine n ω where
  store := e.store.lift h.map
  applier := e.applier
  rules := e.rules
  hooks := h.hooks e.hooks
  now := h.map e.now

/-! ## Programs that can fail -/

theorem except_pure (a : α) : h.except (pure a) = pure a := h.map_pure (α := Result α) (.ok a)

theorem except_throw (e : Error) : h.except (throw e : ExceptT Error m α) = throw e :=
  h.map_pure (α := Result α) (.error e)

theorem except_then {x : ExceptT Error m α} {y : ExceptT Error n α}
    {f : α → ExceptT Error m β} {g : α → ExceptT Error n β} (first : h.except x = y)
    (rest : ∀ a, h.except (f a) = g a) : h.except (x >>= f) = y >>= g := by
  refine h.map_then first fun r => ?_
  cases r with
  | ok a => exact rest a
  | error e => exact h.map_pure (α := Result β) (.error e)

/-! ## Programs with a state -/

section States

variable {τ : Type}

theorem withState_functor (f : α → β) (x : StateT τ m α) :
    (h.withState τ).map (f <$> x) = f <$> (h.withState τ).map x :=
  funext fun _ => h.map_then rfl fun r => h.map_pure (f r.1, r.2)

theorem withState_lift (x : m α) :
    (h.withState τ).map (StateT.lift x) = StateT.lift (h.map x) :=
  funext fun t => h.map_then rfl fun a => h.map_pure (a, t)

end States

/-! ## Applications and readiness -/

theorem map_carryOut (a : Applier) (store : Store m) (key : ObjectKey) (plan : Plan) :
    h.map (a.carryOut store key plan) = a.carryOut (store.lift h.map) key plan := by
  cases plan with
  | create body => exact h.map_then rfl fun created => h.map_pure _
  | leave => exact h.map_pure _
  | keep => exact h.map_pure _
  | patch document difference => exact h.map_then rfl fun patched => h.map_pure _

theorem map_apply (a : Applier) (store : Store m) (wanted : Manifest) (owner : OwnerIdentity) :
    h.map (a.apply store wanted owner) = a.apply (store.lift h.map) wanted owner := by
  refine h.map_then rfl fun look => ?_
  cases look with
  | error e => exact h.map_pure _
  | ok live => exact h.map_then (h.map_absorb _) fun plan => h.map_carryOut a store wanted.key plan

theorem except_isReady (b : Rulebook) (store : Store m) (key : ObjectKey) :
    h.except (b.isReady store key) = b.isReady (store.lift h.map) key := by
  unfold Rulebook.isReady
  split
  · exact h.except_pure true
  · exact h.except_then rfl fun live => h.map_absorb _

theorem except_areReady (b : Rulebook) (store : Store m) (keys : List ObjectKey) :
    h.except (b.areReady store keys) = b.areReady (store.lift h.map) keys := by
  induction keys with
  | nil => exact h.except_pure true
  | cons key rest ih =>
    refine h.except_then (h.except_isReady b store key) fun ready => ?_
    cases ready with
    | true => exact ih
    | false => exact h.except_pure false

theorem except_namespaceReady (b : Rulebook) (store : Store m) (key : ObjectKey) :
    h.except (b.namespaceReady store key) = b.namespaceReady (store.lift h.map) key := by
  unfold Rulebook.namespaceReady
  split
  · exact h.except_isReady b store _
  · exact h.except_pure true

/-! ## Steps -/

theorem step_pure (a : α) : h.step (pure a : Step m ω α) = pure a :=
  (h.withState (Progress ω)).except_pure a

theorem step_throw (e : Error) : h.step (throw e : Step m ω α) = throw e :=
  (h.withState (Progress ω)).except_throw e

theorem step_then {x : Step m ω α} {y : Step n ω α} {f : α → Step m ω β} {g : α → Step n ω β}
    (first : h.step x = y) (rest : ∀ a, h.step (f a) = g a) : h.step (x >>= f) = y >>= g :=
  (h.withState (Progress ω)).except_then first rest

theorem step_lift (x : StateT (Progress ω) m α) :
    h.step (ExceptT.lift x : Step m ω α) = ExceptT.lift ((h.withState (Progress ω)).map x) :=
  h.withState_functor Except.ok x

theorem step_get : h.step (get : Step m ω (Progress ω)) = get :=
  (h.step_lift get).trans (congrArg ExceptT.lift (funext fun p => h.map_pure (p, p)))

theorem step_modify (f : Progress ω → Progress ω) :
    h.step (modify f : Step m ω PUnit) = modify f :=
  (h.step_lift (modify f)).trans
    (congrArg ExceptT.lift (funext fun p => h.map_pure (α := PUnit × Progress ω) (⟨⟩, f p)))

theorem step_perform (x : m α) :
    h.step (Step.perform x : Step m ω α) = Step.perform (h.map x) :=
  (h.step_lift (StateT.lift x)).trans (congrArg ExceptT.lift (h.withState_lift x))

theorem step_attempt (x : ExceptT Error m α) :
    h.step (Step.attempt x : Step m ω α) = Step.attempt (h.except x) :=
  h.withState_lift x.run

/-! ## Children -/

section Children

variable (e : Engine m ω)

theorem step_note (report : ResourceReport) :
    h.step (e.note report) = (h.engine e).note report :=
  h.step_then (h.step_perform e.now) fun _ => h.step_modify _

theorem step_applyChild (wanted : Manifest) :
    h.step (e.applyChild wanted) = (h.engine e).applyChild wanted := by
  refine h.step_then h.step_get fun p => ?_
  refine h.step_then ((h.step_perform _).trans (congrArg Step.perform (h.map_apply _ _ _ _)))
    fun attempt => ?_
  refine h.step_then (h.step_modify _) fun _ => h.step_then (h.step_note e _) fun _ => ?_
  cases attempt.result with
  | ok applied => exact h.step_pure _
  | error error => exact h.step_throw error

theorem step_ensureChild (wanted : Manifest) :
    h.step (e.ensureChild wanted) = (h.engine e).ensureChild wanted := by
  refine h.step_then h.step_get fun p => h.step_then (h.step_attempt _) fun admitted => ?_
  cases admitted with
  | true => exact h.step_then (h.step_applyChild e wanted) fun _ => h.step_pure true
  | false => exact h.step_then (h.step_note e _) fun _ => h.step_pure false

theorem step_ensureChildren (l : List Manifest) :
    h.step (e.ensureChildren l) = (h.engine e).ensureChildren l := by
  induction l with
  | nil => exact h.step_pure true
  | cons wanted rest ih =>
    refine h.step_then (h.step_ensureChild e wanted) fun admitted => ?_
    cases admitted with
    | true => exact ih
    | false => exact h.step_pure false

end Children

/-! ## Phases -/

/-- The phase with its step translated. -/
def phase (p : Phase m ω) : Phase n ω := { p with run := h.step p.run }

theorem phase_standard [Owner ω] (e : Engine m ω) :
    (Phase.standard e).map h.phase = Phase.standard (h.engine e) := by
  have preFlight : h.step (Phase.preFlight (ω := ω)).run = Phase.preFlight.run := by
    refine h.step_then h.step_get fun p => ?_
    split
    · exact h.step_pure false
    · exact h.step_then (h.step_modify _) fun _ => h.step_pure true
  have createResources : h.step (Phase.createResources e).run =
      (Phase.createResources (h.engine e)).run :=
    h.step_then h.step_get fun p => h.step_ensureChildren e _
  have checkReady : h.step (Phase.checkReady e).run = (Phase.checkReady (h.engine e)).run := by
    refine h.step_then h.step_get fun p => ?_
    refine h.step_then ((h.step_attempt _).trans
      (congrArg Step.attempt (h.except_areReady _ _ _))) fun ready => ?_
    cases ready with
    | true => exact h.step_attempt _
    | false => exact h.step_pure false
  have complete : h.step (Phase.complete (ω := ω)).run = Phase.complete.run :=
    h.step_then (h.step_modify _) fun _ => h.step_pure true
  unfold Phase.standard
  simp only [List.map_cons, List.map_nil, phase, preFlight, createResources, checkReady, complete]
  rfl

theorem map_runAll (now : m Timestamp) (l : List (Phase m ω)) (p : Progress ω) :
    h.map (Phase.runAll now l p) = Phase.runAll (h.map now) (l.map h.phase) p := by
  induction l generalizing p with
  | nil => exact h.map_pure _
  | cons phase rest ih =>
    refine h.map_then rfl fun r => h.map_then rfl fun now => ?_
    rcases r with ⟨result, q⟩
    rcases result with error | _ | _
    · exact h.map_pure _
    · exact h.map_pure _
    · exact ih _

/-! ## Passes -/

/-- The reconciler with its engine and its phases translated. -/
def reconciler (r : Reconciler m ω) : Reconciler n ω := ⟨h.engine r.engine, r.phases.map h.phase⟩

section Passes

variable (r : Reconciler m ω)

theorem except_gather (owner : ω) (l : List Manifest) (set : ResourceSet) :
    h.except (r.gather owner l set) = (h.reconciler r).gather owner l set := by
  induction l generalizing set with
  | nil => exact h.except_pure set
  | cons wanted rest ih => exact h.except_then rfl fun mutation => ih _

theorem except_resources (owner : ω) :
    h.except (r.resources owner) = (h.reconciler r).resources owner := by
  unfold Reconciler.resources
  rw [show (h.reconciler r).engine.hooks.generate owner = r.engine.hooks.generate owner from rfl]
  cases r.engine.hooks.generate owner with
  | ok wanted => exact h.except_gather r owner wanted .empty
  | error error => exact h.except_throw _

theorem map_writeStatus (key : ObjectKey) (live : Json) (before after : OwnerStatus) :
    h.map (r.writeStatus key live before after) =
      (h.reconciler r).writeStatus key live before after := by
  unfold Reconciler.writeStatus
  split
  · exact h.map_pure _
  · refine h.map_then rfl fun answer => ?_
    cases answer with
    | ok object => exact h.map_pure _
    | error error =>
      dsimp only
      split
      · exact h.map_pure _
      · exact h.map_pure _

theorem map_passOver (key : ObjectKey) (live : Json) (start : Progress ω) :
    h.map (r.passOver key live start) = (h.reconciler r).passOver key live start := by
  refine h.map_then (h.except_resources r start.owner) fun gathered => ?_
  cases gathered with
  | error error => exact h.map_pure _
  | ok resources =>
    refine h.map_then (h.map_runAll _ _ _) fun ran => ?_
    exact h.map_then (h.map_writeStatus r _ _ _ _) fun written => h.map_pure _

variable [Owner ω]

theorem map_pass (key : ObjectKey) : h.map (r.pass key) = (h.reconciler r).pass key := by
  refine h.map_then rfl fun look => ?_
  rcases look with error | _ | live
  · exact h.map_pure _
  · exact h.map_pure _
  · dsimp only
    split
    · exact h.map_pure _
    · exact h.map_passOver r key live _

theorem withState_reconcileKey (key : ObjectKey) :
    (h.withState Backoff).map (r.reconcileKey key) = (h.reconciler r).reconcileKey key := by
  have pass : (h.withState Backoff).map (StateT.lift (r.pass key)) =
      StateT.lift ((h.reconciler r).pass key) :=
    (h.withState_lift _).trans (congrArg StateT.lift (h.map_pass r key))
  refine (h.withState Backoff).map_then pass fun pass => ?_
  split
  · exact (h.withState Backoff).map_pure pass
  · exact (h.withState Backoff).map_then (funext fun b => h.map_pure _) fun _ =>
      (h.withState Backoff).map_pure pass

theorem reconciler_standard (e : Engine m ω) :
    h.reconciler (.standard e) = .standard (h.engine e) :=
  congrArg (Reconciler.mk (h.engine e)) (h.phase_standard e)

end Passes

end Translation

end DesiredState
