import DesiredState.Reconcile.Reconciler
import Mathlib.Tactic.Common

/-!
# What the phases of a pass guarantee

A guarantee speaks of the results of a computation, and of its effects on the way if it is one that
knows of effects. All that is asked of it is that it goes along with the monad. The standard phases
then guarantee whatever the calls of their engine do, and that the status of the owner changes only
as a pass changes it (`ensures_standard`): flags are set and conditions of resources are put in, and
none of them takes back that its resource was created. A whole pass does nothing that the guarantees
exclude if its calls do not, those for one child taken together (`allows_reconcileKey`).
-/

namespace DesiredState

/-- What computations can be said to ensure. -/
structure Guarantees (m : Type → Type) [Monad m] [Absorbs m] where
  /-- The results satisfy this, and the effects are as they should be. -/
  ensures : {α : Type} → m α → (α → Prop) → Prop
  ensures_pure : ∀ {α : Type} {a : α} {Q : α → Prop}, Q a → ensures (pure a) Q
  ensures_bind : ∀ {α β : Type} {x : m α} {f : α → m β} {P : α → Prop} {Q : β → Prop},
    ensures x P → (∀ a, P a → ensures (f a) Q) → ensures (x >>= f) Q
  ensures_mono : ∀ {α : Type} {x : m α} {P Q : α → Prop},
    ensures x P → (∀ a, P a → Q a) → ensures x Q
  ensures_absorb : ∀ {α : Type} {x : Tracked α} {Q : α → Prop}, Q x.value → ensures (absorb x) Q

namespace Guarantees

variable {m : Type → Type} [Monad m] [Absorbs m] {ω α β : Type}

/-- The effects are as they should be; nothing is said of the results. -/
abbrev Allows (g : Guarantees m) (x : m α) : Prop := g.ensures x fun _ => True

/-- Of computations on a world, whatever it is, the results count. -/
def results (σ : Type) : Guarantees (StateM σ) where
  ensures x Q := ∀ w, Q (x.run w).1
  ensures_pure h _ := h
  ensures_bind hx hf w := hf _ (hx w) _
  ensures_mono hx h w := h _ (hx w)
  ensures_absorb h _ := h

/-- Of computations on a world, those count that go along with a relation of earlier worlds to later
ones. -/
def along {σ : Type} {R : σ → σ → Prop} (refl : ∀ w, R w w)
    (trans : ∀ {u v w}, R u v → R v w → R u w) : Guarantees (StateM σ) where
  ensures x Q := ∀ w, R w (x.run w).2 ∧ Q (x.run w).1
  ensures_pure h w := ⟨refl w, h⟩
  ensures_bind hx hf w :=
    have ⟨first, ok⟩ := hx w
    have ⟨second, result⟩ := hf _ ok _
    ⟨trans first second, result⟩
  ensures_mono hx h w := ⟨(hx w).1, h _ (hx w).2⟩
  ensures_absorb h w := ⟨refl w, h⟩

/-- The same guarantees of computations that have a state of their own, whatever it is. -/
def withState (g : Guarantees m) (τ : Type) : Guarantees (StateT τ m) where
  ensures x Q := ∀ t, g.ensures (x.run t) fun r => Q r.1
  ensures_pure h _ := g.ensures_pure h
  ensures_bind hx hf t := g.ensures_bind (hx t) fun r ok => hf r.1 ok r.2
  ensures_mono hx h t := g.ensures_mono (hx t) fun r => h r.1
  ensures_absorb h _ := g.ensures_bind (g.ensures_absorb h) fun _ ok => g.ensures_pure ok

variable {g : Guarantees m}

theorem ensures_except_bind {x : ExceptT Error m α} {f : α → ExceptT Error m β}
    {P : α → Prop} {Q : Result β → Prop}
    (first : g.ensures x.run fun
      | .ok a => P a
      | .error e => Q (.error e))
    (rest : ∀ a, P a → g.ensures (f a).run Q) : g.ensures (x >>= f).run Q := by
  rw [ExceptT.run_bind]
  refine g.ensures_bind first fun result ok => ?_
  cases result with
  | ok a => exact rest a ok
  | error e => exact g.ensures_pure ok

/-- The result, if there is one, satisfies this. -/
def OnSuccess (P : α → Prop) : Result α → Prop
  | .ok a => P a
  | .error _ => True

theorem onSuccess_bind {x : ExceptT Error m α} {f : α → ExceptT Error m β}
    {P : α → Prop} {Q : β → Prop} (first : g.ensures x.run (OnSuccess P))
    (rest : ∀ a, P a → g.ensures (f a).run (OnSuccess Q)) :
    g.ensures (x >>= f).run (OnSuccess Q) :=
  ensures_except_bind (P := P) (g.ensures_mono first fun r ok => by cases r <;> exact ok) rest

theorem allows_except_bind {x : ExceptT Error m α} {f : α → ExceptT Error m β}
    (first : g.Allows x.run) (rest : ∀ a, g.Allows (f a).run) : g.Allows (x >>= f).run :=
  ensures_except_bind (P := fun _ => True) (g.ensures_mono first fun r _ => by cases r <;> trivial)
    fun a _ => rest a

/-- A computation among more effects is as it was. -/
theorem allows_lift {τ : Type} {x : m α} (h : g.Allows x) :
    (g.withState τ).Allows (StateT.lift x) :=
  fun _ => g.ensures_bind h fun _ _ => g.ensures_pure trivial

/-! ## Steps -/

/-- A step from this progress ensures this of its result and of the progress that it leaves. -/
def ensuresStep (g : Guarantees m) (x : Step m ω α) (p : Progress ω)
    (Q : Result α → Progress ω → Prop) : Prop :=
  g.ensures (x.run.run p) fun r => Q r.1 r.2

variable {p : Progress ω} {Q : Result α → Progress ω → Prop} {R : Result β → Progress ω → Prop}

theorem step_pure {a : α} (h : Q (.ok a) p) : g.ensuresStep (pure a) p Q := g.ensures_pure h

theorem step_throw {e : Error} (h : Q (.error e) p) : g.ensuresStep (throw e) p Q :=
  g.ensures_pure h

theorem step_bind {x : Step m ω α} {f : α → Step m ω β}
    {P : α → Progress ω → Prop}
    (first : g.ensuresStep x p fun
      | .ok a, q => P a q
      | .error e, q => R (.error e) q)
    (rest : ∀ a q, P a q → g.ensuresStep (f a) q R) : g.ensuresStep (x >>= f) p R := by
  unfold ensuresStep
  rw [ExceptT.run_bind, StateT.run_bind]
  refine g.ensures_bind first fun r ok => ?_
  rcases r with ⟨e | a, q⟩
  · exact g.ensures_pure ok
  · exact rest a q ok

theorem step_get {Q : Result (Progress ω) → Progress ω → Prop} (h : Q (.ok p) p) :
    g.ensuresStep get p Q :=
  g.ensures_bind (g.ensures_pure (Q := fun r => r = (p, p)) rfl) fun _ eq =>
    eq ▸ g.ensures_pure h

theorem step_modify {f : Progress ω → Progress ω} {Q : Result PUnit → Progress ω → Prop}
    (h : Q (.ok ⟨⟩) (f p)) : g.ensuresStep (modify f) p Q :=
  g.ensures_bind (g.ensures_pure (Q := fun r => r = (⟨⟩, f p)) rfl) fun _ eq =>
    eq ▸ g.ensures_pure h

/-- A step that begins with a look at the progress. -/
theorem step_get_bind {f : Progress ω → Step m ω β} (h : g.ensuresStep (f p) p R) :
    g.ensuresStep (get >>= f) p R := by
  refine step_bind (P := fun a q => a = p ∧ q = p) (step_get ⟨rfl, rfl⟩) ?_
  rintro _ _ ⟨rfl, rfl⟩
  exact h

theorem step_perform {x : m α} (allowed : g.Allows x) (h : ∀ a, Q (.ok a) p) :
    g.ensuresStep (Step.perform x) p Q := by
  have lifted : g.ensures ((StateT.lift x : StateT (Progress ω) m α).run p) fun r => r.2 = p :=
    g.ensures_bind allowed fun a _ => g.ensures_pure rfl
  exact g.ensures_bind lifted fun r eq => g.ensures_pure (show Q (.ok r.1) r.2 from eq ▸ h r.1)

theorem step_attempt {x : ExceptT Error m α} (allowed : g.Allows x.run) (h : ∀ r, Q r p) :
    g.ensuresStep (Step.attempt x) p Q :=
  g.ensures_bind allowed fun r _ => g.ensures_pure (h r)

end Guarantees

open Guarantees

/-! ## What a pass asks for -/

section Calls

variable {m : Type → Type} [Monad m] [Absorbs m] {g : Guarantees m} {store : Store m}

/-- Applying a manifest does nothing that the guarantees exclude if its calls do not. -/
theorem Applier.allows_apply {a : Applier} {wanted : Manifest} {owner : OwnerIdentity}
    (look : g.Allows (store.get wanted.key).run)
    (create : ∀ body, g.Allows (store.create wanted.key body a.manager).run)
    (patch : ∀ live patch difference,
      Plan.of a.immutable (wanted.ownedBy owner) live = .patch patch difference →
        g.Allows (store.patch wanted.key patch a.manager).run) :
    g.Allows (a.apply store wanted owner) := by
  refine g.ensures_bind look fun found _ => ?_
  rcases found with error | live
  · exact g.ensures_pure trivial
  · have settled : g.ensures (absorb (Plan.draw a.immutable (wanted.ownedBy owner) live))
        fun plan => Plan.of a.immutable (wanted.ownedBy owner) live = plan := g.ensures_absorb rfl
    refine g.ensures_bind settled fun plan eq => ?_
    cases plan with
    | create body => exact g.ensures_bind (create body) fun _ _ => g.ensures_pure trivial
    | leave => exact g.ensures_pure trivial
    | keep => exact g.ensures_pure trivial
    | patch document difference =>
      exact g.ensures_bind (patch live document difference eq) fun _ _ => g.ensures_pure trivial

namespace Rulebook

variable (get : ∀ key, g.Allows (store.get key).run) (b : Rulebook)

include get

theorem allows_isReady (key : ObjectKey) : g.Allows (b.isReady store key).run := by
  unfold isReady
  split
  · exact g.ensures_pure trivial
  · exact allows_except_bind (get key) fun _ => g.ensures_absorb trivial

theorem allows_areReady (keys : List ObjectKey) : g.Allows (b.areReady store keys).run := by
  induction keys with
  | nil => exact g.ensures_pure trivial
  | cons key rest ih =>
    refine allows_except_bind (allows_isReady get b key) fun ready => ?_
    cases ready with
    | true => exact ih
    | false => exact g.ensures_pure trivial

theorem allows_namespaceReady (key : ObjectKey) :
    g.Allows (b.namespaceReady store key).run := by
  unfold namespaceReady
  split
  · exact allows_isReady get b _
  · exact g.ensures_pure trivial

end Rulebook

end Calls

/-! ## What a pass is about -/

/-- All manifests of the set satisfy this. -/
def ResourceSet.All (P : Manifest → Prop) (set : ResourceSet) : Prop := ∀ m ∈ set.manifests, P m

theorem ResourceSet.All.extend {P : Manifest → Prop} {set : ResourceSet} {l : List Manifest}
    (first : set.All P) (more : ∀ m ∈ l, P m) : (set.extend l).All P := by
  induction l generalizing set with
  | nil => exact first
  | cons m rest ih =>
    have placed : (set.insert m).All P := fun x mem => by
      rcases mem_place mem with rfl | mem
      · exact more x List.mem_cons_self
      · exact first x mem
    exact ih placed fun x mem => more x (List.mem_cons_of_mem m mem)

section Manifests

variable {m : Type → Type} [Monad m] [Absorbs m] {g : Guarantees m} {ω : Type}
  {P : Manifest → Prop}

/-- The hooks want manifests of this sort, and put such ones in the place of these. -/
structure Hooks.Wants (g : Guarantees m) (P : Manifest → Prop) (hooks : Hooks m ω) : Prop where
  generate : ∀ owner l, hooks.generate owner = .ok l → ∀ wanted ∈ l, P wanted
  mutate : ∀ owner wanted, P wanted →
    g.ensures (hooks.mutate owner wanted).run
      (OnSuccess fun mutation => ∀ m ∈ mutation.accepted, P m)

namespace Reconciler

variable {r : Reconciler m ω} (wants : r.engine.hooks.Wants g P)

include wants

theorem ensures_gather (owner : ω) {l : List Manifest} (sort : ∀ wanted ∈ l, P wanted)
    {set : ResourceSet} (first : set.All P) :
    g.ensures (r.gather owner l set).run (OnSuccess (ResourceSet.All P)) := by
  induction l generalizing set with
  | nil => exact g.ensures_pure first
  | cons wanted rest ih =>
    refine onSuccess_bind (wants.mutate owner wanted (sort wanted List.mem_cons_self))
      fun mutation ok => ?_
    exact ih (fun wanted mem => sort wanted (List.mem_cons_of_mem _ mem)) (first.extend ok)

theorem ensures_resources (owner : ω) :
    g.ensures (r.resources owner).run (OnSuccess (ResourceSet.All P)) := by
  unfold resources
  split
  · rename_i l generated
    exact ensures_gather wants owner (wants.generate owner l generated) nofun
  · exact g.ensures_pure trivial

end Reconciler

end Manifests

/-! ## What a pass does to a status -/

/-- A relation of earlier statuses to later ones that goes along with all that the standard phases
do to a status. Saying how a phase ended is not among it. -/
structure OwnerStatus.Stable (R : OwnerStatus → OwnerStatus → Prop) : Prop where
  refl : ∀ s, R s s
  trans : ∀ {s t u}, R s t → R t u → R s u
  ready : ∀ (s : OwnerStatus) ready, R s { s with ready }
  dependencies : ∀ (s : OwnerStatus) dependenciesSatisfied, R s { s with dependenciesSatisfied }
  resource : ∀ (s : OwnerStatus) now report,
    (s.wasCreated report.resource = true → report.created = true) →
      R s (s.setResource now (.undated report)).1

/-- Nothing need be said of the statuses. -/
theorem OwnerStatus.Stable.any : OwnerStatus.Stable fun _ _ => True :=
  ⟨fun _ => trivial, fun _ _ => trivial, fun _ _ => trivial, fun _ _ => trivial,
    fun _ _ _ _ => trivial⟩

namespace ResourceReport

@[simp]
theorem resource_attempted (key : ObjectKey) (created : Bool) (attempt : Attempt) :
    (attempted key created attempt).resource = key := by
  unfold attempted
  split <;> rfl

/-- An attempt does not take back that its resource was created. -/
theorem created_attempted {key : ObjectKey} {created : Bool} (attempt : Attempt)
    (h : created = true) : (attempted key created attempt).created = true := by
  unfold attempted
  split
  · rfl
  · exact h

end ResourceReport

variable {ω : Type} {R : OwnerStatus → OwnerStatus → Prop} {p q r : Progress ω}

/-- The later progress is of the same resources, and the statuses are related. -/
structure Progress.Leads (R : OwnerStatus → OwnerStatus → Prop) (p q : Progress ω) : Prop where
  resources : q.resources = p.resources
  status : R p.status q.status

variable (stable : OwnerStatus.Stable R)

include stable

theorem Progress.Leads.refl (p : Progress ω) : p.Leads R p := ⟨rfl, stable.refl _⟩

theorem Progress.Leads.trans (h : p.Leads R q) (h' : q.Leads R r) : p.Leads R r :=
  ⟨h'.resources.trans h.resources, stable.trans h.status h'.status⟩

variable {m : Type → Type} [Monad m] [Absorbs m] {g : Guarantees m} {e : Engine m ω}

omit stable in
/-- The calls of an engine, those that apply objects apart, do nothing that the guarantees
exclude. -/
structure Engine.Within (g : Guarantees m) (e : Engine m ω) : Prop where
  get : ∀ key, g.Allows (e.store.get key).run
  mayApply : ∀ owner wanted, g.Allows (e.hooks.mayApply owner wanted).run
  ownerReady : ∀ owner, g.Allows (e.hooks.ownerReady owner).run
  now : g.Allows e.now

/-- Neither does applying an object. -/
def Engine.Applies (g : Guarantees m) (e : Engine m ω) (wanted : Manifest) : Prop :=
  ∀ owner, g.Allows (e.applier.apply e.store wanted owner)

variable (within : e.Within g)

include within

omit within in
/-- Steps that each lead to a related status do so one after the other. -/
theorem Guarantees.leads_bind {α β : Type} {x : Step m ω α} {f : α → Step m ω β}
    (first : g.ensuresStep x p fun _ q => p.Leads R q)
    (rest : ∀ a q, p.Leads R q → g.ensuresStep (f a) q fun _ r => q.Leads R r) :
    g.ensuresStep (x >>= f) p fun _ r => p.Leads R r := by
  refine step_bind (P := fun _ q => p.Leads R q) (g.ensures_mono first ?_) fun a q led => ?_
  · rintro ⟨e | a, q⟩ led <;> exact led
  · exact g.ensures_mono (rest a q led) fun _ led' => led.trans stable led'

namespace Engine

theorem ensures_note {report : ResourceReport}
    (kept : p.status.wasCreated report.resource = true → report.created = true) :
    g.ensuresStep (e.note report) p fun _ q => p.Leads R q := by
  refine step_bind (P := fun _ q => p = q) (step_perform within.now fun _ => rfl) ?_
  rintro now _ rfl
  exact step_modify ⟨rfl, stable.resource _ _ _ kept⟩

variable {wanted : Manifest}

/-- What follows an attempt to apply an object. -/
theorem ensures_attempted (attempt : Attempt) (p : Progress ω) :
    g.ensuresStep (do
      modify (·.noteAttempt attempt)
      e.note (.attempted wanted.key (p.status.wasCreated wanted.key) attempt)
      match attempt.result with
      | .ok _ => return
      | .error error => throw error) p fun _ q => p.Leads R q := by
  refine step_bind (P := fun _ q => p.noteAttempt attempt = q) (step_modify rfl) ?_
  rintro _ _ rfl
  refine g.ensures_mono (leads_bind stable (ensures_note stable within ?_) fun _ q _ => ?_)
    fun _ led => ⟨led.resources, led.status⟩
  · rw [ResourceReport.resource_attempted]
    exact ResourceReport.created_attempted attempt
  · cases attempt.result with
    | ok applied => exact step_pure (.refl stable q)
    | error error => exact step_throw (.refl stable q)

theorem ensures_applyChild (applies : e.Applies g wanted) (p : Progress ω) :
    g.ensuresStep (e.applyChild wanted) p fun _ q => p.Leads R q := by
  refine step_get_bind (step_bind (P := fun _ q => p = q)
    (step_perform (applies p.identity) fun _ => rfl) ?_)
  rintro attempt _ rfl
  exact ensures_attempted stable within attempt p

theorem ensures_ensureChild (applies : e.Applies g wanted) (p : Progress ω) :
    g.ensuresStep (e.ensureChild wanted) p fun _ q => p.Leads R q := by
  refine step_get_bind (step_bind (P := fun _ q => p = q)
    (step_attempt (within.mayApply p.owner wanted) ?_) ?_)
  · rintro (error | admitted)
    · exact .refl stable p
    · rfl
  · rintro admitted _ rfl
    cases admitted with
    | true =>
      exact leads_bind stable (ensures_applyChild stable within applies p) fun _ q _ =>
        step_pure (.refl stable q)
    | false =>
      exact leads_bind stable (ensures_note stable within id) fun _ q _ =>
        step_pure (.refl stable q)

omit within in
/-- Children one after the other lead to a related status if each does. -/
theorem ensures_ensureChildren {l : List Manifest}
    (each : ∀ wanted ∈ l, ∀ p, g.ensuresStep (e.ensureChild wanted) p fun _ q => p.Leads R q)
    (p : Progress ω) : g.ensuresStep (e.ensureChildren l) p fun _ q => p.Leads R q := by
  induction l generalizing p with
  | nil => exact step_pure (.refl stable p)
  | cons wanted rest ih =>
    refine leads_bind stable (each wanted List.mem_cons_self p) fun admitted q _ => ?_
    cases admitted with
    | true => exact ih (fun wanted mem => each wanted (List.mem_cons_of_mem _ mem)) q
    | false => exact step_pure (.refl stable q)

end Engine

/-! ## Phases -/

namespace Phase

theorem ensures_checkReady (p : Progress ω) :
    g.ensuresStep (checkReady e).run p fun _ q => p.Leads R q := by
  have led := Progress.Leads.refl stable p
  refine step_get_bind (leads_bind stable
    (step_attempt (e.rules.allows_areReady within.get _) fun _ => led) fun ready q _ => ?_)
  cases ready with
  | true => exact step_attempt (within.ownerReady p.owner) fun _ => .refl stable q
  | false => exact step_pure (.refl stable q)

/-- The standard phases lead to a related status if each child does. -/
theorem ensures_standard_of [Owner ω] {phase : Phase m ω} (mem : phase ∈ standard e)
    (each : ∀ wanted ∈ p.resources.manifests, ∀ p,
      g.ensuresStep (e.ensureChild wanted) p fun _ q => p.Leads R q) :
    g.ensuresStep phase.run p fun _ q => p.Leads R q := by
  simp only [standard, List.mem_cons, List.not_mem_nil, or_false] at mem
  rcases mem with rfl | rfl | rfl | rfl
  · refine step_get_bind ?_
    split
    · exact step_pure (.refl stable p)
    · exact leads_bind stable (step_modify ⟨rfl, stable.dependencies _ _⟩)
        fun _ q _ => step_pure (.refl stable q)
  · exact step_get_bind (Engine.ensures_ensureChildren stable each p)
  · exact ensures_checkReady stable within p
  · exact leads_bind stable (step_modify ⟨rfl, stable.ready _ _⟩)
      fun _ q _ => step_pure (.refl stable q)

theorem ensures_standard [Owner ω] {phase : Phase m ω} (mem : phase ∈ standard e)
    (applies : ∀ wanted ∈ p.resources.manifests, e.Applies g wanted) :
    g.ensuresStep phase.run p fun _ q => p.Leads R q :=
  ensures_standard_of stable within mem fun wanted mem =>
    Engine.ensures_ensureChild stable within (applies wanted mem)

omit within in
/-- Phases one after the other lead to a related status if each does, and saying how they ended
does. -/
theorem ensures_runAll (noting : ∀ s now report, R s (s.setPhase now (.undated report)).1)
    {now : m Timestamp} (timely : g.Allows now) {l : List (Phase m ω)}
    (each : ∀ phase ∈ l, ∀ q, q.resources = p.resources →
      g.ensuresStep phase.run q fun _ r => q.Leads R r) :
    g.ensures (runAll now l p) fun r => p.Leads R r.2 := by
  induction l generalizing p with
  | nil => exact g.ensures_pure (.refl stable p)
  | cons phase rest ih =>
    refine g.ensures_bind (each phase List.mem_cons_self p rfl) fun r led => ?_
    rcases r with ⟨result, q⟩
    refine g.ensures_bind timely fun now _ => ?_
    have noted (report : PhaseReport) : p.Leads R (q.notePhase now report) :=
      led.trans stable ⟨rfl, noting _ _ _⟩
    rcases result with error | _ | _
    · exact g.ensures_pure ((noted _).trans stable ⟨rfl, stable.ready _ _⟩)
    · exact g.ensures_pure ((noted _).trans stable ⟨rfl, stable.ready _ _⟩)
    · refine g.ensures_mono (ih (p := q.notePhase now (.complete phase.name))
        fun phase mem q' same => ?_) fun _ led' => (noted _).trans stable led'
      exact each phase (List.mem_cons_of_mem _ mem) q' (same.trans (noted _).resources)

end Phase

/-! ## Passes -/

namespace Reconciler

variable [Owner ω] {P : Manifest → Prop} {key : ObjectKey}
  (update : ∀ object, g.Allows (e.store.updateStatus key object e.applier.manager).run)

omit stable

include update

omit within [Owner ω] in
theorem allows_writeStatus {phases : List (Phase m ω)} (live : Json) (before after : OwnerStatus) :
    g.Allows ((⟨e, phases⟩ : Reconciler m ω).writeStatus key live before after) := by
  unfold writeStatus
  split
  · exact g.ensures_pure trivial
  · refine g.ensures_bind (update _) fun answer _ => ?_
    cases answer with
    | ok object => exact g.ensures_pure trivial
    | error error =>
      dsimp only
      split <;> exact g.ensures_pure trivial

variable (wants : e.hooks.Wants g P) (each : ∀ wanted, P wanted → ∀ p,
  g.ensuresStep (e.ensureChild wanted) p fun _ q => p.Leads (fun _ _ => True) q)

include wants each

theorem allows_passOver (live : Json) (start : Progress ω) :
    g.Allows ((standard e).passOver key live start) := by
  refine g.ensures_bind (ensures_resources wants start.owner) fun gathered sort => ?_
  cases gathered with
  | error error => exact g.ensures_pure trivial
  | ok resources =>
    have phases := Phase.ensures_runAll .any (fun _ _ _ => trivial) within.now
      (p := { start with resources }) fun phase mem q same => by
        refine Phase.ensures_standard_of .any within mem fun wanted mem => ?_
        rw [same] at mem
        exact each wanted (sort wanted mem)
    exact g.ensures_bind phases fun ran _ =>
      g.ensures_bind (allows_writeStatus update live _ _) fun written _ => g.ensures_pure trivial

theorem allows_pass : g.Allows ((standard e).pass key) := by
  refine g.ensures_bind (within.get key) fun look _ => ?_
  rcases look with error | _ | live
  · exact g.ensures_pure trivial
  · exact g.ensures_pure trivial
  · dsimp only
    split
    · exact g.ensures_pure trivial
    · exact allows_passOver within update wants each live _

/-- A call for the owner does nothing that the guarantees exclude. -/
theorem allows_reconcileKey : (g.withState Backoff).Allows ((standard e).reconcileKey key) := by
  refine (g.withState Backoff).ensures_bind
    (allows_lift (allows_pass within update wants each)) fun pass _ => ?_
  split
  · exact (g.withState Backoff).ensures_pure trivial
  · exact (g.withState Backoff).ensures_bind (P := fun _ => True)
      (fun b => g.ensures_pure trivial) fun _ _ => (g.withState Backoff).ensures_pure trivial

end Reconciler

end DesiredState
