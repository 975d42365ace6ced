import DesiredState.Proofs.Applying.Convergence
import DesiredState.Proofs.Reconcile.Guarantees
import DesiredState.Proofs.Reconcile.Runs

/-!
# Steps of a pass over a store in memory

A step is run on a progress and a store. What is left of a pass is described in terms of its
steps: each child's step comes to a hook's answer and at most one effect (`ensureChild_cases`),
and the progress it leaves only adds to its attempts and its status (`Follows`).
-/

namespace DesiredState

open MemoryStore

/-! ## Computations that write nothing -/

/-- A computation over a store that changes no object. -/
def Harmless {α : Type} (x : StateM MemoryStore α) : Prop := ∀ s, SameObjects s (x.run s).2

/-- The engine works on the store in memory, where its hooks and its clock write nothing. -/
structure Engine.Harmless {ω : Type} (e : Engine (StateM MemoryStore) ω) : Prop where
  store : e.store = MemoryStore.store
  mutate : ∀ owner wanted, DesiredState.Harmless (e.hooks.mutate owner wanted).run
  mayApply : ∀ owner wanted, DesiredState.Harmless (e.hooks.mayApply owner wanted).run
  ownerReady : ∀ owner, DesiredState.Harmless (e.hooks.ownerReady owner).run
  now : DesiredState.Harmless e.now

/-- The hooks and the clock queue no failure. -/
structure Engine.Discreet {ω : Type} (e : Engine (StateM MemoryStore) ω) : Prop where
  mutate : ∀ owner wanted s, Quiet s → Quiet ((e.hooks.mutate owner wanted).run.run s).2
  mayApply : ∀ owner wanted s, Quiet s → Quiet ((e.hooks.mayApply owner wanted).run.run s).2
  ownerReady : ∀ owner s, Quiet s → Quiet ((e.hooks.ownerReady owner).run.run s).2
  now : ∀ s, Quiet s → Quiet (e.now.run s).2

/-- No object was written, and a discreet engine queued no failure. -/
structure Engine.Idle {ω : Type} (e : Engine (StateM MemoryStore) ω) (s t : MemoryStore) :
    Prop where
  same : SameObjects s t
  quiet : e.Discreet → Quiet s → Quiet t

namespace Engine.Idle

variable {ω : Type} {e : Engine (StateM MemoryStore) ω} {s t u : MemoryStore}

theorem refl (s : MemoryStore) : e.Idle s s := ⟨fun _ => rfl, fun _ => id⟩

theorem trans (h : e.Idle s t) (h' : e.Idle t u) : e.Idle s u :=
  ⟨SameObjects.trans h.same h'.same, fun d quiet => h'.quiet d (h.quiet d quiet)⟩

theorem ofNow (calm : e.Harmless) (s : MemoryStore) : e.Idle s (e.now.run s).2 :=
  ⟨calm.now s, fun d => d.now s⟩

theorem ofMayApply (calm : e.Harmless) (owner : ω) (wanted : Manifest) (s : MemoryStore) :
    e.Idle s ((e.hooks.mayApply owner wanted).run.run s).2 :=
  ⟨calm.mayApply owner wanted s, fun d => d.mayApply owner wanted s⟩

theorem ofMutate (calm : e.Harmless) (owner : ω) (wanted : Manifest) (s : MemoryStore) :
    e.Idle s ((e.hooks.mutate owner wanted).run.run s).2 :=
  ⟨calm.mutate owner wanted s, fun d => d.mutate owner wanted s⟩

theorem ofOwnerReady (calm : e.Harmless) (owner : ω) (s : MemoryStore) :
    e.Idle s ((e.hooks.ownerReady owner).run.run s).2 :=
  ⟨calm.ownerReady owner s, fun d => d.ownerReady owner s⟩

end Engine.Idle

/-- A relation of earlier stores to later ones that holds across reads, and across whatever the
hooks and the clock of an engine do. -/
structure Engine.Keeps {ω : Type} (e : Engine (StateM MemoryStore) ω)
    (R : MemoryStore → MemoryStore → Prop) : Prop where
  refl : ∀ s, R s s
  trans : ∀ {s t u}, R s t → R t u → R s u
  get : ∀ s key, R s (s.get key).2
  mutate : ∀ owner wanted s, R s ((e.hooks.mutate owner wanted).run.run s).2
  mayApply : ∀ owner wanted s, R s ((e.hooks.mayApply owner wanted).run.run s).2
  ownerReady : ∀ owner s, R s ((e.hooks.ownerReady owner).run.run s).2
  now : ∀ s, R s (e.now.run s).2

/-- What the relation asks of computations. -/
def Engine.Keeps.guarantees {ω : Type} {e : Engine (StateM MemoryStore) ω}
    {R : MemoryStore → MemoryStore → Prop} (keeps : e.Keeps R) : Guarantees (StateM MemoryStore) :=
  .along keeps.refl keeps.trans

theorem Engine.Keeps.allows_get {ω : Type} {e : Engine (StateM MemoryStore) ω}
    {R : MemoryStore → MemoryStore → Prop} (keeps : e.Keeps R) (key : ObjectKey) :
    keeps.guarantees.Allows (MemoryStore.store.get key).run :=
  fun s => ⟨keeps.get s key, trivial⟩

theorem Engine.Idle.keeps {ω : Type} {e : Engine (StateM MemoryStore) ω} (calm : e.Harmless) :
    e.Keeps e.Idle where
  refl := .refl
  trans := .trans
  get s key := by
    rcases got : s.get key with ⟨error | found, t⟩
    · exact ⟨(get_error got).2, fun _ quiet => absurd quiet (get_error got).1⟩
    · exact ⟨(get_ok got).2.1, fun _ => (get_ok got).2.2⟩
  mutate := .ofMutate calm
  mayApply := .ofMayApply calm
  ownerReady := .ofOwnerReady calm
  now := .ofNow calm

namespace Step

variable {ω α β : Type}

/-- Run a step on a progress and a store. -/
def exec (x : Step (StateM MemoryStore) ω α) (p : Progress ω) (s : MemoryStore) :
    (Result α × Progress ω) × MemoryStore :=
  (x.run.run p).run s

theorem exec_bind (x : Step (StateM MemoryStore) ω α) (f : α → Step (StateM MemoryStore) ω β)
    (p : Progress ω) (s : MemoryStore) :
    exec (x >>= f) p s =
      match exec x p s with
      | ((.ok a, p'), t) => exec (f a) p' t
      | ((.error e, p'), t) => ((.error e, p'), t) := by
  refine (play_bind x f p s).trans ?_
  show _ = match play x p s with
    | ((.ok a, p'), t) => exec (f a) p' t
    | ((.error e, p'), t) => ((.error e, p'), t)
  rcases play x p s with ⟨⟨_ | _, _⟩, _⟩ <;> rfl

theorem exec_bind_ok {x : Step (StateM MemoryStore) ω α} {f : α → Step (StateM MemoryStore) ω β}
    {p p' : Progress ω} {s t : MemoryStore} {a : α} (h : exec x p s = ((.ok a, p'), t)) :
    exec (x >>= f) p s = exec (f a) p' t := play_bind_ok h

theorem exec_bind_error {x : Step (StateM MemoryStore) ω α}
    {f : α → Step (StateM MemoryStore) ω β} {p p' : Progress ω} {s t : MemoryStore} {e : Error}
    (h : exec x p s = ((.error e, p'), t)) : exec (x >>= f) p s = ((.error e, p'), t) :=
  play_bind_error h

theorem exec_attempt (x : ExceptT Error (StateM MemoryStore) α) (p : Progress ω)
    (s : MemoryStore) : exec (attempt x) p s = (((x.run.run s).1, p), (x.run.run s).2) := rfl

end Step

namespace Progress

variable {ω : Type}

/-- The later progress is of the same pass, after these further attempts. -/
structure Follows (p p' : Progress ω) (attempts : List Attempt) : Prop where
  owner : p'.owner = p.owner
  identity : p'.identity = p.identity
  resources : p'.resources = p.resources
  attempts : p'.attempts = p.attempts ++ attempts

theorem Follows.refl (p : Progress ω) : Follows p p [] :=
  ⟨rfl, rfl, rfl, (List.append_nil _).symm⟩

theorem Follows.trans {p q r : Progress ω} {as bs : List Attempt} (h : Follows p q as)
    (h' : Follows q r bs) : Follows p r (as ++ bs) :=
  ⟨h'.owner.trans h.owner, h'.identity.trans h.identity, h'.resources.trans h.resources, by
    rw [h'.attempts, h.attempts, List.append_assoc]⟩

theorem Follows.still {p q r : Progress ω} {attempts : List Attempt} (h : Follows p q attempts)
    (h' : Follows q r []) : Follows p r attempts := by
  have := h.trans h'
  rwa [List.append_nil] at this

/-- A change of the status alone. -/
theorem Follows.ofStatus (f : OwnerStatus → OwnerStatus) (p : Progress ω) :
    Follows p (p.withStatus f) [] := ⟨rfl, rfl, rfl, (List.append_nil _).symm⟩

theorem Follows.ofResource (now : Timestamp) (report : ResourceReport) (p : Progress ω) :
    Follows p (p.noteResource now report) [] := .ofStatus _ p

theorem Follows.ofPhase (now : Timestamp) (report : PhaseReport) (p : Progress ω) :
    Follows p (p.notePhase now report) [] := .ofStatus _ p

theorem Follows.ofAttempt (attempt : Attempt) (p : Progress ω) :
    Follows p (p.noteAttempt attempt) [attempt] := ⟨rfl, rfl, rfl, rfl⟩

end Progress

/-- What is in the first of two lists that correspond is related to something in the second. -/
theorem exists_of_forall₂ {α β : Type} {r : α → β → Prop} {xs : List α} {ys : List β}
    (h : List.Forall₂ r xs ys) {x : α} (mem : x ∈ xs) : ∃ y ∈ ys, r x y := by
  induction h with
  | nil => cases mem
  | cons first _ ih =>
    rcases List.mem_cons.1 mem with rfl | mem
    · exact ⟨_, List.mem_cons_self, first⟩
    · obtain ⟨y, later, related⟩ := ih mem
      exact ⟨y, List.mem_cons_of_mem _ later, related⟩

namespace Engine

open Step Progress

variable {ω : Type} {e : Engine (StateM MemoryStore) ω} {wanted : Manifest}
  {p : Progress ω} {s t : MemoryStore}

/-- The progress after an attempt at a child. -/
def attempted (e : Engine (StateM MemoryStore) ω) (wanted : Manifest) (attempt : Attempt)
    (p : Progress ω) (s : MemoryStore) : Progress ω :=
  (p.noteAttempt attempt).noteResource (e.now.run s).1
    (.attempted wanted.key (p.status.wasCreated wanted.key) attempt)

theorem exec_applyChild {attempt : Attempt}
    (h : (e.applier.apply e.store wanted p.identity).run s = (attempt, t)) :
    exec (e.applyChild wanted) p s =
      ((attempt.result.map fun _ => (), attempted e wanted attempt p t), (e.now.run t).2) :=
  play_applyChild h

theorem exec_ensureChild_admitted
    (h : (e.hooks.mayApply p.owner wanted).run.run s = (.ok true, t)) :
    exec (e.ensureChild wanted) p s = exec (e.applyChild wanted >>= fun _ => return true) p t :=
  play_ensureChild_admitted h

theorem exec_ensureChild_waiting
    (h : (e.hooks.mayApply p.owner wanted).run.run s = (.ok false, t)) :
    exec (e.ensureChild wanted) p s =
      ((.ok false, p.noteResource (e.now.run t).1
        (.waiting wanted.key (p.status.wasCreated wanted.key))), (e.now.run t).2) :=
  play_ensureChild_waiting h

theorem exec_ensureChild_error {error : Error}
    (h : (e.hooks.mayApply p.owner wanted).run.run s = (.error error, t)) :
    exec (e.ensureChild wanted) p s = ((.error error, p), t) := play_ensureChild_error h

/-! ## One child and all of them -/

/-- What the step of a child comes to: the answer of its hook and at most one application. -/
inductive Child (e : Engine (StateM MemoryStore) ω) (owner : ω) (identity : OwnerIdentity)
    (wanted : Manifest) (s t : MemoryStore) : Result Bool → List Attempt → Prop where
  /-- The hook failed. -/
  | failed {error : Error} (answer : ((e.hooks.mayApply owner wanted).run.run s).1 = .error error)
      (idle : e.Idle s t) : Child e owner identity wanted s t (.error error) []
  /-- The hook holds the child back. -/
  | waiting (answer : ((e.hooks.mayApply owner wanted).run.run s).1 = .ok false)
      (idle : e.Idle s t) : Child e owner identity wanted s t (.ok false) []
  /-- The child was applied. -/
  | applied {u v : MemoryStore} {attempt : Attempt}
      (answer : (e.hooks.mayApply owner wanted).run.run s = (.ok true, u))
      (ran : (e.applier.apply MemoryStore.store wanted identity).run u = (attempt, v))
      (effect : e.applier.Effect wanted identity s t attempt)
      (quiet : e.Discreet → Quiet s → Quiet t) :
      Child e owner identity wanted s t (attempt.result.map fun _ => true) [attempt]

/-- What the steps of some children come to, one after the other. -/
inductive Round (e : Engine (StateM MemoryStore) ω) (owner : ω) (identity : OwnerIdentity) :
    List Manifest → MemoryStore → MemoryStore → Result Bool → List Attempt → Prop where
  | all (s : MemoryStore) : Round e owner identity [] s s (.ok true) []
  | stopped {wanted : Manifest} {rest : List Manifest} {s t : MemoryStore} {result : Result Bool}
      {attempts : List Attempt} (child : Child e owner identity wanted s t result attempts)
      (halt : result ≠ .ok true) : Round e owner identity (wanted :: rest) s t result attempts
  | next {wanted : Manifest} {rest : List Manifest} {s t u : MemoryStore} {result : Result Bool}
      {attempts later : List Attempt}
      (child : Child e owner identity wanted s t (.ok true) attempts)
      (others : Round e owner identity rest t u result later) :
      Round e owner identity (wanted :: rest) s u result (attempts ++ later)

theorem ensureChild_cases (calm : e.Harmless) (wanted : Manifest) (p : Progress ω)
    (s : MemoryStore) :
    ∃ result p' t attempts, exec (e.ensureChild wanted) p s = ((result, p'), t) ∧
      Follows p p' attempts ∧ Child e p.owner p.identity wanted s t result attempts := by
  have idle := Idle.ofMayApply calm p.owner wanted s
  rcases answer : (e.hooks.mayApply p.owner wanted).run.run s with ⟨result, u⟩
  rw [answer] at idle
  rcases result with error | _ | _
  · exact ⟨_, _, _, _, exec_ensureChild_error answer, .refl p, .failed (by rw [answer]) idle⟩
  · exact ⟨_, _, _, _, exec_ensureChild_waiting answer, .ofResource _ _ p,
      .waiting (by rw [answer]) (idle.trans (.ofNow calm u))⟩
  · obtain ⟨attempt, v, ran, effect⟩ := e.applier.apply_effect wanted p.identity u
    have applied := exec_applyChild (e := e) (p := p) (s := u) (calm.store ▸ ran)
    have follows : Follows p (attempted e wanted attempt p v) [attempt] :=
      (Follows.ofAttempt attempt p).trans (.ofResource _ _ _)
    have child := Child.applied answer ran (effect.congr idle.same (calm.now v)) fun d quiet => by
      have quiet' := Applier.quiet_apply (idle.quiet d quiet) e.applier wanted p.identity
      rw [ran] at quiet'
      exact d.now v quiet'
    rw [exec_ensureChild_admitted answer]
    refine ⟨_, _, _, _, ?_, follows, child⟩
    rw [exec_bind, applied]
    cases attempt <;> rfl

theorem ensureChildren_cases (calm : e.Harmless) (l : List Manifest) (p : Progress ω)
    (s : MemoryStore) :
    ∃ result p' t attempts, exec (e.ensureChildren l) p s = ((result, p'), t) ∧
      Follows p p' attempts ∧ Round e p.owner p.identity l s t result attempts := by
  induction l generalizing p s with
  | nil => exact ⟨_, _, _, _, rfl, .refl p, .all s⟩
  | cons wanted rest ih =>
    obtain ⟨result, p', t, attempts, ran, follows, child⟩ := ensureChild_cases calm wanted p s
    rw [ensureChildren]
    rcases result with error | _ | _
    · exact ⟨_, p', t, _, exec_bind_error ran, follows, .stopped child nofun⟩
    · exact ⟨.ok false, p', t, _, exec_bind_ok ran, follows, .stopped child nofun⟩
    · obtain ⟨result, p'', u, later, ran', follows', round⟩ := ih p' t
      rw [follows.owner, follows.identity] at round
      exact ⟨_, _, _, _, (exec_bind_ok ran).trans ran', follows.trans follows', .next child round⟩

section Outcomes

variable {owner : ω} {identity : OwnerIdentity} {result : Result Bool} {attempts : List Attempt}
  {l : List Manifest}

theorem Child.quiet (h : Child e owner identity wanted s t result attempts)
    (discreet : e.Discreet) (quiet : Quiet s) : Quiet t := by
  cases h with
  | failed _ idle => exact idle.quiet discreet quiet
  | waiting _ idle => exact idle.quiet discreet quiet
  | applied _ _ _ later => exact later discreet quiet

theorem Round.quiet (h : Round e owner identity l s t result attempts) (discreet : e.Discreet)
    (quiet : Quiet s) : Quiet t := by
  induction h with
  | all => exact quiet
  | stopped child => exact child.quiet discreet quiet
  | next child _ ih => exact ih (child.quiet discreet quiet)

theorem Child.frame (h : Child e owner identity wanted s t result attempts) {k : ObjectKey}
    (ne : k ≠ wanted.key) : t.object? k = s.object? k := by
  cases h with
  | failed _ idle => exact (idle.same k).symm
  | waiting _ idle => exact (idle.same k).symm
  | applied _ _ effect => exact effect.frame ne

/-- A round writes under the keys of the children alone. -/
theorem Round.frame (h : Round e owner identity l s t result attempts) {k : ObjectKey}
    (new : k ∉ l.map Manifest.key) : t.object? k = s.object? k := by
  induction h with
  | all => rfl
  | stopped child =>
    exact child.frame fun e => new (by rw [e]; exact List.mem_cons_self)
  | next child _ ih =>
    rw [List.map_cons, List.mem_cons, not_or] at new
    rw [ih new.2, child.frame new.1]

/-! ## Attempts and their children -/

/-- What is under the key of a child went through an attempt at it that did not fail. -/
def Turn (a : Applier) (identity : OwnerIdentity) (s t : MemoryStore) (wanted : Manifest)
    (attempt : Attempt) : Prop :=
  ∃ u v applied, attempt = .succeeded applied ∧
    a.Effect wanted identity u v (.succeeded applied) ∧
    u.object? wanted.key = s.object? wanted.key ∧ v.object? wanted.key = t.object? wanted.key

/-- A child whose step went on was attempted once, and that did not fail. -/
theorem Child.effect {wanted : Manifest}
    (h : Child e owner identity wanted s t (.ok true) attempts) :
    ∃ applied, attempts = [.succeeded applied] ∧
      e.applier.Effect wanted identity s t (.succeeded applied) := by
  generalize went : (Except.ok true : Result Bool) = result at h
  cases h with
  | failed => cases went
  | waiting => cases went
  | @applied _ _ attempt _ _ effect =>
    cases attempt with
    | succeeded applied => exact ⟨applied, rfl, effect⟩
    | _ => cases went

/-- A round that went through made one attempt at each child, in their order. -/
theorem Round.turns_from {u : MemoryStore}
    (h : Round e owner identity l s t (.ok true) attempts)
    (distinct : (l.map Manifest.key).Nodup)
    (before : ∀ wanted ∈ l, s.object? wanted.key = u.object? wanted.key) :
    List.Forall₂ (Turn e.applier identity u t) l attempts := by
  generalize went : (Except.ok true : Result Bool) = result at h
  induction h with
  | all => exact .nil
  | stopped _ halt => exact absurd went.symm halt
  | @next first rest s t v result attempts later child others ih =>
    rw [List.map_cons, List.nodup_cons] at distinct
    have after := ih distinct.2 (fun wanted mem => by
      -- Later children are left alone by the first one.
      have ne : wanted.key ≠ first.key := fun eq => distinct.1 (eq ▸ List.mem_map_of_mem mem)
      rw [child.frame ne, before wanted (List.mem_cons_of_mem _ mem)]) went
    obtain ⟨applied, rfl, effect⟩ := child.effect
    exact .cons ⟨_, _, applied, rfl, effect, before first List.mem_cons_self,
      (others.frame distinct.1).symm⟩ after

theorem Round.turns (h : Round e owner identity l s t (.ok true) attempts)
    (distinct : (l.map Manifest.key).Nodup) :
    List.Forall₂ (Turn e.applier identity s t) l attempts :=
  h.turns_from distinct fun _ _ => rfl

theorem Turn.congr {a : Applier} {s' t' : MemoryStore} {wanted : Manifest} {attempt : Attempt}
    (h : Turn a identity s t wanted attempt) (before : SameObjects s' s)
    (after : SameObjects t t') : Turn a identity s' t' wanted attempt := by
  obtain ⟨u, v, applied, eq, effect, began, left⟩ := h
  exact ⟨u, v, applied, eq, effect, began.trans (before _).symm, left.trans (after _)⟩

end Outcomes

end Engine

end DesiredState
