import DesiredState.Proofs.Readiness.Verdicts
import DesiredState.Proofs.Reconcile.Steps

/-!
# The standard phases over a store in memory

What the standard phases come to (`runAll_standard`): the owner is being deleted, the round over
its children stopped, or all children were applied and a check decided. Nothing but the round
writes objects.
-/

namespace DesiredState.Phase

open MemoryStore Step Progress

variable {ω : Type} {e : Engine (StateM MemoryStore) ω} {p : Progress ω}
  {s t : MemoryStore}

/-! ## Running phases -/

theorem runAll_cons (now : StateM MemoryStore Timestamp) (phase : Phase (StateM MemoryStore) ω)
    (rest : List (Phase (StateM MemoryStore) ω)) (p : Progress ω) (s : MemoryStore) :
    (runAll now (phase :: rest) p).run s =
      match exec phase.run p s with
      | ((.ok true, p'), t) =>
        (runAll now rest (p'.notePhase (now.run t).1 (.complete phase.name))).run (now.run t).2
      | ((.ok false, p'), t) =>
        ((.halted phase.name phase.delay,
          (p'.notePhase (now.run t).1 (.pending phase.name)).setReady false), (now.run t).2)
      | ((.error error, p'), t) =>
        ((.failed phase.name phase.delay error,
          (p'.notePhase (now.run t).1 (.failed phase.name error)).setReady false),
          (now.run t).2) := by
  rw [runAll, exec, StateT.run_bind]
  rcases (phase.run.run.run p).run s with ⟨⟨error | _ | _, p'⟩, t⟩ <;> rfl

theorem exec_checkReady :
    exec (checkReady e).run p s =
      match (e.rules.areReady e.store p.resources.keys).run.run s with
      | (.ok true, t) =>
        ((((e.hooks.ownerReady p.owner).run.run t).1, p),
          ((e.hooks.ownerReady p.owner).run.run t).2)
      | (.ok false, t) => ((.ok false, p), t)
      | (.error error, t) => ((.error error, p), t) := by
  unfold checkReady
  dsimp only
  rw [exec_bind_ok (show exec get p s = ((.ok p, p), s) from rfl), exec_bind, exec_attempt]
  rcases (e.rules.areReady e.store p.resources.keys).run.run s with ⟨error | _ | _, t⟩ <;> rfl

theorem exec_createResources :
    exec (createResources e).run p s = exec (e.ensureChildren p.resources.manifests) p s := by
  unfold createResources
  dsimp only
  rw [exec_bind_ok (show exec get p s = ((.ok p, p), s) from rfl)]

/-- Asking the rules keeps what reads keep. -/
theorem kept_areReady {R : MemoryStore → MemoryStore → Prop} (keeps : e.Keeps R) (b : Rulebook)
    (keys : List ObjectKey) (s : MemoryStore) :
    R s ((b.areReady store keys).run.run s).2 :=
  (b.allows_areReady keeps.allows_get keys s).1

/-! ## The check -/

/-- What checking for readiness comes to. -/
inductive Check (e : Engine (StateM MemoryStore) ω) (owner : ω) (keys : List ObjectKey)
    (s t : MemoryStore) : Result Bool → Prop where
  /-- A queued failure came in between. -/
  | interrupted {error : Error} (loud : ¬ Quiet s) (idle : e.Idle s t) :
      Check e owner keys s t (.error error)
  /-- A resource is not ready. -/
  | unready {result : Result Bool} (verdict : e.rules.verdicts s keys = result)
      (halt : result ≠ .ok true) (idle : e.Idle s t) : Check e owner keys s t result
  /-- The resources are ready, and the owner decides. -/
  | decided {u : MemoryStore} {result : Result Bool}
      (verdict : e.rules.verdicts s keys = .ok true)
      (answer : ((e.hooks.ownerReady owner).run.run u).1 = result) (idle : e.Idle s t) :
      Check e owner keys s t result

theorem Check.idle {owner : ω} {keys : List ObjectKey} {result : Result Bool}
    (h : Check e owner keys s t result) : e.Idle s t := by
  cases h <;> assumption

theorem checkReady_cases (calm : e.Harmless) (p : Progress ω) (s : MemoryStore) :
    ∃ result t, exec (checkReady e).run p s = ((result, p), t) ∧
      Check e p.owner p.resources.keys s t result := by
  obtain ⟨result, t, ran, same, still, outcome⟩ :=
    e.rules.areReady_cases s p.resources.keys
  have idle : e.Idle s t := ⟨same, fun _ => still⟩
  rw [exec_checkReady, calm.store, ran]
  rcases outcome with verdict | ⟨loud, error, rfl⟩
  · rcases result with error | _ | _
    · exact ⟨_, t, rfl, .unready verdict.symm nofun idle⟩
    · exact ⟨.ok false, t, rfl, .unready verdict.symm nofun idle⟩
    · exact ⟨_, _, rfl, .decided verdict.symm rfl (idle.trans (.ofOwnerReady calm p.owner t))⟩
  · exact ⟨.error error, t, rfl, .interrupted loud idle⟩

/-! ## All phases -/

/-- The ending of a pass whose phase of this name decides it. -/
def endingOf (name : String) (delay : Duration) : Result Bool → Ending
  | .ok true => .complete
  | .ok false => .halted name delay
  | .error error => .failed name delay error

/-- The pass went through all its phases. -/
def isComplete : Ending → Bool
  | .complete => true
  | _ => false

theorem isComplete_endingOf {name : String} {delay : Duration} {result : Result Bool}
    (halt : result ≠ .ok true) : isComplete (endingOf name delay result) = false := by
  rcases result with error | _ | _
  · rfl
  · rfl
  · exact absurd rfl halt

/-- What the standard phases come to. -/
inductive Phases [Owner ω] (e : Engine (StateM MemoryStore) ω) (p : Progress ω)
    (s t : MemoryStore) : Ending → List Attempt → Prop where
  | deleted (leaving : Owner.isDeleted p.owner = true) (idle : e.Idle s t) :
      Phases e p s t (.halted "PreFlight" defaultDelay) []
  | stopped {u v : MemoryStore} {result : Result Bool} {attempts : List Attempt}
      (staying : Owner.isDeleted p.owner = false) (before : e.Idle s u)
      (round : e.Round p.owner p.identity p.resources.manifests u v result attempts)
      (halt : result ≠ .ok true) (after : e.Idle v t) :
      Phases e p s t (endingOf "CreateResources" defaultDelay result) attempts
  | checked {u v w x : MemoryStore} {result : Result Bool} {attempts : List Attempt}
      (staying : Owner.isDeleted p.owner = false) (before : e.Idle s u)
      (round : e.Round p.owner p.identity p.resources.manifests u v (.ok true) attempts)
      (between : e.Idle v w) (check : Check e p.owner p.resources.keys w x result)
      (after : e.Idle x t) :
      Phases e p s t (endingOf "CheckReady" (.ofSeconds 5) result) attempts

theorem Phases.quiet [Owner ω] {ending : Ending} {attempts : List Attempt}
    (h : Phases e p s t ending attempts) (discreet : e.Discreet) (quiet : Quiet s) : Quiet t := by
  cases h with
  | deleted _ idle => exact idle.quiet discreet quiet
  | stopped _ before round _ after =>
    exact after.quiet discreet (round.quiet discreet (before.quiet discreet quiet))
  | checked _ before round between check after =>
    exact after.quiet discreet (check.idle.quiet discreet (between.quiet discreet
      (round.quiet discreet (before.quiet discreet quiet))))

/-- What happened before, and wrote nothing, can be counted in. -/
theorem Phases.after [Owner ω] {u : MemoryStore} {ending : Ending} {attempts : List Attempt}
    (h : Phases e p t u ending attempts) (idle : e.Idle s t) : Phases e p s u ending attempts := by
  cases h with
  | deleted leaving after => exact .deleted leaving (idle.trans after)
  | stopped staying before round halt after =>
    exact .stopped staying (idle.trans before) round halt after
  | checked staying before round between check after =>
    exact .checked staying (idle.trans before) round between check after

/-- Only the owner, its identity and its resources matter. -/
theorem Phases.congr [Owner ω] {p' : Progress ω} {ending : Ending}
    {attempts attempts' : List Attempt} (h : Phases e p' s t ending attempts)
    (follows : Follows p p' attempts') : Phases e p s t ending attempts := by
  cases h with
  | deleted leaving idle => exact .deleted (follows.owner ▸ leaving) idle
  | stopped staying before round halt after =>
    rw [follows.owner, follows.identity, follows.resources] at round
    exact .stopped (follows.owner ▸ staying) before round halt after
  | checked staying before round between check after =>
    rw [follows.owner, follows.identity, follows.resources] at round
    rw [follows.owner, follows.resources] at check
    exact .checked (follows.owner ▸ staying) before round between check after

theorem upsert_ne_nil {α κ : Type} [DecidableEq α] [DecidableEq κ] (key : α → κ) (now : String)
    (item : Dated α) (l : List (Dated α)) : (Dated.upsert key now item l).1 ≠ [] := by
  cases l with
  | nil => exact nofun
  | cons current rest =>
    unfold Dated.upsert
    split
    · split <;> exact nofun
    · exact nofun

/-- A phase that ends a pass leaves the owner unready, and its condition in the status. -/
theorem runAll_stopped (calm : e.Harmless) {phase : Phase (StateM MemoryStore) ω}
    (rest : List (Phase (StateM MemoryStore) ω)) {result : Result Bool} {p' : Progress ω}
    (ran : exec phase.run p s = ((result, p'), t)) (halt : result ≠ .ok true) :
    ∃ p'' u, (runAll e.now (phase :: rest) p).run s =
        ((endingOf phase.name phase.delay result, p''), u) ∧ Follows p' p'' [] ∧
      p''.status.ready = false ∧ p''.status.conditions ≠ [] ∧ e.Idle t u := by
  rw [runAll_cons, ran]
  rcases result with error | _ | _
  · exact ⟨_, _, rfl, (Follows.ofPhase _ _ p').trans (.ofStatus _ _), rfl,
      upsert_ne_nil _ _ _ _, .ofNow calm t⟩
  · exact ⟨_, _, rfl, (Follows.ofPhase _ _ p').trans (.ofStatus _ _), rfl,
      upsert_ne_nil _ _ _ _, .ofNow calm t⟩
  · exact absurd rfl halt

/-- The last phase makes the owner ready. -/
theorem runAll_complete (calm : e.Harmless) (p : Progress ω) (s : MemoryStore) :
    ∃ p' t, (runAll e.now [complete] p).run s = ((.complete, p'), t) ∧ Follows p p' [] ∧
      p'.status.ready = true ∧ p'.status.conditions ≠ [] ∧ e.Idle s t := by
  rw [runAll_cons, show exec (complete : Phase (StateM MemoryStore) ω).run p s =
    ((.ok true, p.setReady true), s) from rfl]
  exact ⟨_, _, rfl, (Follows.ofStatus _ p).trans (.ofPhase _ _ _), rfl, upsert_ne_nil _ _ _ _,
    .ofNow calm s⟩

/-- From the check for readiness on, the check decides. -/
theorem runAll_fromCheck (calm : e.Harmless) (p : Progress ω) (s : MemoryStore) :
    ∃ result p' u t, (runAll e.now [checkReady e, complete] p).run s =
        ((endingOf "CheckReady" (.ofSeconds 5) result, p'), t) ∧
      Follows p p' [] ∧
      p'.status.ready = isComplete (endingOf "CheckReady" (.ofSeconds 5) result) ∧
      p'.status.conditions ≠ [] ∧ Check e p.owner p.resources.keys s u result ∧ e.Idle u t := by
  obtain ⟨result, u, ran, check⟩ := checkReady_cases calm p s
  by_cases halt : result = .ok true
  · subst halt
    rw [runAll_cons, ran]
    dsimp only
    obtain ⟨p', t, all, follows, ready, conditions, idle⟩ := runAll_complete calm
      (p.notePhase (e.now.run u).1 (.complete (checkReady e).name)) (e.now.run u).2
    exact ⟨.ok true, p', u, t, all, (Follows.ofPhase _ _ p).trans follows, ready, conditions,
      check, (Engine.Idle.ofNow calm u).trans idle⟩
  · obtain ⟨p', t, all, follows, ready, conditions, idle⟩ := runAll_stopped calm _ ran halt
    exact ⟨result, p', u, t, all, follows, ready.trans (isComplete_endingOf halt).symm,
      conditions, check, idle⟩

variable [Owner ω]

theorem exec_preFlight (p : Progress ω) (s : MemoryStore) :
    exec (preFlight : Phase (StateM MemoryStore) ω).run p s =
      if Owner.isDeleted p.owner then ((.ok false, p), s)
      else ((.ok true, p.withStatus ({ · with dependenciesSatisfied := true })), s) := by
  unfold preFlight
  dsimp only
  rw [exec_bind_ok (show exec get p s = ((.ok p, p), s) from rfl)]
  split <;> rfl

/-- From the creation of the children on, the round over them decides, or the check after it. -/
theorem runAll_fromCreate (calm : e.Harmless) (p : Progress ω)
    (staying : Owner.isDeleted p.owner = false) (s : MemoryStore) :
    ∃ ending p' t attempts,
      (runAll e.now [createResources e, checkReady e, complete] p).run s = ((ending, p'), t) ∧
      Follows p p' attempts ∧ p'.status.ready = isComplete ending ∧
      p'.status.conditions ≠ [] ∧ Phases e p s t ending attempts := by
  obtain ⟨result, q, u, attempts, ran, follows, round⟩ :=
    e.ensureChildren_cases calm p.resources.manifests p s
  rw [← exec_createResources] at ran
  by_cases halt : result = .ok true
  · subst halt
    rw [runAll_cons, ran]
    dsimp only
    generalize noted : notePhase _ _ _ = q'
    have follows : Follows p q' attempts := follows.still (noted ▸ .ofPhase _ _ q)
    obtain ⟨result, p', v, t, all, follows', ready, conditions, check, idle⟩ :=
      runAll_fromCheck calm q' (e.now.run u).2
    rw [follows.owner, follows.resources] at check
    exact ⟨_, p', t, attempts, all, follows.still follows', ready, conditions,
      .checked staying (.refl s) round (.ofNow calm u) check idle⟩
  · obtain ⟨p', t, all, follows', ready, conditions, idle⟩ := runAll_stopped calm _ ran halt
    exact ⟨_, p', t, attempts, all, follows.still follows',
      ready.trans (isComplete_endingOf halt).symm, conditions,
      .stopped staying (.refl s) round halt idle⟩

/-- The standard phases come to one of these, and the owner is ready exactly after the last. -/
theorem runAll_standard (calm : e.Harmless) (p : Progress ω) (s : MemoryStore) :
    ∃ ending p' t attempts, (runAll e.now (standard e) p).run s = ((ending, p'), t) ∧
      Follows p p' attempts ∧ p'.status.ready = isComplete ending ∧
      p'.status.conditions ≠ [] ∧ Phases e p s t ending attempts := by
  unfold standard
  cases leaving : Owner.isDeleted p.owner with
  | true =>
    have ran : exec (preFlight : Phase (StateM MemoryStore) ω).run p s = ((.ok false, p), s) := by
      rw [exec_preFlight, if_pos leaving]
    obtain ⟨p', t, all, follows, ready, conditions, idle⟩ := runAll_stopped calm _ ran nofun
    exact ⟨_, p', t, _, all, follows, ready, conditions, .deleted leaving idle⟩
  | false =>
    have ran : exec (preFlight : Phase (StateM MemoryStore) ω).run p s =
        ((.ok true, p.withStatus ({ · with dependenciesSatisfied := true })), s) := by
      rw [exec_preFlight, leaving]
      rfl
    rw [runAll_cons, ran]
    dsimp only
    generalize noted : notePhase _ _ _ = q
    have follows : Follows p q [] := noted ▸ (Follows.ofStatus _ p).trans (.ofPhase _ _ _)
    obtain ⟨ending, p', t, attempts, all, follows', ready, conditions, phases⟩ :=
      runAll_fromCreate calm q (follows.owner ▸ leaving) (e.now.run s).2
    exact ⟨ending, p', t, attempts, all, follows.trans follows', ready, conditions,
      (phases.congr follows).after (.ofNow calm s)⟩

end DesiredState.Phase
