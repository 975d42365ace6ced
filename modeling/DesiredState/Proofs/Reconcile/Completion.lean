import DesiredState.Proofs.Conditions
import DesiredState.Proofs.Reconcile.Passes

/-!
# Phases that go through

The steps of which phases are made that all proceed. A round over the children that goes through
is one application after the other (`exec_ensureChildren_iff`), and the phases are complete exactly
if such a round is followed by a check that finds everything ready (`runAll_standard_iff`).

The status is followed along: what a whole round says of each child, and that it says nothing
else (`Whole.child`, `Whole.status`).
-/

namespace DesiredState

open MemoryStore Step Progress

variable {ω : Type} {e : Engine (StateM MemoryStore) ω} {p p' : Progress ω} {s t : MemoryStore}

/-! ## Rounds over the children -/

namespace Engine

variable {wanted : Manifest} {l : List Manifest}

/-- The step of a child goes on exactly if the child is admitted and its application succeeds. -/
theorem exec_ensureChild_iff :
    exec (e.ensureChild wanted) p s = ((.ok true, p'), t) ↔
      ∃ u v applied, (e.hooks.mayApply p.owner wanted).run.run s = (.ok true, u) ∧
        (e.applier.apply e.store wanted p.identity).run u = (.succeeded applied, v) ∧
        p' = attempted e wanted (.succeeded applied) p v ∧ t = (e.now.run v).2 := by
  rcases answer : (e.hooks.mayApply p.owner wanted).run.run s with ⟨error | _ | _, u⟩
  · rw [exec_ensureChild_error answer]
    exact ⟨nofun, nofun⟩
  · rw [exec_ensureChild_waiting answer]
    exact ⟨nofun, nofun⟩
  · rcases ran : (e.applier.apply e.store wanted p.identity).run u with ⟨attempt, v⟩
    rw [exec_ensureChild_admitted answer, exec_bind, exec_applyChild ran]
    constructor
    · intro h
      cases attempt with
      | succeeded applied =>
        obtain ⟨eq, rfl⟩ := Prod.mk.inj h
        exact ⟨u, v, applied, rfl, ran, (Prod.mk.inj eq).2.symm, rfl⟩
      | notRead => cases h
      | notCreated => cases h
      | notPatched => cases h
    · rintro ⟨u', v', applied, same, ran', rfl, rfl⟩
      obtain ⟨-, rfl⟩ := Prod.mk.inj same
      obtain ⟨rfl, rfl⟩ := Prod.mk.inj (ran.symm.trans ran')
      rfl

/-- The steps of some children, all of which were applied. -/
inductive Whole (e : Engine (StateM MemoryStore) ω) :
    List Manifest → Progress ω → MemoryStore → Progress ω → MemoryStore → Prop where
  | nil (p : Progress ω) (s : MemoryStore) : Whole e [] p s p s
  | cons {wanted : Manifest} {rest : List Manifest} {p p' : Progress ω} {s t u v : MemoryStore}
      {applied : Applied} (answer : (e.hooks.mayApply p.owner wanted).run.run s = (.ok true, u))
      (ran : (e.applier.apply e.store wanted p.identity).run u = (.succeeded applied, v))
      (others : Whole e rest (attempted e wanted (.succeeded applied) p v) (e.now.run v).2 p' t) :
      Whole e (wanted :: rest) p s p' t

/-- A round goes through exactly if all children are applied. -/
theorem exec_ensureChildren_iff :
    exec (e.ensureChildren l) p s = ((.ok true, p'), t) ↔ Whole e l p s p' t := by
  constructor
  · intro h
    induction l generalizing p s with
    | nil =>
      obtain ⟨eq, rfl⟩ := Prod.mk.inj h
      obtain rfl := (Prod.mk.inj eq).2
      exact .nil p s
    | cons wanted rest ih =>
      rw [ensureChildren, exec_bind] at h
      rcases step : exec (e.ensureChild wanted) p s with ⟨⟨error | _ | _, q⟩, u⟩
      · rw [step] at h
        cases h
      · rw [step] at h
        cases h
      · rw [step] at h
        obtain ⟨v, w, applied, answer, ran, rfl, rfl⟩ := exec_ensureChild_iff.1 step
        exact .cons answer ran (ih h)
  · intro h
    induction h with
    | nil => rfl
    | cons answer ran _ ih =>
      rw [ensureChildren,
        exec_bind_ok (exec_ensureChild_iff.2 ⟨_, _, _, answer, ran, rfl, rfl⟩)]
      exact ih

namespace Whole

theorem follows (h : Whole e l p s p' t) : ∃ attempts, Follows p p' attempts := by
  induction h with
  | nil p s => exact ⟨[], .refl p⟩
  | @cons wanted rest p p' s t u v applied _ _ _ ih =>
    obtain ⟨attempts, later⟩ := ih
    exact ⟨_, ((Follows.ofAttempt (.succeeded applied) p).trans (.ofResource _ _ _)).trans later⟩

/-- A round has nothing to say but of the children. -/
theorem status (h : Whole e l p s p' t) :
    p'.status = { p.status with resources := p'.status.resources } ∧
      ∀ report : ResourceReport, report.resource ∉ l.map Manifest.key →
        p.status.StatesResource report → p'.status.StatesResource report := by
  induction h with
  | nil p s => exact ⟨rfl, fun _ _ => id⟩
  | cons _ _ _ ih =>
    refine ⟨ih.1, fun report new states => ?_⟩
    rw [List.map_cons, List.mem_cons, not_or] at new
    exact ih.2 report new.2
      (OwnerStatus.statesResource_setResource_of_ne states (Ne.symm new.1) _)

/-- A whole round is a round that went through. -/
theorem round (h : Whole e l p s p' t) (calm : e.Harmless) :
    ∃ attempts, Round e p.owner p.identity l s t (.ok true) attempts := by
  obtain ⟨result, q, u, attempts, ran, -, round⟩ := e.ensureChildren_cases calm l p s
  obtain ⟨eq, rfl⟩ := Prod.mk.inj (ran.symm.trans (exec_ensureChildren_iff.2 h))
  obtain ⟨rfl, rfl⟩ := Prod.mk.inj eq
  exact ⟨attempts, round⟩

/-- What a whole round does at one child: it finds the child as it was before the round, leaves it
as its application did, and states how that went. -/
theorem child (h : Whole e l p s p' t) (calm : e.Harmless) (discreet : e.Discreet)
    (distinct : (l.map Manifest.key).Nodup) (mem : wanted ∈ l) :
    ∃ u v w applied, (e.hooks.mayApply p.owner wanted).run.run u = (.ok true, v) ∧
      (e.applier.apply e.store wanted p.identity).run v = (.succeeded applied, w) ∧
      (Quiet s → Quiet u) ∧
      (∀ k, k = wanted.key ∨ k ∉ l.map Manifest.key → u.object? k = s.object? k) ∧
      t.object? wanted.key = w.object? wanted.key ∧
      p'.status.StatesResource (.attempted wanted.key true (.succeeded applied)) := by
  induction h with
  | nil => cases mem
  | @cons first rest p p' s t u v applied answer ran others ih =>
    rw [List.map_cons, List.nodup_cons] at distinct
    rcases List.mem_cons.1 mem with rfl | mem
    · obtain ⟨_, round⟩ := others.round calm
      refine ⟨s, u, v, applied, answer, ran, id, fun _ _ => rfl, ?_, ?_⟩
      · rw [round.frame distinct.1, ← calm.now v]
      · exact others.status.2 _ distinct.1 (OwnerStatus.statesResource_setResource _ _ _)
    · obtain ⟨_, step⟩ := (Whole.cons answer ran (.nil _ _)).round calm
      obtain ⟨u', v', w', applied', answer', ran', quiet, same, last, states⟩ :=
        ih distinct.2 mem
      refine ⟨u', v', w', applied', answer', ran', fun h => quiet (step.quiet discreet h),
        fun k mine => ?_, last, states⟩
      have other : k ≠ first.key := by
        rintro rfl
        rcases mine with eq | new
        · exact distinct.1 (eq ▸ List.mem_map_of_mem mem)
        · exact new List.mem_cons_self
      rw [same k (mine.imp_right fun new => fun h => new (List.mem_cons_of_mem _ h)),
        step.frame (by rwa [List.map_cons, List.map_nil, List.mem_singleton])]

end Whole

end Engine

/-! ## Phases -/

namespace Phase

theorem runAll_cons_iff {now : StateM MemoryStore Timestamp} {phase : Phase (StateM MemoryStore) ω}
    {rest : List (Phase (StateM MemoryStore) ω)} :
    (runAll now (phase :: rest) p).run s = ((.complete, p'), t) ↔
      ∃ q u, exec phase.run p s = ((.ok true, q), u) ∧
        (runAll now rest (q.notePhase (now.run u).1 (.complete phase.name))).run (now.run u).2 =
          ((.complete, p'), t) := by
  rw [runAll_cons]
  rcases exec phase.run p s with ⟨⟨error | _ | _, q⟩, u⟩
  · exact ⟨nofun, nofun⟩
  · exact ⟨nofun, nofun⟩
  · refine ⟨fun h => ⟨q, u, rfl, h⟩, ?_⟩
    rintro ⟨q', u', eq, h⟩
    simp only [Prod.mk.injEq, true_and] at eq
    obtain ⟨rfl, rfl⟩ := eq
    exact h

theorem exec_checkReady_iff :
    exec (checkReady e).run p s = ((.ok true, p'), t) ↔
      ∃ u, (e.rules.areReady e.store p.resources.keys).run.run s = (.ok true, u) ∧
        (e.hooks.ownerReady p.owner).run.run u = (.ok true, t) ∧ p' = p := by
  rw [exec_checkReady]
  rcases (e.rules.areReady e.store p.resources.keys).run.run s with ⟨error | _ | _, u⟩
  · exact ⟨nofun, nofun⟩
  · exact ⟨nofun, nofun⟩
  · dsimp only
    constructor
    · intro h
      obtain ⟨eq, rfl⟩ := Prod.mk.inj h
      obtain ⟨answer, rfl⟩ := Prod.mk.inj eq
      exact ⟨u, rfl, Prod.ext answer rfl, rfl⟩
    · rintro ⟨u', eq, answer, rfl⟩
      rw [(Prod.mk.inj eq).2, answer]

variable [Owner ω]

/-- The progress after the owner was found not to be leaving. -/
def admitted (now : Timestamp) (p : Progress ω) : Progress ω :=
  (p.withStatus ({ · with dependenciesSatisfied := true })).notePhase now (.complete "PreFlight")

/-- The phases are complete exactly if the owner is staying, all children are applied, and then
the rules and the owner find everything ready. -/
theorem runAll_standard_iff :
    (runAll e.now (standard e) p).run s = ((.complete, p'), t) ↔
      Owner.isDeleted p.owner = false ∧ ∃ q u v w,
        e.Whole p.resources.manifests (admitted (e.now.run s).1 p) (e.now.run s).2 q u ∧
        (e.rules.areReady e.store p.resources.keys).run.run (e.now.run u).2 = (.ok true, v) ∧
        (e.hooks.ownerReady p.owner).run.run v = (.ok true, w) ∧
        p' = ((((q.notePhase (e.now.run u).1 (.complete "CreateResources")).notePhase
          (e.now.run w).1 (.complete "CheckReady")).setReady true).notePhase
            (e.now.run (e.now.run w).2).1 (.complete "Complete")) ∧
        t = (e.now.run (e.now.run w).2).2 := by
  unfold standard
  rw [runAll_cons_iff, exec_preFlight]
  cases Owner.isDeleted p.owner with
  | true => exact ⟨nofun, nofun⟩
  | false =>
    simp only [runAll_cons_iff, exec_createResources, Engine.exec_ensureChildren_iff,
      exec_checkReady_iff]
    constructor
    · rintro ⟨_, _, started, q, u, whole, _, w, ⟨v, ready, answer, rfl⟩, _, _, last, ended⟩
      obtain ⟨eq, rfl⟩ := Prod.mk.inj started
      obtain rfl := (Prod.mk.inj eq).2
      obtain ⟨eq, rfl⟩ := Prod.mk.inj last
      obtain rfl := (Prod.mk.inj eq).2
      obtain ⟨eq, rfl⟩ := Prod.mk.inj ended
      obtain rfl := (Prod.mk.inj eq).2
      obtain ⟨attempts, follows⟩ := whole.follows
      refine ⟨trivial, q, u, v, w, whole, ?_, ?_, rfl, rfl⟩
      · rw [show p.resources = q.resources from follows.resources.symm]
        exact ready
      · rw [show p.owner = q.owner from follows.owner.symm]
        exact answer
    · rintro ⟨-, q, u, v, w, whole, ready, answer, rfl, rfl⟩
      obtain ⟨attempts, follows⟩ := whole.follows
      refine ⟨_, _, rfl, q, u, whole, _, w, ⟨v, ?_, ?_, rfl⟩, _, _, rfl, rfl⟩
      · rw [show p.resources = q.resources from follows.resources.symm] at ready
        exact ready
      · rw [show p.owner = q.owner from follows.owner.symm] at answer
        exact answer

end Phase

end DesiredState
