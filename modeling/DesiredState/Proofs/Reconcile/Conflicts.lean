import DesiredState.Proofs.Reconcile.Withdrawal

/-!
# Conflicts that are passed over

A conflict counts as a success, so it does not end the round over the children. If everything else
goes well, the pass is done, and a child that drifted before the pass is left as it was
(`reconcileKey_leaves_conflicted`). The status tells of a retry, but says that the owner is ready,
and nothing asks for another pass (`tenantPass_not_retried`).
-/

namespace DesiredState.Reconciler

open Applier Json MemoryStore Plan

variable {ω : Type} [Owner ω] {e : Engine (StateM MemoryStore) ω} {key : ObjectKey}
  {s t : MemoryStore} {pass : Pass}

/-- If a pass is done although an attempt ended in a conflict, some child that is not of an
immutable kind differed from what is wanted before the pass, and is the same after it. -/
theorem reconcileKey_leaves_conflicted {start : Progress ω} {b b' : Backoff} (calm : e.Harmless)
    (ran : (((standard e).reconcileKey key).run b).run s = ((pass, b'), t))
    (starts : startAt e key s = some start)
    (children : ∀ wanted ∈ start.resources.manifests, wanted.key ≠ key)
    (done : pass.result = .ok .done) (conflict : .succeeded .conflicted ∈ pass.attempts) :
    ∃ wanted ∈ start.resources.manifests, ∃ live,
      s.object? wanted.key = some live ∧ t.object? wanted.key = some live ∧
        e.applier.immutable.contains wanted.kind = false ∧
        (drift wanted.kind (fitted (start.identity.attachTo wanted.body) live) live).isEmpty =
          false := by
  obtain ⟨w, turns, -, live, before, after, written, wrote⟩ :=
    ((trace_of_reconcileKey calm.store ran).passes calm).turns_of_done calm starts done
  obtain ⟨wanted, mem, u, v, applied, eq, effect, began, left⟩ :=
    exists_of_forall₂ (List.Forall₂.flip turns) conflict
  injection eq with eq
  subst eq
  refine ⟨wanted, mem, ?_⟩
  cases effect with
  | failed failure => cases failure
  | @conflicted live there mutable drifted still =>
    refine ⟨live, began.symm.trans there, ?_, mutable, drifted⟩
    rw [writeStatus_elsewhere calm.store wrote (children wanted mem), ← left, ← still, there]

/-! ## An instance -/

section Instance

/-- The store with the tenant and its older settings, where the next patch meets a conflict. -/
def contested : MemoryStore := staffed.failNext .patch (.conflict "settings")

theorem tenantPass_leaves_conflicted :
    ((tenantPass [settings] contested).1.1.result = .ok .done ∧
        .succeeded .conflicted ∈ (tenantPass [settings] contested).1.1.attempts) ∧
      ∃ start, startAt (tenantEngine [settings]) tenantKey contested = some start ∧
        ∃ wanted ∈ start.resources.manifests, ∃ live,
          contested.object? wanted.key = some live ∧
          (tenantPass [settings] contested).2.object? wanted.key = some live ∧
          Applier.standard.immutable.contains wanted.kind = false ∧
          (drift wanted.kind (fitted (start.identity.attachTo wanted.body) live) live).isEmpty =
            false := by
  have ran : tenantPass [settings] contested = (((tenantPass [settings] contested).1.1,
    (tenantPass [settings] contested).1.2), (tenantPass [settings] contested).2) := rfl
  have done : (tenantPass [settings] contested).1.1.result = .ok .done := by decide +kernel
  have conflict : .succeeded .conflicted ∈ (tenantPass [settings] contested).1.1.attempts := by
    decide +kernel
  have started : (startAt (tenantEngine [settings]) tenantKey contested).isSome = true := by
    decide +kernel
  obtain ⟨start, starts⟩ := Option.isSome_iff_exists.1 started
  refine ⟨⟨done, conflict⟩, start, starts, reconcileKey_leaves_conflicted
    (harmless_tenantEngine [settings]) ran starts (fun wanted mem => ?_) done conflict⟩
  rw [manifests_tenantEngine starts] at mem
  obtain rfl := List.mem_singleton.1 mem
  decide

/-- A conflict is the one attempt of a pass that is done. The status tells of a retry, and the
tenant says that it is ready. -/
theorem tenantPass_not_retried :
    (tenantPass [settings] contested).1.1.attempts = [.succeeded .conflicted] ∧
      (tenantPass [settings] contested).1.1.result = .ok .done ∧
      (statusChange (tenantEngine [settings]) tenantKey contested).map
          (fun change => change.2.resources.map (·.content.message)) =
        some ["resource changed during update; retrying"] ∧
      SaysReady tenantKey (tenantPass [settings] contested).2 :=
  ⟨by decide +kernel, by decide +kernel, by decide +kernel, by decide +kernel⟩

end Instance

end DesiredState.Reconciler
