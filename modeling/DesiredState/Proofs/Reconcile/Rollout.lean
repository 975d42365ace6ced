import DesiredState.Proofs.Readiness.Generations
import DesiredState.Proofs.Reconcile.Withdrawal

/-!
# Changed workloads are waited for

A pass that makes a workload, or changes what the generation of a workload counts, is not done, and
it does not write that the owner is ready (`reconcileKey_awaits_rollout`).

The child's turn leaves an object whose status is not of its generation (`Effect.not_observed`). No
later child touches it, and the check for readiness comes after all of them, so it does not let the
pass go on to its last phase.
-/

namespace DesiredState

open Json MemoryStore

/-- The object was made, or changed in what its generation counts. -/
def Renewed : (before after : Option Json) → Prop
  | none, after => after.isSome = true
  | some live, some object => (counted object).same (counted live) = false
  | some _, none => False

instance : (before after : Option Json) → Decidable (Renewed before after)
  | none, after => inferInstanceAs (Decidable (after.isSome = true))
  | some live, some object =>
    inferInstanceAs (Decidable ((counted object).same (counted live) = false))
  | some _, none => inferInstanceAs (Decidable False)

theorem renewed_some {live object : Json} :
    Renewed (some live) (some object) ↔ (counted object).same (counted live) = false := Iff.rfl

theorem not_renewed_self (before : Option Json) : ¬ Renewed before before := by
  cases before with
  | none => exact Bool.false_ne_true
  | some live =>
    rw [renewed_some, same_self]
    exact nofun

/-- A workload that an attempt makes or changes has no status of its generation. -/
theorem Applier.Effect.not_observed {a : Applier} {wanted : Manifest} {owner : OwnerIdentity}
    {s t : MemoryStore} {attempt : Attempt} (h : a.Effect wanted owner s t attempt)
    (body : wanted.body.hasMetadata = true)
    (trails : ∀ live, s.object? wanted.key = some live → Trails live)
    (renewed : Renewed (s.object? wanted.key) (t.object? wanted.key)) :
    ∃ object, t.object? wanted.key = some object ∧ Rule.observed object = false := by
  have unchanged : SameObjects s t → False := fun same => by
    rw [← same] at renewed
    exact not_renewed_self _ renewed
  cases h with
  | failed _ same => exact (unchanged same).elim
  | conflicted _ _ _ same => exact (unchanged same).elim
  | left _ _ same => exact (unchanged same).elim
  | kept _ _ _ same => exact (unchanged same).elim
  | idle _ _ _ _ same => exact (unchanged same).elim
  | created u _ written =>
    exact ⟨_, (written _).trans (if_pos rfl), not_observed_made u _⟩
  | patched u live there _ _ written =>
    have last := (written wanted.key).trans (if_pos rfl)
    rw [there, last] at renewed
    have owned := (owner.metadata_attachTo body).1
    exact ⟨_, last, not_observed_changed u (trails live there)
      (Plan.metadata_document live (Plan.metadata_fitted live owned).1).1 renewed⟩

namespace Reconciler

variable {ω : Type} [Owner ω] {e : Engine (StateM MemoryStore) ω} {key : ObjectKey}
  {s t : MemoryStore} {pass : Pass}

/-- A write of the status renews no object. -/
theorem renewed_of_writeStatus (stored : e.store = MemoryStore.store) {live : Json}
    {before after : OwnerStatus} {written : Result Bool}
    (wrote : ((standard e).writeStatus key live before after).run s = (written, t))
    {k : ObjectKey} {first : Option Json} (renewed : Renewed first (t.object? k)) :
    Renewed first (s.object? k) := by
  rcases writeStatus_cases stored wrote with ⟨-, same⟩ | ⟨-, current, there, only⟩
  · rwa [same]
  · rw [only] at renewed
    split at renewed
    · rename_i mine
      rw [mine, there]
      cases first with
      | none => rfl
      | some first =>
        rwa [renewed_some, counted_restated] at renewed
    · exact renewed

/-- A pass in whose round a workload was made or changed is not done. -/
theorem Passes.not_done_of_renewed {start : Progress ω} {wanted : Manifest} (calm : e.Harmless)
    (rules : e.rules = .standard)
    (trails : ∀ k live, s.object? k = some live → k.groupKind ∈ workloadKinds → Trails live)
    (h : Passes e key s t pass) (starts : startAt e key s = some start)
    (mem : wanted ∈ start.resources.manifests)
    (accepted : Manifest.ofBody wanted.body = .ok wanted)
    (workload : wanted.key.groupKind ∈ workloadKinds)
    (renewed : Renewed (s.object? wanted.key) (t.object? wanted.key)) :
    pass.result ≠ .ok .done := by
  intro done
  obtain ⟨w, turns, verdicts, live, before, after, written, wrote⟩ :=
    h.turns_of_done calm starts done
  obtain ⟨_, -, u, v, applied, rfl, effect, began, left⟩ := exists_of_forall₂ turns mem
  have renewed' := renewed_of_writeStatus calm.store wrote renewed
  rw [← began, ← left] at renewed'
  obtain ⟨object, there, unobserved⟩ := effect.not_observed
    (Manifest.hasMetadata_of_ofBody accepted)
    (fun live there => trails _ live (began.symm.trans there) workload) renewed'
  obtain ⟨rule, assigned, observes⟩ := Rule.observed_of_ready workload
  rw [left] at there
  rw [rules] at verdicts
  have ready := Rulebook.rule_of_verdicts verdicts (List.mem_map_of_mem mem) there assigned
  rw [observes object _ ready] at unobserved
  cases unobserved

/-- A pass that makes a workload, or changes what its generation counts, is not done. It does not
make the owner ready, and if it writes the status, the owner does not say that it is. -/
theorem reconcileKey_awaits_rollout [LawfulOwner ω] {start : Progress ω} {wanted : Manifest}
    {b b' : Backoff} (calm : e.Harmless) (rules : e.rules = .standard)
    (trails : ∀ k live, s.object? k = some live → k.groupKind ∈ workloadKinds → Trails live)
    (ran : (((standard e).reconcileKey key).run b).run s = ((pass, b'), t))
    (starts : startAt e key s = some start) (mem : wanted ∈ start.resources.manifests)
    (accepted : Manifest.ofBody wanted.body = .ok wanted)
    (workload : wanted.key.groupKind ∈ workloadKinds)
    (renewed : Renewed (s.object? wanted.key) (t.object? wanted.key)) :
    pass.result ≠ .ok .done ∧ (pass.statusWritten = true → ¬ SaysReady key t) ∧
      (SaysReady key t → SaysReady key s) := by
  have trace := trace_of_reconcileKey calm.store ran
  have unfinished := (trace.passes calm).not_done_of_renewed calm rules trails starts mem accepted
    workload renewed
  obtain ⟨still, withdrawn, -⟩ := trace.withdraws calm.store calm.modest unfinished
  exact ⟨unfinished, withdrawn, still⟩

/-! ## An instance -/

section Instance

/-- A deployment of so many replicas. -/
def deploymentOf (replicas : Int) : Json :=
  .object [("apiVersion", .str "apps/v1"), ("kind", .str "Deployment"),
    ("metadata", .object [("name", .str "web"), ("namespace", .str "team")]),
    ("spec", .object [("replicas", .int replicas)])]

/-- The deployment that is wanted. -/
def deployed : Manifest :=
  ⟨.of ⟨"apps", "v1", "Deployment"⟩ (some "team") "web", deploymentOf 2⟩

/-- The store with the tenant and its deployment, which has the replicas that are wanted already,
but not because they are. -/
def rolledOut : MemoryStore :=
  ((MemoryStore.empty.insert ((deploymentOf 1).setMember "status"
    (.object [("observedGeneration", .int 1), ("readyReplicas", .int 2)]))).2.insert
      tenantDocument).2

theorem tenantPass_awaits_rollout :
    ((tenantPass [deployed] rolledOut).1.1.attempts = [.succeeded (.updated ⟨1, 1, 0⟩)] ∧
        (tenantPass [deployed] rolledOut).1.1.statusWritten = true) ∧
      (tenantPass [deployed] rolledOut).1.1.result ≠ .ok .done ∧
      ¬ SaysReady tenantKey (tenantPass [deployed] rolledOut).2 := by
  have trail : rolledOut.objects.toList.all (fun o =>
      decide (o.1.groupKind ∈ workloadKinds → Trails o.2)) = true := by decide +kernel
  have ran : tenantPass [deployed] rolledOut = (((tenantPass [deployed] rolledOut).1.1,
    (tenantPass [deployed] rolledOut).1.2), (tenantPass [deployed] rolledOut).2) := rfl
  have written : (tenantPass [deployed] rolledOut).1.1.statusWritten = true := by decide +kernel
  have started : (startAt (tenantEngine [deployed]) tenantKey rolledOut).isSome = true := by
    decide +kernel
  obtain ⟨start, starts⟩ := Option.isSome_iff_exists.1 started
  have mem : deployed ∈ start.resources.manifests :=
    manifests_tenantEngine starts ▸ List.mem_singleton_self deployed
  obtain ⟨unfinished, withdrawn, -⟩ := reconcileKey_awaits_rollout
    (harmless_tenantEngine [deployed]) rfl
    (fun k live there => of_decide_eq_true
      (List.all_eq_true.1 trail (k, live) (Entries.mem_toList_of_get? there)))
    ran starts mem rfl (by decide) (by decide +kernel)
  exact ⟨⟨by decide +kernel, written⟩, unfinished, withdrawn written⟩

end Instance

end Reconciler

end DesiredState
