import DesiredState.Proofs.Reconcile.Passes
import DesiredState.Tenant.Basic

/-!
# What a pass that is done has brought about

A pass that ends well leaves every resource in place: it is there, it covers what is wanted unless
its kind is immutable, and the rule of its kind holds of it (`reconcileKey_sound`).

The round over the children writes each key once at most, so what one child's application settles
no later one touches. The check for readiness writes nothing, and the status goes to the owner.
-/

namespace DesiredState

open Json Bookkeeping MemoryStore

/-! ## The round over the children -/

namespace Engine

variable {ω : Type} {e : Engine (StateM MemoryStore) ω} {owner : ω} {identity : OwnerIdentity}
  {s t : MemoryStore} {attempts : List Attempt}

/-- A round that went through puts every child in place. -/
theorem Round.inPlace {l : List Manifest} (h : Round e owner identity l s t (.ok true) attempts)
    (distinct : (l.map Manifest.key).Nodup) (smooth : .succeeded .conflicted ∉ attempts)
    {wanted : Manifest} (mem : wanted ∈ l) (plain : Plain wanted.body)
    (kept : ∀ live, s.object? wanted.key = some live → live.hasMetadata = true) :
    ∃ object, t.object? wanted.key = some object ∧
      e.applier.InPlace identity wanted (s.object? wanted.key) object := by
  obtain ⟨_, among, u, v, applied, rfl, effect, before, after⟩ :=
    exists_of_forall₂ (h.turns distinct) mem
  rw [← before] at kept ⊢
  obtain ⟨object, there, formed⟩ := effect.formed plain fun eq => smooth (eq ▸ among)
  exact ⟨object, after.symm.trans there, formed.inPlace plain kept⟩

end Engine

/-! ## The pass -/

namespace Reconciler

variable {ω : Type} [Owner ω] {e : Engine (StateM MemoryStore) ω} {key : ObjectKey}
  {s t : MemoryStore} {pass : Pass}

/-- A pass that went through all phases had a whole round, and found every resource ready. -/
theorem phases_complete {p : Progress ω} {attempts : List Attempt}
    (h : Phase.Phases e p s t .complete attempts) :
    ∃ u v, SameObjects s u ∧
      e.Round p.owner p.identity p.resources.manifests u v (.ok true) attempts ∧
      e.rules.verdicts t p.resources.keys = .ok true ∧ SameObjects v t := by
  generalize whole : Ending.complete = ending at h
  cases h with
  | deleted => cases whole
  | @stopped u v result attempts _ _ _ halt _ =>
    rcases result with error | _ | _
    · cases whole
    · cases whole
    · exact absurd rfl halt
  | @checked u v w x result attempts _ before round between check after =>
    have went : result = .ok true := by
      rcases result with error | _ | _
      · cases whole
      · cases whole
      · rfl
    subst went
    have same : SameObjects w t := SameObjects.trans check.idle.same after.same
    have verdict : e.rules.verdicts w p.resources.keys = .ok true := by
      generalize went : (Except.ok true : Result Bool) = result at check
      cases check with
      | interrupted => cases went
      | unready verdict halt => exact absurd went.symm halt
      | decided verdict => exact verdict.trans went
    refine ⟨u, v, before.same, round, ?_, SameObjects.trans between.same same⟩
    rw [← verdict]
    exact Rulebook.verdicts_congr _ fun k _ => (Rulebook.verdict_congr same k).symm

omit [Owner ω] in
/-- A pass that is done went through all its phases. -/
theorem complete_of_done {ending : Ending} {p : Progress ω} {written : Result Bool}
    (done : (Pass.ofEnding ending p written).result = .ok .done) : ending = .complete := by
  cases ending with
  | complete => rfl
  | halted => cases written <;> cases done
  | failed => cases done

/-- In a pass that is done every child had its turn, and was found ready before the status was
written. -/
theorem Passes.turns_of_done {start : Progress ω} (calm : e.Harmless) (h : Passes e key s t pass)
    (starts : startAt e key s = some start) (done : pass.result = .ok .done) :
    ∃ w, List.Forall₂ (Engine.Turn e.applier start.identity s w) start.resources.manifests
        pass.attempts ∧
      e.rules.verdicts w start.resources.keys = .ok true ∧
      ∃ live before after written,
        ((standard e).writeStatus key live before after).run w = (written, t) := by
  cases h with
  | unread => cases done
  | undecoded => cases done
  | ungathered => cases done
  | absent none =>
    obtain ⟨live, -, -, there, -⟩ := startAt_eq_some.1 starts
    rw [none] at there
    cases there
  | @ran live first p resources u v w ending attempts written _ decoded read starts' gathered phases
      follows _ _ wrote =>
    obtain rfl := Option.some.inj (starts'.symm.trans starts)
    obtain rfl := complete_of_done done
    have idle := idle_resources calm first.owner u
    rw [gathered] at idle
    obtain ⟨x, y, before, round, verdicts, after⟩ := phases_complete phases
    have same : SameObjects s x :=
      SameObjects.trans read.same (SameObjects.trans idle.same before)
    rw [show (Pass.ofEnding Ending.complete p written).attempts = attempts from
      follows.attempts.trans (by rw [attempts_ofLive decoded]; rfl)]
    exact ⟨w, (round.turns resources.distinct).imp fun _ _ turn => turn.congr same after, verdicts,
      live, _, _, written, wrote⟩

/-- The end of a pass that is done: there is no such owner, or every resource but the owner itself
is there, in place, and ready by the rule of its kind. -/
theorem reconcileKey_sound {b b' : Backoff} (calm : e.Harmless)
    (kept : ∀ k live, s.object? k = some live → live.hasMetadata = true)
    (ran : (((standard e).reconcileKey key).run b).run s = ((pass, b'), t))
    (done : pass.result = .ok .done) (smooth : .succeeded .conflicted ∉ pass.attempts) :
    s.object? key = none ∨ ∃ start, startAt e key s = some start ∧
      ∀ wanted ∈ start.resources.manifests, wanted.key ≠ key →
        Manifest.ofBody wanted.body = .ok wanted → isPlain wanted.body = true →
        ∃ object, t.object? wanted.key = some object ∧
          e.applier.InPlace start.identity wanted (s.object? wanted.key) object ∧
          ∀ rule, e.rules.rules.get? wanted.key.groupKind = some rule →
            (rule object (e.rules.expectedOf wanted.key)).value = .ok true := by
  obtain ⟨pass', t', ran', cases⟩ := pass_cases calm key s
  rw [run_reconcileKey _ ran'] at ran
  obtain ⟨rfl, rfl⟩ : pass' = pass ∧ t' = t :=
    ⟨(Prod.mk.inj (Prod.mk.inj ran).1).1, (Prod.mk.inj ran).2⟩
  cases cases with
  | unread => cases done
  | absent none => exact .inl none
  | undecoded => cases done
  | ungathered => cases done
  | @ran live start p resources u v w ending attempts written _ decoded read starts gathered phases
      follows _ _ wrote =>
    obtain rfl := complete_of_done done
    refine .inr ⟨_, starts, fun wanted mem ne accepted plain => ?_⟩
    have idle := idle_resources calm start.owner u
    rw [gathered] at idle
    obtain ⟨x, y, before, round, verdicts, after⟩ := phases_complete phases
    have same : SameObjects s x :=
      SameObjects.trans read.same (SameObjects.trans idle.same before)
    rw [show (Pass.ofEnding Ending.complete p written).attempts = attempts from
      follows.attempts.trans (by rw [attempts_ofLive decoded]; rfl)] at smooth
    have body := Plain.ofIsPlain (Manifest.hasMetadata_of_ofBody accepted) plain
    obtain ⟨object, placed, inPlace⟩ := round.inPlace resources.distinct smooth mem body
      fun live h => kept _ live ((same _).trans h)
    have last : t'.object? wanted.key = some object := by
      rw [← placed, after, writeStatus_elsewhere calm.store wrote ne]
    refine ⟨object, last, (same wanted.key).symm ▸ inPlace, fun rule assigned => ?_⟩
    have there : w.object? wanted.key = some object := (after _).symm.trans placed
    exact Rulebook.rule_of_verdicts verdicts (List.mem_map_of_mem mem) there assigned

/-! ## Instances -/

section Instances

open Applier

/-- A tenant as it is stored. -/
def tenantDocument : Json :=
  .object [("apiVersion", .str "tenancy.converge.dev/v1alpha1"), ("kind", .str "TenantNamespace"),
    ("metadata", .object [("name", .str "team"), ("uid", .str "team-uid")]),
    ("spec", .object [("namespace", .str "team")])]

def tenantKey : ObjectKey := .of Tenant.gvk none "team"

/-- An engine that wants these manifests for every tenant. -/
def tenantEngine (wanted : List Manifest) : Engine (StateM MemoryStore) Tenant :=
  ⟨store, .standard, .standard, .ofGenerator fun _ => .ok wanted, pure (.ofSeconds 0)⟩

theorem harmless_tenantEngine (wanted : List Manifest) : (tenantEngine wanted).Harmless :=
  ⟨rfl, fun _ _ _ _ => rfl, fun _ _ _ _ => rfl, fun _ _ _ => rfl, fun _ _ => rfl⟩

/-- A pass that wants one manifest starts with that one. -/
theorem manifests_tenantEngine {wanted : Manifest} {start : Progress Tenant}
    (starts : startAt (tenantEngine [wanted]) key s = some start) :
    start.resources.manifests = [wanted] := by
  obtain ⟨_, first, resources, -, -, gathered, rfl⟩ := startAt_eq_some.1 starts
  exact congrArg ResourceSet.manifests (Except.ok.inj gathered).symm

/-- The store with the tenant and its older settings. -/
def staffed : MemoryStore := (stocked.insert tenantDocument).2

/-- The pass over the tenant that wants these manifests. -/
def tenantPass (wanted : List Manifest) (s : MemoryStore) : (Pass × Backoff) × MemoryStore :=
  (((standard (tenantEngine wanted)).reconcileKey tenantKey).run .standard).run s

theorem tenantPass_sound :
    (startAt (tenantEngine [settings]) tenantKey staffed).map (·.resources.keys) =
        some [settings.key] ∧
      ∃ start, startAt (tenantEngine [settings]) tenantKey staffed = some start ∧
        ∀ wanted ∈ start.resources.manifests, wanted.key ≠ tenantKey →
          Manifest.ofBody wanted.body = .ok wanted → isPlain wanted.body = true →
          ∃ object, (tenantPass [settings] staffed).2.object? wanted.key = some object ∧
            Applier.standard.InPlace start.identity wanted (staffed.object? wanted.key) object ∧
            ∀ rule, Rulebook.standard.rules.get? wanted.key.groupKind = some rule →
              (rule object (Rulebook.standard.expectedOf wanted.key)).value = .ok true := by
  have metadata : staffed.objects.toList.all (·.2.hasMetadata) = true := by decide +kernel
  have ran : tenantPass [settings] staffed = (((tenantPass [settings] staffed).1.1,
    (tenantPass [settings] staffed).1.2), (tenantPass [settings] staffed).2) := rfl
  have there : staffed.object? tenantKey ≠ none := by
    rw [← Option.isSome_iff_ne_none]
    decide +kernel
  refine ⟨by decide +kernel, (reconcileKey_sound (harmless_tenantEngine [settings])
    (fun k live h => ?_) ran (by decide +kernel) (by decide +kernel)).resolve_left there⟩
  exact List.all_eq_true.1 metadata (k, live) (Entries.mem_toList_of_get? h)

/-- Settings that state a namespace which is empty. -/
def unplaced : Manifest :=
  ⟨.of ⟨"", "v1", "ConfigMap"⟩ none "settings",
    settingsOf [("namespace", .str "")] [("level", .str "debug")]⟩

/-- The store with the tenant and settings that are in no namespace. -/
def unplacedStore : MemoryStore :=
  ((MemoryStore.empty.insert (settingsOf [] [("level", .str "info")])).2.insert tenantDocument).2

/-- The namespace of a wanted object is no part of what has to be in place when the live object
has none. -/
theorem unplaced_left_out :
    (tenantPass [unplaced] unplacedStore).1.1.result = .ok .done ∧
      (tenantPass [unplaced] unplacedStore).1.1.attempts =
        [.succeeded (.updated ⟨1, 1, 0⟩)] ∧
      Manifest.ofBody unplaced.body = .ok unplaced ∧ isPlain unplaced.body = true ∧
      (startAt (tenantEngine [unplaced]) tenantKey unplacedStore).any (fun start =>
        start.resources.keys == [unplaced.key] &&
          ((tenantPass [unplaced] unplacedStore).2.object? unplaced.key).any fun object =>
            !Json.covers none (strip unplaced.kind object)
              (strip unplaced.kind (start.identity.attachTo unplaced.body))) = true := by
  refine ⟨by decide +kernel, by decide +kernel, rfl, by decide +kernel, by decide +kernel⟩

end Instances

end Reconciler

end DesiredState
