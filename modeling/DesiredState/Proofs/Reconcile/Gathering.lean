import DesiredState.Proofs.Reconcile.Passes
import DesiredState.Proofs.ResourceSet

/-!
# Gathering the resources of an owner

What an owner wants passes through a hook, one manifest after the other, whatever the hook does to
the world that it is asked in. The resources are gathered if the generator and every call of the
hook succeed, and the set then holds what the hook let through: each key once, where it first
arrived, with the manifest that arrived last (`resources_gathered`).
-/

namespace DesiredState

namespace Mutation

/-- What mutations put in, in order. A skipped one puts in nothing. -/
def joined (mutations : List Mutation) : List Manifest :=
  (mutations.filter fun m => !m.skip).flatMap replacements

theorem joined_cons (m : Mutation) (rest : List Mutation) :
    joined (m :: rest) = m.accepted ++ joined rest := by
  unfold joined accepted
  cases skipped : m.skip <;> simp [skipped]

end Mutation

namespace ResourceSet

theorem extend_append (s : ResourceSet) (l l' : List Manifest) :
    s.extend (l ++ l') = (s.extend l).extend l' := List.foldl_append

end ResourceSet

namespace Reconciler

variable {σ ω : Type} {r : Reconciler (StateM σ) ω} {owner : ω} {w v : σ}

/-- The hook is asked for one manifest after the other, each time in the world that it left, and
succeeds every time. -/
inductive Mutates (hooks : Hooks (StateM σ) ω) (owner : ω) :
    List Manifest → List Mutation → σ → σ → Prop where
  | nil (w : σ) : Mutates hooks owner [] [] w w
  | cons {wanted : Manifest} {rest : List Manifest} {mutation : Mutation}
      {mutations : List Mutation} {w v u : σ}
      (mutated : (hooks.mutate owner wanted).run.run w = (.ok mutation, v))
      (later : Mutates hooks owner rest mutations v u) :
      Mutates hooks owner (wanted :: rest) (mutation :: mutations) w u

/-- Gathering goes through if the hook does, and puts in what joins, in order. -/
theorem run_gather_iff {l : List Manifest} {set set' : ResourceSet} :
    (r.gather owner l set).run.run w = (.ok set', v) ↔
      ∃ mutations, Mutates r.engine.hooks owner l mutations w v ∧
        set' = set.extend (Mutation.joined mutations) := by
  induction l generalizing set set' w with
  | nil =>
    constructor
    · intro ran
      cases ran
      exact ⟨[], .nil _, rfl⟩
    · rintro ⟨mutations, mutates, rfl⟩
      cases mutates
      rfl
  | cons wanted rest ih =>
    rw [run_gather_cons]
    constructor
    · intro ran
      rcases mutated : (r.engine.hooks.mutate owner wanted).run.run w with ⟨error | mutation, u⟩
      · rw [mutated] at ran
        cases ran
      · rw [mutated] at ran
        obtain ⟨mutations, later, rfl⟩ := ih.1 ran
        refine ⟨mutation :: mutations, .cons mutated later, ?_⟩
        rw [Mutation.joined_cons, ResourceSet.extend_append]
    · rintro ⟨mutations, mutates, rfl⟩
      cases mutates with
      | cons mutated later =>
        rw [mutated, Mutation.joined_cons, ResourceSet.extend_append]
        exact ih.2 ⟨_, later, rfl⟩

/-- The resources are gathered if the generator and the hook go through. -/
theorem run_resources_iff {set : ResourceSet} :
    (r.resources owner).run.run w = (.ok set, v) ↔
      ∃ wanted mutations, r.engine.hooks.generate owner = .ok wanted ∧
        Mutates r.engine.hooks owner wanted mutations w v ∧
        set = .ofList (Mutation.joined mutations) := by
  unfold resources
  cases r.engine.hooks.generate owner with
  | error error =>
    constructor
    · intro ran
      cases ran
    · rintro ⟨_, _, generated, -⟩
      cases generated
  | ok wanted =>
    simp only [run_gather_iff, Except.ok.injEq, exists_and_left, exists_eq_left']
    rfl

/-- Resources are gathered just if the generator and every call of the hook succeed. The set then
has each key that joined once, where it first joined, with the manifest that joined last for it. So
it is for any additions to a set, which may be kept in two parts. -/
theorem resources_gathered (r : Reconciler (StateM σ) ω) (owner : ω) (w : σ) :
    ((∃ set v, (r.resources owner).run.run w = (.ok set, v)) ↔
      ∃ wanted mutations v, r.engine.hooks.generate owner = .ok wanted ∧
        Mutates r.engine.hooks owner wanted mutations w v) ∧
    (∀ set v, (r.resources owner).run.run w = (.ok set, v) ↔
      ∃ wanted mutations, r.engine.hooks.generate owner = .ok wanted ∧
        Mutates r.engine.hooks owner wanted mutations w v ∧
        set.manifests = ResourceSet.latest (Mutation.joined mutations)) ∧
    ∀ additions, ResourceSet.Kept additions (.built additions) (.built additions) := by
  refine ⟨⟨?_, ?_⟩, fun set v => ?_, ResourceSet.kept_built⟩
  · rintro ⟨set, v, ran⟩
    obtain ⟨wanted, mutations, generated, mutates, -⟩ := run_resources_iff.1 ran
    exact ⟨wanted, mutations, v, generated, mutates⟩
  · rintro ⟨wanted, mutations, v, generated, mutates⟩
    exact ⟨_, v, run_resources_iff.2 ⟨wanted, mutations, generated, mutates, rfl⟩⟩
  · simp only [run_resources_iff, ResourceSet.ext_iff, ResourceSet.manifests_ofList_eq]

end Reconciler

end DesiredState
