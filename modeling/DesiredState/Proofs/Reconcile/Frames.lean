import DesiredState.Proofs.Reconcile.Passes

/-!
# What phases keep

A relation of earlier stores to later ones that is kept by every create and every patch, and by
whatever the hooks and the clock do, is kept by the phases of a pass, however they end
(`kept_standard`). Nothing is assumed of the hooks but that.
-/

namespace DesiredState

open MemoryStore

/-- The engine works on the store in memory, and all that its phases can do there keeps the
relation. -/
structure Engine.Carries {ω : Type} (e : Engine (StateM MemoryStore) ω)
    (R : MemoryStore → MemoryStore → Prop) : Prop extends e.Keeps R where
  stored : e.store = MemoryStore.store
  create : ∀ s key body, R s (s.create key body).2
  patch : ∀ s key document, R s (s.patch key document).2

namespace Engine.Carries

variable {ω : Type} {e : Engine (StateM MemoryStore) ω} {R : MemoryStore → MemoryStore → Prop}
  (carries : e.Carries R)

include carries

theorem within : e.Within carries.guarantees where
  get key := by
    rw [carries.stored]
    exact carries.allows_get key
  mayApply owner wanted s := ⟨carries.mayApply owner wanted s, trivial⟩
  ownerReady owner s := ⟨carries.ownerReady owner s, trivial⟩
  now s := ⟨carries.now s, trivial⟩

/-- Applying an object keeps what its calls keep. -/
theorem applies (wanted : Manifest) : e.Applies carries.guarantees wanted := by
  intro owner
  rw [carries.stored]
  exact Applier.allows_apply (carries.allows_get wanted.key)
    (fun body s => ⟨carries.create s wanted.key body, trivial⟩)
    fun _ patch _ _ s => ⟨carries.patch s wanted.key patch, trivial⟩

end Engine.Carries

theorem Phase.kept_standard {ω : Type} [Owner ω] {e : Engine (StateM MemoryStore) ω}
    {R : MemoryStore → MemoryStore → Prop} (carries : e.Carries R) (p : Progress ω)
    (s : MemoryStore) : R s ((runAll e.now (standard e) p).run s).2 := by
  refine (ensures_runAll (g := carries.guarantees) .any (fun _ _ _ => trivial) carries.within.now
    (fun phase mem q _ => ?_) s).1
  exact ensures_standard .any carries.within mem fun wanted _ => carries.applies wanted

end DesiredState
