import DesiredState.Proofs.Reconcile.Translation
import DesiredState.Store.Memory

/-!
# Passes that break off

A pass may take steps that no check guards: it compares quantities, it works out how many replicas
to update, and the store in memory counts generations. A program that looks out for such steps
breaks off at the first one that leaves its word, and one that does not lets it come round. The
first breaks off or ends exactly as the second (`reconcileKey_endings`), so whatever holds of passes
on the store in memory holds of each pass there that does not break off.
-/

namespace DesiredState

namespace Tracked

/-- Programs with a state go on with what comes round. -/
def rounding (σ : Type) : Translation (StateT σ Tracked) (StateM σ) where
  map x := fun s => (x.run s).value
  map_pure _ := rfl
  map_bind _ _ := rfl
  map_absorb _ := rfl

/-- Programs with a state break off at the first step that leaves its word. -/
def breaking (σ : Type) : Translation (StateT σ Tracked) (StateT σ (Except Overflow)) where
  map x := fun s => (x.run s).checked
  map_pure _ := rfl
  map_bind x f := funext fun s => checked_bind (x.run s) fun r => (f r.1).run r.2
  map_absorb x := funext fun s => checked_bind x fun a => pure (a, s)

end Tracked

open Tracked

namespace MemoryStore

/-- The store in memory of programs that look out for steps without a check. -/
def checkedStore : Store (StateT MemoryStore (Except Overflow)) :=
  trackedStore.lift (breaking MemoryStore).map

/-- The store that notes when a step leaves its word does what the store does. -/
theorem lift_trackedStore : trackedStore.lift (rounding MemoryStore).map = store := rfl

end MemoryStore

namespace Reconciler

variable {ω : Type} [Owner ω] (e : Engine (StateT MemoryStore Tracked) ω) (key : ObjectKey)
  (b : Backoff) (s : MemoryStore)

/-- The pass of a translated engine is the translated pass. -/
theorem run_reconcileKey_translated {n : Type → Type} [Monad n] [Absorbs n]
    (h : Translation (StateT MemoryStore Tracked) (StateT MemoryStore n)) :
    (((standard (h.engine e)).reconcileKey key).run b).run s =
      (h.map (((standard e).reconcileKey key).run b)).run s := by
  have pass := h.withState_reconcileKey (standard e) key
  rw [Translation.reconciler_standard] at pass
  exact (congrFun (congrFun pass b) s).symm

/-- A pass that looks out for steps without a check breaks off, or it ends as the one that lets them
come round. -/
theorem reconcileKey_endings :
    (((standard ((breaking MemoryStore).engine e)).reconcileKey key).run b).run s =
        .error .overflow ∨
      (((standard ((breaking MemoryStore).engine e)).reconcileKey key).run b).run s =
        .ok ((((standard ((rounding MemoryStore).engine e)).reconcileKey key).run b).run s) := by
  have rounds := run_reconcileKey_translated e key b s (n := Id) (rounding MemoryStore)
  rw [run_reconcileKey_translated e key b s (breaking MemoryStore), rounds]
  exact checked_cases ((((standard e).reconcileKey key).run b).run s)

end Reconciler

end DesiredState
