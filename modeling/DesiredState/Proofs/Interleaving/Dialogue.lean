import DesiredState.Proofs.Reconcile.Translation
import DesiredState.Store.Memory

/-!
# Programs as dialogues with a store

A dialogue is a program that is over or makes one call and goes on with the answer, so other
programs can take their turns between any two of its calls. Applying an object and writing a
status are such programs: they are what they are on any store, on the store whose operations are
single calls (`apply_dialogue`, `writeStatus_dialogue`). Held without interruption, a dialogue is
the program on the store in memory (`held`), be it an application, a status write or a whole pass
(`hold_apply`, `hold_writeStatus`, `hold_reconcileKey`).
-/

namespace DesiredState

/-- What a call is answered with. -/
abbrev Call.Answer : Call → Type
  | .get _ => Result (Option Json)
  | .create .. | .patch .. | .updateStatus .. => Result Json
  | .list .. => Result (List Json)

/-- A program that is over, or makes a call and goes on with the answer. -/
inductive Dialogue (α : Type) where
  | done (a : α)
  | ask (call : Call) (next : call.Answer → Dialogue α)

/-- The answer of a store to a call, and the store after it. -/
def MemoryStore.answer (s : MemoryStore) : (c : Call) → c.Answer × MemoryStore
  | .get key => s.get key
  | .create key body _ => s.create key body
  | .patch key patch _ => s.patch key patch
  | .list kind ns? => s.list kind ns?
  | .updateStatus key object _ => s.updateStatus key object

namespace Dialogue

variable {α β : Type}

def bind : Dialogue α → (α → Dialogue β) → Dialogue β
  | done a, f => f a
  | ask call next, f => ask call fun answer => (next answer).bind f

instance : Monad Dialogue where
  pure := done
  bind := bind

/-- A step that no check guards is no call. -/
instance : Absorbs Dialogue := ⟨fun x => done x.value⟩

/-- What the program came to, if it is over. -/
def report? : Dialogue α → Option α
  | done a => some a
  | ask .. => none

theorem report?_eq_some {d : Dialogue α} {a : α} : d.report? = some a ↔ d = done a := by
  cases d with
  | done b => exact ⟨fun h => congrArg done (Option.some.inj h), fun h => h ▸ rfl⟩
  | ask call next => exact ⟨nofun, nofun⟩

/-- The store whose operations are single calls. -/
def store : Store Dialogue where
  get key := ExceptT.mk (ask (.get key) done)
  create key body manager := ExceptT.mk (ask (.create key body manager) done)
  patch key patch manager := ExceptT.mk (ask (.patch key patch manager) done)
  list kind ns? := ExceptT.mk (ask (.list kind ns?) done)
  updateStatus key object manager := ExceptT.mk (ask (.updateStatus key object manager) done)

/-- Hold a dialogue with a store in memory, without interruption. -/
def hold : Dialogue α → MemoryStore → α × MemoryStore
  | done a, s => (a, s)
  | ask call next, s => (next (s.answer call).1).hold (s.answer call).2

theorem hold_bind (x : Dialogue α) (f : α → Dialogue β) (s : MemoryStore) :
    (x >>= f).hold s = (f (x.hold s).1).hold (x.hold s).2 := by
  induction x generalizing s with
  | done a => rfl
  | ask call next ih => exact ih _ _

/-- Dialogues as programs on the store in memory. -/
def held : Translation Dialogue (StateM MemoryStore) where
  map := hold
  map_pure _ := rfl
  map_bind x f := funext fun s => hold_bind x f s
  map_absorb _ := rfl

/-! ## Applications -/

/-- How an application goes on from its plan. -/
def carryOut (a : Applier) (key : ObjectKey) : Plan → Dialogue Attempt
  | .create body => ask (.create key body a.manager) fun created => done (.ofCreate created)
  | .leave => done (.succeeded .skippedImmutable)
  | .keep => done (.succeeded .unchanged)
  | .patch document difference =>
    ask (.patch key document a.manager) fun patched => done (.ofPatch difference patched)

/-- How an application goes on from what it read. -/
def afterLook (a : Applier) (wanted : Manifest) (owner : OwnerIdentity) :
    Result (Option Json) → Dialogue Attempt
  | .error e => done (.notRead e)
  | .ok live => carryOut a wanted.key (.of a.immutable (wanted.ownedBy owner) live)

/-- An application looks once and then makes at most one call. -/
theorem apply_dialogue (a : Applier) (wanted : Manifest) (owner : OwnerIdentity) :
    a.apply store wanted owner = ask (.get wanted.key) (afterLook a wanted owner) := by
  refine congrArg (ask _) (funext fun answer => ?_)
  rcases answer with e | live
  · rfl
  · show a.carryOut store wanted.key (.of a.immutable (wanted.ownedBy owner) live) =
      carryOut a wanted.key (.of a.immutable (wanted.ownedBy owner) live)
    cases Plan.of a.immutable (wanted.ownedBy owner) live <;> rfl

theorem hold_apply (a : Applier) (wanted : Manifest) (owner : OwnerIdentity) (s : MemoryStore) :
    (a.apply store wanted owner).hold s = (a.apply MemoryStore.store wanted owner).run s :=
  congrFun (held.map_apply a store wanted owner) s

/-! ## Writes of a status -/

/-- What a status write reports on the answer to its call. -/
def writeReport : Result Json → Result Bool
  | .ok _ => .ok true
  | .error error => if error.isConflict then .ok false else .error error

section Flush

variable {ω : Type} (key : ObjectKey) (live : Json) (before after : OwnerStatus)

/-- A status write makes one call, or none if the status did not change. -/
theorem writeStatus_dialogue {r : Reconciler Dialogue ω} (h : r.engine.store = store) :
    r.writeStatus key live before after =
      if before = after then done (.ok false)
      else
        ask (.updateStatus key (live.setMember "status" after.encode) r.engine.applier.manager)
          fun answer => done (writeReport answer) := by
  unfold Reconciler.writeStatus
  split
  · rfl
  · rw [h]
    refine congrArg (ask _) (funext fun answer => ?_)
    rcases answer with error | object
    · show (if error.isConflict then _ else _ : Dialogue (Result Bool)) = done (writeReport _)
      unfold writeReport
      dsimp only
      split <;> rfl
    · rfl

theorem hold_writeStatus (r : Reconciler Dialogue ω) (s : MemoryStore) :
    (r.writeStatus key live before after).hold s =
      ((held.reconciler r).writeStatus key live before after).run s :=
  congrFun (held.map_writeStatus r key live before after) s

end Flush

/-! ## Passes -/

section Passes

variable {ω τ : Type}

/-- The store of programs that have a state of their own. -/
def storeWith (τ : Type) : Store (StateT τ Dialogue) := store.lift StateT.lift

/-- The store in memory of programs that have a state of their own. -/
def heldStore (τ : Type) : Store (StateT τ (StateM MemoryStore)) :=
  MemoryStore.store.lift StateT.lift

theorem hold_reconcileKey [Owner ω] (e : Engine (StateT τ Dialogue) ω) (key : ObjectKey)
    (b : Backoff) (t : τ) (s : MemoryStore) :
    ((((Reconciler.standard e).reconcileKey key).run b).run t).hold s =
      ((((Reconciler.standard ((held.withState τ).engine e)).reconcileKey key).run b).run t).run
        s := by
  have pass := (held.withState τ).withState_reconcileKey (.standard e) key
  rw [Translation.reconciler_standard] at pass
  exact congrFun (congrFun (congrFun pass b) t) s

end Passes

end Dialogue

end DesiredState
