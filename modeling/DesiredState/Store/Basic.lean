import DesiredState.Error

/-!
# Stores of live objects

A store gives access to the live objects of a cluster by their keys. Its operations have effects
in some monad and may fail. Every write names the manager that it is made for.
-/

namespace DesiredState

/-- The operations on live objects. -/
structure Store (m : Type → Type) where
  /-- The live object, or none if there is none. -/
  get : ObjectKey → ExceptT Error m (Option Json)
  /-- Make an object that is not there yet. -/
  create : ObjectKey → (body : Json) → (manager : String) → ExceptT Error m Json
  /-- Apply a merge patch. A version that the patch states has to be the live one. -/
  patch : ObjectKey → (patch : Json) → (manager : String) → ExceptT Error m Json
  /-- The objects of a kind, in one namespace or in all of them. -/
  list : GroupVersionKind → (ns? : Option String) → ExceptT Error m (List Json)
  /-- Replace the status by that of `object`, which has to state the live version if any. -/
  updateStatus : ObjectKey → (object : Json) → (manager : String) → ExceptT Error m Json

namespace Store

variable {m n : Type → Type}

/-- The same operations among more effects. -/
def lift (up : {α : Type} → m α → n α) (s : Store m) : Store n where
  get key := ExceptT.mk (up (s.get key).run)
  create key body manager := ExceptT.mk (up (s.create key body manager).run)
  patch key patch manager := ExceptT.mk (up (s.patch key patch manager).run)
  list kind ns := ExceptT.mk (up (s.list kind ns).run)
  updateStatus key object manager := ExceptT.mk (up (s.updateStatus key object manager).run)

end Store

/-! ## Calls -/

/-- A call of a store operation. -/
inductive Call where
  | get (key : ObjectKey)
  | create (key : ObjectKey) (body : Json) (manager : String)
  | patch (key : ObjectKey) (patch : Json) (manager : String)
  | list (kind : GroupVersionKind) (ns? : Option String)
  | updateStatus (key : ObjectKey) (object : Json) (manager : String)

namespace Call

/-- The call can change what is stored. -/
def writes : Call → Bool
  | create .. | patch .. | updateStatus .. => true
  | get _ | list .. => false

end Call

namespace Store

variable {m : Type → Type} [Monad m]

/-- The same operations, each call noted before it is made. -/
def noting (note : Call → m Unit) (s : Store m) : Store m where
  get key := do note (.get key); s.get key
  create key body manager := do note (.create key body manager); s.create key body manager
  patch key patch manager := do note (.patch key patch manager); s.patch key patch manager
  list kind ns := do note (.list kind ns); s.list kind ns
  updateStatus key object manager := do
    note (.updateStatus key object manager)
    s.updateStatus key object manager

end Store

end DesiredState
