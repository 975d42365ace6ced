import DesiredState.Proofs.Conditions
import DesiredState.Proofs.Interleaving.Dialogue
import DesiredState.Proofs.Plan
import DesiredState.Proofs.Reconcile.Guarantees
import DesiredState.Proofs.Status
import DesiredState.Proofs.Store.Memory

/-!
# Programs that share a status with others

Of a stored status a program knows what it does to it itself, as long as the others leave it alone.
`Follows` says so of programs: whatever else happens to the store between any two calls, each call
changes the status along a relation. A program spares the status if none of its calls changes it.
Reading, making and patching objects spares every status (`statusOf_create`, `statusOf_patch`), and
so does applying them (`Engine.Sparing.applies`); only a status write changes it
(`statusOf_updateStatus`).
-/

namespace DesiredState

open Json

/-! ## The status of a stored object -/

namespace OwnerStatus

/-- The status of an owner by its member for it, if it can be read. Without one it is empty. -/
def ofMember? : Option Json → Option OwnerStatus
  | none | some .null => some .empty
  | some status => (decode status).toOption

theorem ofMember?_encode (status : OwnerStatus) :
    ofMember? (some status.encode) = some status := by
  show (decode status.encode).toOption = some status
  rw [decode_encode]
  rfl

theorem ofMember?_of_optional {fields : Object} {status : Option OwnerStatus}
    (h : fields.optional "status" decode = .ok status) :
    ofMember? (fields.get? "status") = some (status.getD .empty) := by
  unfold Object.optional at h
  split at h
  · rename_i there
    rw [there, ← Except.ok.inj h]
    rfl
  · rename_i v some there
    rw [there]
    cases read : decode v with
    | error error => rw [read] at h; cases h
    | ok found =>
      rw [read] at h
      rw [← Except.ok.inj h]
      cases v with
      | null => exact absurd rfl some
      | _ => exact congrArg Except.toOption read
  · rename_i absent
    rw [absent, ← Except.ok.inj h]
    rfl

end OwnerStatus

namespace MemoryStore

variable {s t : MemoryStore} {key : ObjectKey}

/-- The status of a stored object, if it can be read. It is empty without the object. -/
def statusOf (key : ObjectKey) (s : MemoryStore) : Option OwnerStatus :=
  OwnerStatus.ofMember? ((s.object? key).bind (·.member? "status"))

theorem statusOf_same (same : SameObjects s t) : statusOf key t = statusOf key s := by
  unfold statusOf
  rw [same]

/-- A write of an object spares the status if the object has the same one. -/
theorem statusOf_written {k : ObjectKey} {object : Json} (only : Written s t k object)
    (kept : object.member? "status" = (s.object? k).bind (·.member? "status")) :
    statusOf key t = statusOf key s := by
  unfold statusOf
  rw [only]
  by_cases mine : key = k
  · subst mine
    rw [if_pos rfl]
    exact congrArg OwnerStatus.ofMember? kept
  · rw [if_neg mine]

theorem statusOf_get (s : MemoryStore) (k : ObjectKey) :
    statusOf key (s.get k).2 = statusOf key s := by
  rcases get_cases s k with ⟨e, t, ran, same⟩ | ⟨t, ran, same⟩
  all_goals
    rw [ran]
    exact statusOf_same same

theorem statusOf_create (s : MemoryStore) (k : ObjectKey) (body : Json) :
    statusOf key (s.create k body).2 = statusOf key s := by
  rcases create_cases s k body with ⟨e, t, ran, same⟩ | ⟨t, ran, absent, only⟩
  · rw [ran]
    exact statusOf_same same
  · rw [ran]
    refine statusOf_written only ?_
    rw [status_made, absent]
    rfl

theorem statusOf_patch (s : MemoryStore) (k : ObjectKey) {patch : Json}
    (h : patch.hasMetadata = true) : statusOf key (s.patch k patch).2 = statusOf key s := by
  rcases patch_cases s k patch with ⟨e, t, ran, same⟩ | ⟨live, there, -, ⟨t, ran, -, same⟩ |
    ⟨t, ran, -, only⟩⟩
  · rw [ran]
    exact statusOf_same same
  · rw [ran]
    exact statusOf_same same
  · rw [ran]
    refine statusOf_written only ?_
    rw [there, changed, status_stamped, member?_merged live h (by decide), if_pos rfl]
    rfl

/-- After a status write the status is the one that was written, or as it was. -/
theorem statusOf_updateStatus (s : MemoryStore) (fields : Object) (status : OwnerStatus) :
    statusOf key (s.updateStatus key ((obj fields).setMember "status" status.encode)).2 =
        statusOf key s ∨
      statusOf key (s.updateStatus key ((obj fields).setMember "status" status.encode)).2 =
        some status := by
  rcases updateStatus_cases s key ((obj fields).setMember "status" status.encode) with
    ⟨e, t, ran, same⟩ | ⟨live, t, there, -, ran, only⟩
  · rw [ran]
    exact .inl (statusOf_same same)
  · rw [ran]
    rcases status_restated s live fields status.encode with ⟨bare, still⟩ | stated
    · refine .inl (statusOf_written only ?_)
      rw [bare, there]
      exact still.symm
    · refine .inr ?_
      unfold statusOf
      rw [only, if_pos rfl]
      exact (congrArg OwnerStatus.ofMember? stated).trans (OwnerStatus.ofMember?_encode status)

end MemoryStore

/-! ## Programs -/

namespace Dialogue

open MemoryStore

variable {α β τ : Type} {key : ObjectKey} {R : OwnerStatus → OwnerStatus → Prop}
  {status : OwnerStatus} {x : Dialogue α} {f : α → Dialogue β} {P : α → OwnerStatus → Prop}
  {Q : β → OwnerStatus → Prop}

/-- As long as nobody else changes the status of the object, every call of the program changes it
along the relation, and the program ends with such a result and status. -/
def Follows (R : OwnerStatus → OwnerStatus → Prop) (key : ObjectKey) :
    Dialogue α → OwnerStatus → (α → OwnerStatus → Prop) → Prop
  | done a, status, Q => Q a status
  | ask call next, status, Q => ∀ s, statusOf key s = some status →
    ∃ status', statusOf key (s.answer call).2 = some status' ∧ R status status' ∧
      (next (s.answer call).1).Follows R key status' Q

theorem follows_bind (first : x.Follows R key status P)
    (rest : ∀ a status', P a status' → (f a).Follows R key status' Q) :
    (x >>= f).Follows R key status Q := by
  induction x generalizing status with
  | done a => exact rest a status first
  | ask call next ih =>
    intro s read
    obtain ⟨status', after, related, first⟩ := first s read
    exact ⟨status', after, related, ih _ first⟩

theorem follows_mono {Q : α → OwnerStatus → Prop} (h : x.Follows R key status P)
    (ends : ∀ a status', P a status' → Q a status') : x.Follows R key status Q := by
  induction x generalizing status with
  | done a => exact ends a status h
  | ask call next ih =>
    intro s read
    obtain ⟨status', after, related, h⟩ := h s read
    exact ⟨status', after, related, ih _ h⟩

/-- Every call of the program changes the status along the relation. -/
abbrev Keeps (R : OwnerStatus → OwnerStatus → Prop) (key : ObjectKey) (x : Dialogue α)
    (status : OwnerStatus) : Prop :=
  x.Follows R key status fun _ _ => True

theorem keeps_bind (first : x.Keeps R key status)
    (rest : ∀ a status', (f a).Keeps R key status') : (x >>= f).Keeps R key status :=
  follows_bind first fun a status' _ => rest a status'

/-- The programs none of whose calls changes the status, with what they result in. -/
def sparing (key : ObjectKey) : Guarantees Dialogue where
  ensures x Q := ∀ status, x.Follows Eq key status fun a _ => Q a
  ensures_pure h _ := h
  ensures_bind hx hf status := follows_bind (hx status) fun a status' ok => hf a ok status'
  ensures_mono hx h status := follows_mono (hx status) fun a _ => h a
  ensures_absorb h _ := h

/-- What spares the status follows any relation on the spot. -/
theorem follows_of_spares (refl : ∀ status, R status status) {Q : α → Prop}
    (h : (sparing key).ensures x Q) (status : OwnerStatus) :
    x.Follows R key status fun a status' => status' = status ∧ Q a := by
  have spared := h status
  clear h
  induction x with
  | done a => exact ⟨rfl, spared⟩
  | ask call next ih =>
    intro s read
    obtain ⟨_, after, rfl, spared⟩ := spared s read
    exact ⟨status, after, refl status, ih _ spared⟩

/-- A program goes on as it may once a first part has spared the status. -/
theorem follows_spared_bind (refl : ∀ status, R status status) {x : StateT τ Dialogue α}
    {f : α → StateT τ Dialogue β} {P : α → Prop} {Q : β × τ → OwnerStatus → Prop}
    (first : ((sparing key).withState τ).ensures x P) (t : τ)
    (rest : ∀ a, P a → ∀ t', ((f a).run t').Follows R key status Q) :
    ((x >>= f).run t).Follows R key status Q := by
  refine follows_bind (follows_of_spares refl (first t) status) ?_
  rintro ⟨a, t'⟩ _ ⟨rfl, ok⟩
  exact rest a ok t'

/-! ### Calls -/

/-- A program that begins with a call. -/
theorem follows_call (call : Call) (f : call.Answer → StateT τ Dialogue β) (t : τ)
    {Q : β × τ → OwnerStatus → Prop}
    (h : ∀ s, statusOf key s = some status → ∃ status',
      statusOf key (s.answer call).2 = some status' ∧ R status status' ∧
        ((f (s.answer call).1).run t).Follows R key status' Q) :
    ((StateT.lift (ask call done) >>= f).run t).Follows R key status Q := h

theorem spares_ask (call : Call) (h : ∀ s, statusOf key (s.answer call).2 = statusOf key s) :
    (sparing key).Allows (ask call done) :=
  fun status s read => ⟨status, (h s).trans read, rfl, trivial⟩

theorem spares_get (k : ObjectKey) : (sparing key).Allows (store.get k).run :=
  spares_ask (.get k) fun s => statusOf_get s k

theorem spares_create (k : ObjectKey) (body : Json) (manager : String) :
    (sparing key).Allows (store.create k body manager).run :=
  spares_ask (.create k body manager) fun s => statusOf_create s k body

theorem spares_patch (k : ObjectKey) {patch : Json} (h : patch.hasMetadata = true)
    (manager : String) : (sparing key).Allows (store.patch k patch manager).run :=
  spares_ask (.patch k patch manager) fun s => statusOf_patch s k h

end Dialogue

/-! ## Engines -/

section Engines

open Dialogue

variable {ω τ : Type} {key : ObjectKey} {e : Engine (StateT τ Dialogue) ω}

/-- The manifest was read from its body. -/
def Manifest.Genuine (m : Manifest) : Prop := Manifest.ofBody m.body = .ok m

/-- An engine whose manifests were read from their bodies, and whose hooks and clock may do whatever
they like, but do not change the status of the object. They may have a state of their own. -/
structure Engine.Sparing (key : ObjectKey) (e : Engine (StateT τ Dialogue) ω) : Prop where
  store : e.store = storeWith τ
  wants : e.hooks.Wants ((sparing key).withState τ) Manifest.Genuine
  mayApply : ∀ owner wanted,
    ((sparing key).withState τ).Allows (e.hooks.mayApply owner wanted).run
  ownerReady : ∀ owner, ((sparing key).withState τ).Allows (e.hooks.ownerReady owner).run
  now : ((sparing key).withState τ).Allows e.now

namespace Engine.Sparing

variable (sparing : e.Sparing key)

include sparing

theorem within : e.Within ((Dialogue.sparing key).withState τ) where
  get k := by
    rw [sparing.store]
    exact Guarantees.allows_lift (spares_get k)
  mayApply := sparing.mayApply
  ownerReady := sparing.ownerReady
  now := sparing.now

/-- Applying an object spares the status. -/
theorem applies {wanted : Manifest} (genuine : wanted.Genuine) :
    e.Applies ((Dialogue.sparing key).withState τ) wanted := by
  intro owner
  have owned := (owner.metadata_attachTo (Manifest.hasMetadata_of_ofBody genuine)).1
  rw [sparing.store]
  exact Applier.allows_apply (Guarantees.allows_lift (spares_get _))
    (fun body => Guarantees.allows_lift (spares_create _ body _))
    fun _ patch _ plan =>
      Guarantees.allows_lift (spares_patch _ (Plan.hasMetadata_of_patch owned plan) _)

end Engine.Sparing

end Engines

end DesiredState
