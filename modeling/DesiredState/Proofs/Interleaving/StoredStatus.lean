import DesiredState.Proofs.Interleaving.Sparing
import DesiredState.Proofs.Owner
import DesiredState.Proofs.Reconcile.Soundness
import Mathlib.Logic.Relation

/-!
# A stored status over many passes

Passes over one owner are made one after the other, each a program whose calls are mixed with
whatever else happens to the store, as long as it leaves the status of the owner alone. A pass may
end in any way, be broken off, or lose its write of the status. The stored status then never has two
conditions of one phase or of one resource, its conditions stay at their places, and no resource
that is marked as created loses the mark (`status_continues`).

1. What the phases do to a status keeps all this (`Grows.stable`).
2. They do it to the status that was read, while the stored one is spared; the write at the end of
   the pass comes upon the status that was read, so it goes on with it (`keeps_pass`).
3. Between the calls the others change nothing of it, so every move of the situation goes on with
   the status (`Sound.next`), and so does every course (`Sound.reaches`).
-/

namespace DesiredState

open Json MemoryStore Dialogue

/-! ## Statuses that grow -/

/-- A status without double conditions is gone on with, and has none later. -/
def OwnerStatus.Grows (s t : OwnerStatus) : Prop := s.Unique → t.Unique ∧ s.Continues t

namespace OwnerStatus.Grows

theorem refl (s : OwnerStatus) : s.Grows s := fun unique => ⟨unique, .refl s⟩

theorem trans {s t u : OwnerStatus} (h : s.Grows t) (h' : t.Grows u) : s.Grows u := fun unique =>
  have ⟨between, first⟩ := h unique
  have ⟨after, second⟩ := h' between
  ⟨after, first.trans second⟩

theorem setPhase (s : OwnerStatus) (now : String) (report : PhaseReport) :
    s.Grows (s.setPhase now (.undated report)).1 :=
  fun unique => ⟨unique_setPhase unique now report, continues_setPhase s now report⟩

/-- All that the standard phases do to a status lets it grow. -/
theorem stable : OwnerStatus.Stable OwnerStatus.Grows where
  refl := refl
  trans := trans
  ready _ _ unique :=
    ⟨⟨unique.phases, unique.resources⟩, ⟨List.prefix_rfl, List.prefix_rfl, fun _ => id⟩⟩
  dependencies _ _ unique :=
    ⟨⟨unique.phases, unique.resources⟩, ⟨List.prefix_rfl, List.prefix_rfl, fun _ => id⟩⟩
  resource _ now report kept unique :=
    ⟨unique_setResource unique now report, continues_setResource now kept⟩

end OwnerStatus.Grows

open OwnerStatus (Grows)

/-! ## Passes -/

namespace Reconciler

variable {ω τ : Type} {key : ObjectKey} {e : Engine (StateT τ Dialogue) ω} {status : OwnerStatus}

/-- A status write goes on with the status if the one that it writes does. -/
theorem keeps_writeStatus (store : e.store = storeWith τ) {phases : List (Phase _ ω)}
    (fields : Object) {after : OwnerStatus} (grows : status.Grows after) (t : τ) :
    (((⟨e, phases⟩ : Reconciler _ ω).writeStatus key (.obj fields) status after).run t).Keeps
      Grows key status := by
  unfold writeStatus
  split
  · trivial
  · dsimp only
    rw [store]
    refine follows_call (.updateStatus key _ _) _ t fun s read => ?_
    have goes : ∃ later,
        statusOf key (s.updateStatus key ((Json.obj fields).setMember "status" after.encode)).2 =
          some later ∧ status.Grows later := by
      rcases statusOf_updateStatus s fields after with same | written
      · exact ⟨status, same.trans read, .refl status⟩
      · exact ⟨after, written, grows⟩
    obtain ⟨later, stored, grows⟩ := goes
    refine ⟨later, stored, grows, ?_⟩
    rcases (s.answer (.updateStatus key _ _)).1 with error | object
    · dsimp only
      split <;> trivial
    · trivial

variable [Owner ω]

/-- The status that a pass starts with is the stored one. -/
theorem status_start [LawfulOwner ω] {s : MemoryStore} {fields : Object} {start : Progress ω}
    (there : s.object? key = some (.obj fields))
    (decoded : Progress.ofLive (.obj fields) = .ok start) :
    statusOf key s = some start.status := by
  obtain ⟨identity, read, -, eq⟩ := ofLive_eq_ok.1 decoded
  unfold statusOf
  rw [there, eq]
  exact OwnerStatus.ofMember?_of_optional (LawfulOwner.status read)

/-- From an owner that was read on, a pass goes on with the status. -/
theorem keeps_passOver (sparing : e.Sparing key) (fields : Object) (start : Progress ω) (t : τ) :
    (((standard e).passOver key (.obj fields) start).run t).Keeps Grows key start.status := by
  refine follows_spared_bind Grows.refl (ensures_resources sparing.wants start.owner) t
    fun gathered genuine t => ?_
  cases gathered with
  | error error => trivial
  | ok resources =>
    have phases : ((Dialogue.sparing key).withState τ).ensures
        (Phase.runAll e.now (Phase.standard e) { start with resources }) fun r =>
          start.status.Grows r.2.status := by
      refine Guarantees.ensures_mono _ (Phase.ensures_runAll Grows.stable Grows.setPhase sparing.now
        fun phase mem q same => ?_) fun r led => led.status
      refine Phase.ensures_standard Grows.stable sparing.within mem fun wanted mem => ?_
      rw [same] at mem
      exact sparing.applies (genuine wanted mem)
    refine follows_spared_bind Grows.refl phases t fun r grows t => ?_
    exact keeps_bind (keeps_writeStatus sparing.store fields grows t) fun _ _ => trivial

/-- A pass goes on with the stored status, whatever else happens to the store meanwhile. -/
theorem keeps_pass [LawfulOwner ω] (sparing : e.Sparing key) (status : OwnerStatus) (t : τ) :
    (((standard e).pass key).run t).Keeps Grows key status := by
  unfold pass
  rw [show (standard e).engine.store = storeWith τ from sparing.store]
  refine follows_call (.get key) _ t fun s read =>
    ⟨status, (statusOf_get s key).trans read, .refl status, ?_⟩
  rw [show s.answer (.get key) = s.get key from rfl]
  rcases get_cases s key with ⟨error, u, got, -⟩ | ⟨u, got, -⟩
  all_goals rw [got]
  · trivial
  · cases there : s.object? key with
    | none => trivial
    | some live =>
      cases decoded : Progress.ofLive (ω := ω) live with
      | error error =>
        simp only [decoded]
        trivial
      | ok start =>
        obtain ⟨identity, owner, -⟩ := ofLive_eq_ok.1 decoded
        obtain ⟨fields, rfl⟩ := eq_obj_of_isObject (isObject_of_hasMetadata
          (Owner.hasMetadata_of_decode owner))
        obtain rfl := Option.some.inj (read.symm.trans (status_start there decoded))
        simp only [decoded]
        exact keeps_passOver sparing fields start t

/-- A call for the owner as a program that comes to its pass. Held without interruption it is the
pass on the store in memory. -/
def program (e : Engine (StateT τ Dialogue) ω) (key : ObjectKey) (b : Backoff) (t : τ) :
    Dialogue Pass :=
  (fun ran => ran.1.1) <$> (((standard e).reconcileKey key).run b).run t

theorem keeps_program [LawfulOwner ω] (sparing : e.Sparing key) (status : OwnerStatus)
    (b : Backoff) (t : τ) : (program e key b t).Keeps Grows key status := by
  refine keeps_bind (keeps_bind (keeps_bind (keeps_pass sparing status t) fun _ _ => trivial)
    fun ran later => ?_) fun _ _ => trivial
  obtain ⟨⟨pass, b⟩, t⟩ := ran
  show Keeps Grows key ((_ : StateT τ Dialogue _).run t) later
  cases pass.found <;> trivial

end Reconciler

/-! ## Situations -/

/-- A store, and what is left of the pass that is going on, if there is one. -/
structure Situation where
  store : MemoryStore
  rest : Option (Dialogue Pass)

namespace Situation

variable {ω : Type} [Owner ω] {key : ObjectKey} {x y z : Situation} {status : OwnerStatus}

/-- What can happen next to an owner of this kind. -/
inductive Next (ω : Type) [Owner ω] (key : ObjectKey) : Situation → Situation → Prop where
  /-- Others change the store, but not the status of the owner. -/
  | others {s t : MemoryStore} {rest : Option (Dialogue Pass)}
      (spared : statusOf key t = statusOf key s) : Next ω key ⟨s, rest⟩ ⟨t, rest⟩
  /-- A pass begins, with an engine and a state of its own. -/
  | begins {s : MemoryStore} {τ : Type} {e : Engine (StateT τ Dialogue) ω}
      (sparing : e.Sparing key) (b : Backoff) (t : τ) :
      Next ω key ⟨s, none⟩ ⟨s, some (Reconciler.program e key b t)⟩
  /-- The pass makes its next call. -/
  | calls {s : MemoryStore} {call : Call} {next : call.Answer → Dialogue Pass} :
      Next ω key ⟨s, some (.ask call next)⟩ ⟨(s.answer call).2, some (next (s.answer call).1)⟩
  /-- The pass is over or broken off. -/
  | ends {s : MemoryStore} {rest : Option (Dialogue Pass)} : Next ω key ⟨s, rest⟩ ⟨s, none⟩

/-- The status is stored, and the pass that is going on goes on with it. -/
structure Sound (key : ObjectKey) (x : Situation) (status : OwnerStatus) : Prop where
  stored : statusOf key x.store = some status
  keeps : ∀ d, x.rest = some d → d.Keeps Grows key status

theorem Sound.next [LawfulOwner ω] (sound : x.Sound key status) (h : Next ω key x y) :
    ∃ status', y.Sound key status' ∧ status.Grows status' := by
  obtain ⟨stored, keeps⟩ := sound
  cases h with
  | others spared => exact ⟨status, ⟨spared.trans stored, keeps⟩, .refl status⟩
  | begins sparing b t =>
    refine ⟨status, ⟨stored, fun d eq => ?_⟩, .refl status⟩
    rw [← Option.some.inj eq]
    exact Reconciler.keeps_program sparing status b t
  | calls =>
    obtain ⟨status', later, grows, rest⟩ := keeps _ rfl _ stored
    exact ⟨status', ⟨later, fun d eq => Option.some.inj eq ▸ rest⟩, grows⟩
  | ends => exact ⟨status, ⟨stored, nofun⟩, .refl status⟩

theorem Sound.reaches [LawfulOwner ω] (sound : x.Sound key status)
    (h : Relation.ReflTransGen (Next ω key) x y) :
    ∃ status', y.Sound key status' ∧ status.Grows status' := by
  induction h with
  | refl => exact ⟨status, sound, .refl status⟩
  | tail _ next ih =>
    obtain ⟨between, sound, first⟩ := ih
    obtain ⟨after, sound, second⟩ := sound.next next
    exact ⟨after, sound, first.trans second⟩

/-- From a stored status without double conditions, all later stored ones are so too, and each goes
on with all that were stored before it. -/
theorem status_continues [LawfulOwner ω] (idle : x.rest = none)
    (stored : statusOf key x.store = some status) (unique : status.Unique)
    (before : Relation.ReflTransGen (Next ω key) x y)
    (after : Relation.ReflTransGen (Next ω key) y z) :
    ∃ earlier later, statusOf key y.store = some earlier ∧ earlier.Unique ∧
      statusOf key z.store = some later ∧ later.Unique ∧ earlier.Continues later := by
  have sound : x.Sound key status := ⟨stored, fun d rest => by rw [idle] at rest; cases rest⟩
  obtain ⟨earlier, sound, grows⟩ := sound.reaches before
  obtain ⟨later, sound', grows'⟩ := sound.reaches after
  have ⟨unique, _⟩ := grows unique
  have ⟨unique', continues⟩ := grows' unique
  exact ⟨earlier, later, sound.stored, unique, sound'.stored, unique', continues⟩

/-! ## An instance -/

section Instance

open Applier Reconciler

/-- A pass that is not interrupted reaches what holding it comes to. -/
theorem reaches_hold (d : Dialogue Pass) (s : MemoryStore) :
    Relation.ReflTransGen (Next ω key) ⟨s, some d⟩ ⟨(d.hold s).2, none⟩ := by
  induction d generalizing s with
  | done pass => exact .single .ends
  | ask call next ih => exact .head .calls (ih _ _)

/-- The engine that wants the settings for every tenant, and finds tenants ready or not. -/
def tenantProgram (ready : Bool) : Engine (StateT Unit Dialogue) Tenant where
  store := storeWith Unit
  applier := .standard
  rules := .standard
  hooks := { Hooks.ofGenerator fun _ => .ok [settings] with ownerReady := fun _ => return ready }
  now := return .ofSeconds 0

theorem sparing_tenantProgram (ready : Bool) : (tenantProgram ready).Sparing tenantKey where
  store := rfl
  wants := {
    generate := fun _ _ wanted m mem => by
      rw [← Except.ok.inj wanted] at mem
      obtain rfl := List.mem_singleton.1 mem
      rfl
    mutate := fun _ _ genuine => Guarantees.ensures_pure _ fun _ mem =>
      List.mem_singleton.1 mem ▸ genuine }
  mayApply _ _ := Guarantees.ensures_pure _ trivial
  ownerReady _ := Guarantees.ensures_pure _ trivial
  now := Guarantees.ensures_pure _ trivial

/-- The store after an uninterrupted pass over the tenant. -/
def afterPass (ready : Bool) (s : MemoryStore) : MemoryStore :=
  ((program (tenantProgram ready) tenantKey .standard ()).hold s).2

theorem reaches_afterPass (ready : Bool) (s : MemoryStore) :
    Relation.ReflTransGen (Next Tenant tenantKey) ⟨s, none⟩ ⟨afterPass ready s, none⟩ :=
  .head (.begins (sparing_tenantProgram ready) .standard ()) (reaches_hold _ s)

/-- The store after a pass that does not find the tenant ready. -/
def unready : MemoryStore := afterPass false staffed

/-- Then somebody touches the settings, and a pass completes. -/
def completed : MemoryStore := afterPass true (unready.touch settings.key).2

theorem tenant_status_continues :
    (statusOf tenantKey staffed = some .empty ∧ OwnerStatus.empty.Unique ∧
        (statusOf tenantKey unready).map (·.wasCreated settings.key) = some true) ∧
      ∃ earlier later, statusOf tenantKey unready = some earlier ∧ earlier.Unique ∧
        statusOf tenantKey completed = some later ∧ later.Unique ∧ earlier.Continues later := by
  have bare : statusOf tenantKey staffed = some .empty := by decide +kernel
  have unique : OwnerStatus.empty.Unique := by decide
  have touched : Next Tenant tenantKey ⟨unready, none⟩ ⟨(unready.touch settings.key).2, none⟩ :=
    .others (by decide +kernel)
  have first : Relation.ReflTransGen (Next Tenant tenantKey) ⟨staffed, none⟩ ⟨unready, none⟩ :=
    reaches_afterPass false staffed
  have second : Relation.ReflTransGen (Next Tenant tenantKey) ⟨unready, none⟩ ⟨completed, none⟩ :=
    .head touched (reaches_afterPass true _)
  have course := status_continues (x := ⟨staffed, none⟩) rfl bare unique first second
  dsimp only at course
  exact ⟨⟨bare, unique, by decide +kernel⟩, course⟩

end Instance

end Situation

end DesiredState
