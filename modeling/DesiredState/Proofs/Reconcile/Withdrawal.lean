import DesiredState.Proofs.Owner
import DesiredState.Proofs.Reconcile.Frames
import DesiredState.Proofs.Reconcile.Soundness

/-!
# When an owner stops being ready

A pass that gets to its phases and is not done withdraws what the owner said of its readiness,
unless the store refuses the write of the status (`reconcileKey_withdraws`). Nothing is assumed of
the hooks but that they do not make the owner say that it is ready.

1. No create and no patch makes an object say that it is ready (`saysReady_create`,
   `saysReady_patch`), so no phase does.
2. Phases that are not complete come to a status that is not ready (`ready_of_incomplete`).
3. That status is written, or it is the one that was stored.

A pass that does not get to its phases writes no status at all (`leavesReady_instances`).
-/

namespace DesiredState

open Json MemoryStore

variable {s t : MemoryStore} {key : ObjectKey}

/-! ## What stored objects say -/

namespace MemoryStore

/-- What the status of a stored object says of its readiness. -/
def readyFlag (key : ObjectKey) (s : MemoryStore) : Option Bool :=
  ((s.object? key).bind (·.path? ["status", "ready"])).bind asBool?

/-- The stored object says that it is ready. -/
def SaysReady (key : ObjectKey) (s : MemoryStore) : Prop := readyFlag key s = some true

instance : Decidable (SaysReady key s) := inferInstanceAs (Decidable (readyFlag key s = some true))

/-- The object does not start to say that it is ready. -/
def Withholds (key : ObjectKey) (s t : MemoryStore) : Prop := SaysReady key t → SaysReady key s

theorem saysReady_iff : SaysReady key s ↔
    ∃ live status, s.object? key = some live ∧ live.member? "status" = some status ∧
      status.member? "ready" = some (.bool true) := by
  unfold SaysReady readyFlag
  constructor
  · intro h
    obtain ⟨v, there, flag⟩ := Option.bind_eq_some_iff.1 h
    obtain ⟨live, stored, path⟩ := Option.bind_eq_some_iff.1 there
    obtain ⟨status, stated, path⟩ := Option.bind_eq_some_iff.1 path
    obtain ⟨w, ready, eq⟩ := Option.bind_eq_some_iff.1 path
    obtain rfl := Option.some.inj eq
    cases w with
    | bool b => exact ⟨live, status, stored, stated, by rw [ready, Option.some.inj flag]⟩
    | _ => cases flag
  · rintro ⟨live, status, stored, stated, ready⟩
    rw [stored]
    show ((live.member? "status").bind fun status => (status.member? "ready").bind some).bind _ = _
    rw [stated]
    show ((status.member? "ready").bind some).bind _ = _
    rw [ready]
    rfl

theorem Withholds.ofSame (same : SameObjects s t) : Withholds key s t := by
  unfold Withholds SaysReady readyFlag
  rw [same]
  exact id

/-- Only a status can say that an object is ready. -/
theorem Withholds.ofWritten {k : ObjectKey} {object : Json} (only : Written s t k object)
    (status : ∀ v, object.member? "status" = some v →
      ∃ live, s.object? k = some live ∧ live.member? "status" = some v) : Withholds key s t := by
  intro told
  obtain ⟨live, v, stored, stated, ready⟩ := saysReady_iff.1 told
  rw [only] at stored
  by_cases mine : key = k
  · subst mine
    rw [if_pos rfl] at stored
    obtain rfl := Option.some.inj stored
    obtain ⟨before, there, same⟩ := status v stated
    exact saysReady_iff.2 ⟨before, v, there, same, ready⟩
  · rw [if_neg mine] at stored
    exact saysReady_iff.2 ⟨live, v, stored, stated, ready⟩

theorem saysReady_create (s : MemoryStore) (k : ObjectKey) (body : Json) :
    Withholds key s (s.create k body).2 := by
  rcases create_cases s k body with ⟨_, t, ran, same⟩ | ⟨t, ran, -, only⟩
  · rw [ran]
    exact .ofSame same
  · rw [ran]
    refine .ofWritten only fun v stated => ?_
    rw [status_made] at stated
    cases stated

theorem saysReady_patch (s : MemoryStore) (k : ObjectKey) (patch : Json) :
    Withholds key s (s.patch k patch).2 := by
  rcases patch_cases s k patch with ⟨_, t, ran, same⟩ | ⟨live, there, -, ⟨t, ran, -, same⟩ |
    ⟨t, ran, -, only⟩⟩
  · rw [ran]
    exact .ofSame same
  · rw [ran]
    exact .ofSame same
  · rw [ran]
    refine .ofWritten only fun v stated => ?_
    rcases status_changed s live patch with eq | eq
    · exact ⟨live, there, eq.symm.trans stated⟩
    · rw [eq] at stated
      cases stated

end MemoryStore

variable {ω : Type} {e : Engine (StateM MemoryStore) ω}

/-- Hooks and a clock that write nothing make no object ready. -/
theorem Engine.Harmless.modest (calm : e.Harmless) : e.Keeps (Withholds key) where
  refl _ := id
  trans h h' := h ∘ h'
  get s k := .ofSame ((Engine.Idle.keeps calm).get s k).same
  mutate owner wanted s := .ofSame (calm.mutate owner wanted s)
  mayApply owner wanted s := .ofSame (calm.mayApply owner wanted s)
  ownerReady owner s := .ofSame (calm.ownerReady owner s)
  now s := .ofSame (calm.now s)

/-- If the hooks and the clock do not make the owner ready, no phase does. -/
theorem Engine.Keeps.carries (stored : e.store = MemoryStore.store)
    (modest : e.Keeps (Withholds key)) : e.Carries (Withholds key) :=
  { modest with stored, create := saysReady_create, patch := saysReady_patch }

/-- Phases that are not complete come to a status that is not ready. -/
theorem Phase.ready_of_incomplete {l : List (Phase (StateM MemoryStore) ω)}
    {p p' : Progress ω} {ending : Ending} (ran : (runAll e.now l p).run s = ((ending, p'), t))
    (incomplete : ending ≠ .complete) : p'.status.ready = false := by
  induction l generalizing p s with
  | nil => exact absurd (Prod.mk.inj (Prod.mk.inj ran).1).1.symm incomplete
  | cons phase rest ih =>
    rw [runAll_cons] at ran
    rcases first : Step.exec phase.run p s with ⟨⟨error | _ | _, q⟩, u⟩
    all_goals rw [first] at ran
    · rw [← (Prod.mk.inj (Prod.mk.inj ran).1).2]
      rfl
    · rw [← (Prod.mk.inj (Prod.mk.inj ran).1).2]
      rfl
    · exact ih ran

/-! ## Passes -/

namespace Reconciler

variable [Owner ω] {pass : Pass} {live : Json}

/-- An owner that says that it is ready is read so. -/
theorem ready_of_saysReady [LawfulOwner ω] {start : Progress ω} (there : s.object? key = some live)
    (decoded : Progress.ofLive live = .ok start) (told : SaysReady key s) :
    start.status.ready = true := by
  obtain ⟨_, v, stored, stated, ready⟩ := saysReady_iff.1 told
  obtain rfl := Option.some.inj (there.symm.trans stored)
  obtain ⟨identity, read, -, eq⟩ := ofLive_eq_ok.1 decoded
  obtain ⟨fields, rfl⟩ := eq_obj_of_isObject (isObject_of_hasMetadata
    (Owner.hasMetadata_of_decode read))
  obtain ⟨members, rfl⟩ := eq_obj_of_isObject (isObject_of_member ready)
  have status := LawfulOwner.status read
  rw [Object.optional_of_get? stated rfl] at status
  cases opened : OwnerStatus.decode (.obj members) with
  | error error => rw [opened] at status; cases status
  | ok found =>
    rw [opened] at status
    rw [eq]
    show ((Owner.status? start.owner).getD .empty).ready = true
    rw [← Except.ok.inj status]
    exact OwnerStatus.ready_of_decode opened ready

/-- After a write of a status that is not ready, the owner does not say that it is. -/
theorem not_saysReady_restated [LawfulOwner ω] {start : Progress ω} {current : Json}
    {status : OwnerStatus} (decoded : Progress.ofLive live = .ok start)
    (unready : status.ready = false)
    (only : MemoryStore.Written s t key
      (s.restated current (live.setMember "status" status.encode))) :
    ¬ SaysReady key t := by
  intro told
  obtain ⟨object, v, there, stated, ready⟩ := saysReady_iff.1 told
  rw [only, if_pos rfl] at there
  obtain rfl := Option.some.inj there
  obtain ⟨identity, read, -⟩ := ofLive_eq_ok.1 decoded
  obtain ⟨fields, rfl⟩ := eq_obj_of_isObject (isObject_of_hasMetadata
    (Owner.hasMetadata_of_decode read))
  rcases status_restated s current fields status.encode with ⟨eq, -⟩ | eq
  all_goals rw [eq] at stated
  · cases stated
  · obtain rfl := Option.some.inj stated
    obtain ⟨members, eq⟩ := eq_obj_of_isObject (isObject_of_member ready)
    have back := OwnerStatus.decode_encode status
    rw [eq] at back ready
    rw [OwnerStatus.ready_of_decode back ready] at unready
    cases unready

/-- The status that the phases of a pass start with, and the one that they come to, if the pass
gets so far. -/
def statusChange (e : Engine (StateM MemoryStore) ω) (key : ObjectKey) (s : MemoryStore) :
    Option (OwnerStatus × OwnerStatus) :=
  match s.get key with
  | (.ok (some live), t) =>
    match Progress.ofLive live with
    | .error _ => none
    | .ok start =>
      match ((standard e).resources start.owner).run.run t with
      | (.error _, _) => none
      | (.ok resources, u) =>
        let ((_, p), _) := (Phase.runAll e.now (Phase.standard e) { start with resources }).run u
        some (start.status, p.status)
  | _ => none

/-- A pass that is not done does not make its owner ready. If it writes the status, or gets to its
phases and has nothing to write, the owner does not say any more that it is ready. -/
theorem Trace.withdraws [LawfulOwner ω] (stored : e.store = MemoryStore.store)
    (modest : e.Keeps (Withholds key)) (h : Trace e key s t pass)
    (unfinished : pass.result ≠ .ok .done) :
    Withholds key s t ∧ (pass.statusWritten = true → ¬ SaysReady key t) ∧
      ∀ status, statusChange e key s = some (status, status) → ¬ SaysReady key t := by
  have read := modest.get s key
  unfold statusChange
  cases h with
  | absent => exact absurd rfl unfinished
  | unread got =>
    rw [got] at read
    simp only [got]
    exact ⟨read, nofun, nofun⟩
  | undecoded got decoded =>
    rw [got] at read
    simp only [got, decoded]
    exact ⟨read, nofun, nofun⟩
  | @ungathered live start error u got decoded gathered =>
    have built := kept_resources modest start.owner u
    rw [gathered] at built
    rw [got] at read
    simp only [got, decoded, gathered]
    exact ⟨modest.trans read built, nofun, nofun⟩
  | @ran live start p resources u v w ending written got decoded gathered all wrote =>
    have built := kept_resources modest start.owner u
    have played := Phase.kept_standard (modest.carries stored) { start with resources } v
    rw [got] at read
    rw [gathered] at built
    rw [all] at played
    simp only [got, decoded, gathered, all]
    have since : Withholds key s w := modest.trans read (modest.trans built played)
    have unready : ending ≠ .complete → p.status.ready = false := Phase.ready_of_incomplete all
    rcases writeStatus_cases stored wrote with ⟨kept, same⟩ | ⟨rfl, current, -, only⟩
    · have still : Withholds key s t := modest.trans since (.ofSame same)
      refine ⟨still, fun flag => absurd (statusWritten_ofEnding.1 flag) kept,
        fun status change told => ?_⟩
      obtain ⟨rfl, unchanged⟩ := Prod.mk.inj (Option.some.inj change)
      -- The owner was not ready when it was read.
      have ready := ready_of_saysReady (get_ok got).1 decoded (still told)
      rw [run_writeStatus stored, if_pos unchanged.symm] at wrote
      obtain rfl := (Prod.mk.inj wrote).1
      rw [← unchanged, unready fun whole => unfinished (by rw [whole]; rfl)] at ready
      cases ready
    · have withdrawn : ¬ SaysReady key t := not_saysReady_restated decoded
        (unready fun whole => unfinished (by rw [whole]; rfl)) only
      exact ⟨fun told => absurd told withdrawn, fun _ => withdrawn, fun _ _ => withdrawn⟩

/-- A pass over an owner that is not done does not make it ready. If it gets to its phases, and a
status that changed is written, the owner does not say any more that it is ready. -/
theorem reconcileKey_withdraws [LawfulOwner ω] {b b' : Backoff}
    (stored : e.store = MemoryStore.store) (modest : e.Keeps (Withholds key))
    (ran : (((standard e).reconcileKey key).run b).run s = ((pass, b'), t))
    (unfinished : pass.result ≠ .ok .done) :
    (SaysReady key t → SaysReady key s) ∧
      ∀ before after, statusChange e key s = some (before, after) →
        (before ≠ after → pass.statusWritten = true) → ¬ SaysReady key t := by
  obtain ⟨still, withdrawn, unchanged⟩ :=
    (trace_of_reconcileKey stored ran).withdraws stored modest unfinished
  refine ⟨still, fun before after change accepted => ?_⟩
  by_cases eq : before = after
  · exact unchanged after (eq ▸ change)
  · exact withdrawn (accepted eq)

/-! ## Instances -/

section Instances

open Applier

/-- The engine that wants settings for every tenant and never finds a tenant ready. -/
def hesitantEngine : Engine (StateM MemoryStore) Tenant :=
  { tenantEngine [settings] with
    hooks := { (tenantEngine [settings]).hooks with ownerReady := fun _ => return false } }

/-- A tenant that says that it is ready. -/
def readyDocument : Json := tenantDocument.setMember "status" (.object [("ready", .bool true)])

/-- The store with that tenant and its older settings. -/
def readyStore : MemoryStore := (stocked.insert readyDocument).2

/-- The pass over the tenant that is never found ready. -/
def hesitantPass (s : MemoryStore) : (Pass × Backoff) × MemoryStore :=
  (((standard hesitantEngine).reconcileKey tenantKey).run .standard).run s

theorem harmless_hesitantEngine : hesitantEngine.Harmless :=
  ⟨rfl, fun _ _ _ _ => rfl, fun _ _ _ _ => rfl, fun _ _ _ => rfl, fun _ _ => rfl⟩

theorem hesitantPass_withdraws :
    (SaysReady tenantKey readyStore ∧ (hesitantPass readyStore).1.1.statusWritten = true) ∧
      (hesitantPass readyStore).1.1.result = .ok (.requeueAfter (.ofSeconds 5)) ∧
      ¬ SaysReady tenantKey (hesitantPass readyStore).2 := by
  have ran : hesitantPass readyStore = (((hesitantPass readyStore).1.1,
    (hesitantPass readyStore).1.2), (hesitantPass readyStore).2) := rfl
  have started : (statusChange hesitantEngine tenantKey readyStore).isSome = true := by
    decide +kernel
  obtain ⟨⟨before, after⟩, change⟩ := Option.isSome_iff_exists.1 started
  have written : (hesitantPass readyStore).1.1.statusWritten = true := by decide +kernel
  exact ⟨⟨by decide +kernel, written⟩, by decide +kernel,
    (reconcileKey_withdraws rfl harmless_hesitantEngine.modest ran (by decide +kernel)).2 before
      after change fun _ => written⟩

/-- The pass over the tenant is not done, no write of the status is tried in it, and the tenant says
after it that it is ready. -/
def leavesReady (e : Engine (StateM MemoryStore) Tenant) (s : MemoryStore) : Bool :=
  let ran := (((standard e).reconcileKey tenantKey).run .standard).run s
  decide (ran.1.1.result ≠ .ok .done) && ran.2.calls .updateStatus == s.calls .updateStatus &&
    decide (SaysReady tenantKey ran.2)

/-- A tenant stays ready if a hook fails as its resources are gathered, if it has no uid, or if it
cannot be read: the pass ends before its phases. A hook may also make it ready in phases that have
nothing new to say. -/
theorem leavesReady_instances :
    leavesReady { tenantEngine [] with
        hooks := .ofGenerator fun _ => .error (.generator "no quota") } readyStore = true ∧
      leavesReady { hesitantEngine with
        hooks := { hesitantEngine.hooks with mutate := fun _ _ => throw (.hook "refused") } }
        readyStore = true ∧
      leavesReady hesitantEngine (MemoryStore.empty.insert
        (readyDocument.updateMember "metadata" (·.insert "uid" .null))).2 = true ∧
      leavesReady hesitantEngine (MemoryStore.empty.insert
        (readyDocument.eraseMember "spec")).2 = true ∧
      leavesReady { hesitantEngine with
        hooks := { hesitantEngine.hooks with
          ownerReady := fun _ s => (.ok false,
            (s.setStatus tenantKey (.object [("ready", .bool true)])).2) } }
        (hesitantPass readyStore).2 = true :=
  ⟨by decide +kernel, by decide +kernel, by decide +kernel, by decide +kernel,
    by decide +kernel⟩

end Instances

end Reconciler

end DesiredState
