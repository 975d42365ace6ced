import DesiredState.Proofs.Interleaving.Exchanges
import DesiredState.Proofs.Tenant.Convergence

/-!
# Tenants that wait for their namespace

A tenant whose namespace is waited for has nothing made or patched inside it unless it is in use
(`reconcileKey_gated`), whatever the store is and whatever others do to it.

1. The hook of a child admits it only on the answer that the namespace is in use
   (`heeds_mayApply`).
2. An application looks once and then writes at most once, so no write is between that answer and
   the write of the child (`heeds_apply`), and each child is asked for anew (`ensures_ensureChild`).
3. What else a pass does is to read, and to write the status of the owner, so all of it heeds the
   gate (`heeds_program`).
-/

namespace DesiredState

open Dialogue MemoryStore
open Reconciler (program)

namespace Tenant

variable {τ : Type} {a : Applier} {rules : Rulebook} {defaults : Budget}
  {clock : τ → Timestamp × τ} {key : ObjectKey} {child : Manifest} {recent : List Exchange}

/-! ## The engine -/

/-- The engine that serves tenants from a store, with a clock of its own. What is wanted inside a
namespace waits until that is ready by the standard rules. -/
def gated {m : Type → Type} [Monad m] [Absorbs m] (store : Store (StateT τ m)) (a : Applier)
    (rules : Rulebook) (defaults : Budget) (clock : τ → Timestamp × τ) :
    Engine (StateT τ m) Tenant :=
  ⟨store, a, rules, hooks defaults true store .standard, fun t => pure (clock t)⟩

/-! ## The gate -/

/-- The live object is a namespace in use. -/
def InUse (live : Json) : Prop :=
  Shape.namespace.admits live = true ∧ live.stringAt? ["status", "phase"] = some "Active"

theorem inUse_of_ready {live : Json} {expected : List String}
    (h : (Rule.namespace live expected).value = .ok true) : InUse live := by
  unfold Rule.namespace Rule.shaped at h
  split at h
  · exact ⟨‹_›, by simpa using h⟩
  · cases h

/-- A look at the namespace found it in use. -/
def FoundInUse (name : String) (x : Exchange) : Prop :=
  ∃ live, x = ⟨.get (Rulebook.namespaceKey name), .ok (some live)⟩ ∧ InUse live

/-- The namespace of the object, if it has one, was found in use. -/
def Opened (k : ObjectKey) (recent : List Exchange) : Prop :=
  ∀ name, k.ns? = some name → ∃ x ∈ recent, FoundInUse name x

/-- Objects inside a namespace are made or patched only after a look that found it in use, and no
status is written but that of this object. -/
structure Gate (key : ObjectKey) (recent : List Exchange) (call : Call) : Prop where
  opened : ∀ k, call.formed? = some k → Opened k recent
  status : ∀ k, call.written? = some k → call.formed? = none → k = key

theorem gate_get (k : ObjectKey) (recent : List Exchange) : Gate key recent (.get k) :=
  ⟨nofun, nofun⟩

theorem gate_updateStatus (object : Json) (manager : String) (recent : List Exchange) :
    Gate key recent (.updateStatus key object manager) :=
  ⟨nofun, fun _ same _ => (Option.some.inj same).symm⟩

theorem gate_of_opened {call : Call} {k : ObjectKey} (formed : call.formed? = some k)
    (opened : Opened k recent) : Gate key recent call :=
  ⟨fun _ same => Option.some.inj (formed.symm.trans same) ▸ opened,
    fun _ _ unformed => nomatch formed.symm.trans unformed⟩

/-! ## What asks and what is written -/

/-- The hook admits a child only after a look that found its namespace in use. -/
theorem heeds_mayApply (tenant : Tenant) (child : Manifest) (t : τ) (recent : List Exchange) :
    (((gated (storeWith τ) a rules defaults clock).hooks.mayApply tenant child).run.run t).Heeds
      (Gate key) recent fun r later => r.1 = .ok true → Opened child.key later := by
  show ((Rulebook.standard.namespaceReady (storeWith τ) child.key).run.run t).Heeds _ _ _
  unfold Rulebook.namespaceReady
  split
  · rename_i name inside
    unfold Rulebook.isReady
    rw [rule_namespaceKey]
    refine ⟨gate_get _ _, fun answer => ?_⟩
    rcases answer with error | _ | live
    · exact nofun
    · exact nofun
    · intro ready name' inside'
      obtain rfl := Option.some.inj (inside.symm.trans inside')
      have ready : (Rule.namespace live
        (Rulebook.standard.expectedOf (Rulebook.namespaceKey name))).value = .ok true := ready
      exact ⟨_, List.mem_append_right _ (List.mem_singleton_self _), live, rfl,
        inUse_of_ready ready⟩
  · rename_i everywhere
    exact fun _ name inside => nomatch everywhere.symm.trans inside

/-- An application to an object whose namespace was found in use heeds the gate. -/
theorem heeds_apply (wanted : Manifest) (owner : OwnerIdentity) (t : τ)
    (opened : Opened wanted.key recent) :
    ((a.apply (storeWith τ) wanted owner).run t).Heeds (Gate key) recent fun _ _ => True := by
  refine ⟨gate_get _ _, fun look => ?_⟩
  -- The look writes nothing, so what was found before it still counts.
  have still : Opened wanted.key (recent ++ [⟨.get wanted.key, look⟩]) := fun name inside =>
    have ⟨x, mem, found⟩ := opened name inside
    ⟨x, List.mem_append_left _ mem, found⟩
  rcases look with error | live
  · trivial
  · show ((a.carryOut (storeWith τ) wanted.key
      (.of a.immutable (wanted.ownedBy owner) live)).run t).Heeds _ _ _
    cases Plan.of a.immutable (wanted.ownedBy owner) live with
    | create body => exact ⟨gate_of_opened rfl still, fun _ => trivial⟩
    | leave => trivial
    | keep => trivial
    | patch document difference => exact ⟨gate_of_opened rfl still, fun _ => trivial⟩

/-! ## Passes -/

section Passes

theorem within_gated : (gated (storeWith τ) a rules defaults clock).Within
    ((heeding (Gate key)).withState τ) where
  get k := Guarantees.allows_lift (heeding_ask (.get k) (gate_get k))
  mayApply _ child := Rulebook.standard.allows_namespaceReady
    (fun k => Guarantees.allows_lift (heeding_ask (.get k) (gate_get k))) child.key
  ownerReady _ := Guarantees.ensures_pure _ trivial
  now _ _ := trivial

/-- A child is asked for, and then it may be written. -/
theorem ensures_ensureChild (wanted : Manifest) (p : Progress Tenant) :
    ((heeding (Gate key)).withState τ).ensuresStep
      ((gated (storeWith τ) a rules defaults clock).ensureChild wanted) p
      fun _ q => p.Leads (fun _ _ => True) q := by
  have stays (q : Progress Tenant) : q.Leads (fun _ _ => True) q := .refl .any q
  refine ensures_of_heedsStep fun recent => heedsStep_get_bind (heedsStep_bind
    (P := fun admitted q later => q = p ∧ (admitted = true → Opened wanted.key later))
    (heedsStep_attempt fun t => heeds_mono (heeds_mayApply p.owner wanted t recent) ?_) ?_)
  · rintro ⟨error | admitted, t⟩ later opened
    · exact stays p
    · exact ⟨rfl, fun yes => opened (congrArg Except.ok yes)⟩
  · rintro admitted q later ⟨rfl, opened⟩
    cases admitted with
    | false =>
      exact heedsStep_of_ensures (Guarantees.leads_bind .any
        (Engine.ensures_note .any within_gated id) fun _ q _ => Guarantees.step_pure (stays q))
    | true =>
      refine heedsStep_bind (P := fun _ r _ => q.Leads (fun _ _ => True) r) ?_
        fun _ r _ led => heedsStep_of_ensures (Guarantees.step_pure led)
      refine heedsStep_get_bind (heedsStep_bind (P := fun _ r _ => r = q)
        (heedsStep_perform fun t => heeds_mono (heeds_apply wanted q.identity t (opened rfl))
          fun _ _ _ => rfl) ?_)
      rintro attempt _ later rfl
      refine heedsStep_mono
        (heedsStep_of_ensures (Engine.ensures_attempted .any within_gated attempt _)) ?_
      rintro (error | _) r later led <;> exact led

theorem heeds_program (b : Backoff) (t : τ) :
    (program (gated (storeWith τ) a rules defaults clock) key b t).Heeds (Gate key) []
      fun _ _ => True := by
  have wants : (gated (storeWith τ) a rules defaults clock).hooks.Wants
      ((heeding (Gate key)).withState τ) fun _ => True :=
    ⟨fun _ _ _ _ _ => trivial, fun _ _ _ => Guarantees.ensures_pure _ fun _ _ => trivial⟩
  have heeds := Reconciler.allows_reconcileKey within_gated
    (fun object => Guarantees.allows_lift (heeding_ask (.updateStatus key object a.manager)
      (gate_updateStatus object a.manager)))
    wants (fun wanted _ p => ensures_ensureChild wanted p) b t []
  exact heeds_bind heeds fun _ _ _ => trivial

theorem gated_held : (held.withState τ).engine (gated (storeWith τ) a rules defaults clock) =
    gated (heldStore τ) a rules defaults clock := by
  unfold gated Translation.engine
  rw [hooks_translated]
  rfl

/-- Held, the program is the pass on the store in memory. -/
theorem hold_program (b : Backoff) (t : τ) (s : MemoryStore) :
    ((program (gated (storeWith τ) a rules defaults clock) key b t).hold s).2 =
      ((((Reconciler.standard (gated (heldStore τ) a rules defaults clock)).reconcileKey
        key).run b).run t |>.run s).2 := by
  have ran := hold_bind
    ((((Reconciler.standard (gated (storeWith τ) a rules defaults clock)).reconcileKey
      key).run b).run t) (fun ran => done ran.1.1) s
  rw [hold_reconcileKey, gated_held] at ran
  exact congrArg Prod.snd ran

section Program

variable {b : Backoff} {t : τ}

/-- A call that makes or patches an object inside a namespace comes after a look that found the
namespace in use, and there is no write in between. -/
theorem seen_of_formed {before later : List Exchange} {x : Exchange} {k : ObjectKey} {name : String}
    (log : (program (gated (storeWith τ) a rules defaults clock) key b t).Exchanges
      (before ++ x :: later))
    (formed : x.call.formed? = some k) (inside : k.ns? = some name) :
    ∃ earlier live between,
      before = earlier ++ ⟨.get (Rulebook.namespaceKey name), .ok (some live)⟩ :: between ∧
      InUse live ∧ ∀ y ∈ between, y.call.writes = false := by
  obtain ⟨y, mem, live, rfl, inUse⟩ :=
    (log.rule_of_heeds (heeds_program b t)).opened k formed name inside
  obtain ⟨earlier, between, split, silent⟩ := Exchange.split_of_mem_recent mem
  exact ⟨earlier, live, between, split, inUse, silent⟩

variable {s : MemoryStore} {name : String} {k : ObjectKey} {x : Exchange}
  (closed : ∀ u ∈ (program (gated (storeWith τ) a rules defaults clock) key b t).moments s,
    ∀ live, u.object? (Rulebook.namespaceKey name) = some live → ¬ InUse live)
  (inside : k.ns? = some name)
  (mem : x ∈ (program (gated (storeWith τ) a rules defaults clock) key b t).log s)

include closed inside mem in
/-- A pass whose calls never meet the namespace in use makes and patches nothing inside. -/
theorem not_formed : x.call.formed? ≠ some k := by
  intro formed
  obtain ⟨before, later, split⟩ := List.append_of_mem mem
  obtain ⟨earlier, live, between, rfl, inUse, -⟩ :=
    seen_of_formed (split ▸ exchanges_log _ s) formed inside
  have looked : (⟨.get (Rulebook.namespaceKey name), .ok (some live)⟩ : Exchange) ∈
      (program (gated (storeWith τ) a rules defaults clock) key b t).log s := by
    rw [split]
    simp
  obtain ⟨u, met, answer⟩ := answer_of_mem_log looked
  exact closed u met live (object?_of_get answer.symm) inUse

include mem in
/-- Whose status a pass writes is the owner. -/
theorem eq_key_of_status (written : x.call.written? = some k) (unformed : x.call.formed? = none) :
    k = key := by
  obtain ⟨before, later, split⟩ := List.append_of_mem mem
  exact ((split ▸ exchanges_log _ s : Exchanges _ _).rule_of_heeds
    (heeds_program b t)).status k written unformed

end Program

/-- Whatever the store answers, each call of a pass that makes or patches an object inside a
namespace comes after a look that found the namespace in use, with no write in between. So a pass on
a store in memory whose calls never meet the namespace in use makes and patches nothing inside, and
all objects inside but the owner are as they were. -/
theorem reconcileKey_gated (a : Applier) (rules : Rulebook) (defaults : Budget)
    (clock : τ → Timestamp × τ) (key : ObjectKey) (b : Backoff) (t : τ) :
    (∀ before x later,
      (program (gated (storeWith τ) a rules defaults clock) key b t).Exchanges
        (before ++ x :: later) →
      ∀ k name, x.call.formed? = some k → k.ns? = some name →
        ∃ earlier live between,
          before = earlier ++ ⟨.get (Rulebook.namespaceKey name), .ok (some live)⟩ :: between ∧
          InUse live ∧ ∀ y ∈ between, y.call.writes = false) ∧
    ∀ s name,
      (∀ u ∈ (program (gated (storeWith τ) a rules defaults clock) key b t).moments s,
        ∀ live, u.object? (Rulebook.namespaceKey name) = some live → ¬ InUse live) →
      ∀ k, k.ns? = some name →
        (∀ x ∈ (program (gated (storeWith τ) a rules defaults clock) key b t).log s,
          x.call.formed? ≠ some k) ∧
        (k ≠ key →
          ((((Reconciler.standard (gated (heldStore τ) a rules defaults clock)).reconcileKey
            key).run b).run t |>.run s).2.object? k = s.object? k) := by
  refine ⟨fun before x later log k name => seen_of_formed log,
    fun s name closed k inside => ⟨fun x => not_formed closed inside, fun other => ?_⟩⟩
  rw [← hold_program]
  refine object?_hold fun x mem written => ?_
  cases formed : x.call.formed? with
  | none => exact other (eq_key_of_status mem written formed)
  | some k' =>
    obtain rfl := Option.some.inj (written.symm.trans (Call.written?_of_formed? formed))
    exact not_formed closed inside mem formed

end Passes

/-! ## An instance -/

section Instance

open Reconciler

/-- The tenant with its namespace in use. -/
def loneInUse : MemoryStore := (lone.insert ((namespaceBody "team").setMember "status" active)).2

def quotaKey : ObjectKey := .of ⟨"", "v1", "ResourceQuota"⟩ (some "team") "tenant-resource-quota"

def teamProgram : Dialogue Pass :=
  program (gated (storeWith Unit) .standard .standard .standard fun _ => (.ofSeconds 0, ()))
    tenantKey .standard ()

theorem team_gated :
    (∃ before x later, teamProgram.log loneInUse = before ++ x :: later ∧
      x.call.formed? = some quotaKey ∧
      ∃ earlier live between,
        before = earlier ++ ⟨.get (Rulebook.namespaceKey "team"), .ok (some live)⟩ :: between ∧
        InUse live ∧ ∀ y ∈ between, y.call.writes = false) ∧
      ∀ k, k.ns? = some "team" →
        ((((standard (gated (heldStore Unit) .standard .standard .standard
          fun _ => (.ofSeconds 0, ()))).reconcileKey tenantKey).run .standard).run ()
            |>.run lone).2.object? k = lone.object? k := by
  have made : (teamProgram.log loneInUse).any (·.call.formed? = some quotaKey) = true := by
    decide +kernel
  have closed : (teamProgram.moments lone).all (fun u =>
      (u.object? (Rulebook.namespaceKey "team")).all
        (·.stringAt? ["status", "phase"] ≠ some "Active")) = true := by
    decide +kernel
  have gated := reconcileKey_gated .standard .standard .standard
    (fun _ : Unit => (.ofSeconds 0, ())) tenantKey .standard ()
  obtain ⟨x, mem, formed⟩ := List.any_eq_true.1 made
  have formed := of_decide_eq_true formed
  obtain ⟨before, later, split⟩ := List.append_of_mem mem
  refine ⟨⟨before, x, later, split, formed, gated.1 before x later
    (split ▸ exchanges_log teamProgram loneInUse) quotaKey "team" formed rfl⟩, fun k inside => ?_⟩
  refine (gated.2 lone "team" (fun u met live there inUse => ?_) k inside).2 ?_
  · have idle := List.all_eq_true.1 closed u met
    rw [there] at idle
    exact of_decide_eq_true idle inUse.2
  · rintro rfl
    cases inside

end Instance

end Tenant

end DesiredState
