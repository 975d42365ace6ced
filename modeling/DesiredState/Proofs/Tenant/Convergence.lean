import DesiredState.Proofs.Interleaving.StoredStatus
import DesiredState.Proofs.Reconcile.Endings
import DesiredState.Proofs.Reconcile.Undisturbed
import DesiredState.Proofs.Tenant.Wanted

/-!
# Tenants converge

A tenant that is stored alone is ready after two passes, with a namespace that comes into use
between them (`converges`). The first pass makes all children, or just the namespace if the others
have to wait for it; the second makes what is missing, and finds everything ready. A pass that looks
out for steps without a check does the same or breaks off (`engine_endings`).
-/

namespace DesiredState

open Json Bookkeeping MemoryStore Applier

namespace Tenant

variable {a : Applier} {defaults : Budget} {wait : Bool} {now : StateM MemoryStore Timestamp}
  {tenant : Tenant} {identity : OwnerIdentity} {key : ObjectKey} {status? : Option Json}
  {ns : String} {budget : Budget} {child : Manifest} {s t : MemoryStore}

/-! ## The engine -/

/-- The engine that serves tenants from a store by the standard rules. -/
def engineOn {m : Type → Type} [Monad m] [Absorbs m] (store : Store m) (a : Applier)
    (defaults : Budget) (wait : Bool) (now : m Timestamp) : Engine m Tenant :=
  ⟨store, a, .standard, hooks defaults wait store .standard, now⟩

/-- The engine that serves tenants from the store in memory by the standard rules. -/
def engine (a : Applier) (defaults : Budget) (wait : Bool) (now : StateM MemoryStore Timestamp) :
    Engine (StateM MemoryStore) Tenant :=
  ⟨store, a, .standard, hooks defaults wait store .standard, now⟩

section Translations

variable {m n : Type → Type} [Monad m] [Monad n] [Absorbs m] [Absorbs n] (h : Translation m n)

theorem hooks_translated (store : Store m) (rules : Rulebook) :
    h.hooks (hooks defaults wait store rules) = hooks defaults wait (store.lift h.map) rules := by
  unfold hooks Translation.hooks Hooks.ofGenerator
  cases wait <;> simp only [if_true, Bool.false_eq_true, if_false, h.except_pure,
    h.except_namespaceReady]

theorem engineOn_translated (store : Store m) (now : m Timestamp) :
    h.engine (engineOn store a defaults wait now) =
      engineOn (store.lift h.map) a defaults wait (h.map now) := by
  unfold engineOn Translation.engine
  rw [hooks_translated]

end Translations

/-- A pass over tenants that looks out for steps without a check breaks off, or it ends as the one
that lets them come round. -/
theorem engine_endings (now : StateT MemoryStore Tracked Timestamp) (key : ObjectKey) (b : Backoff)
    (s : MemoryStore) :
    (((Reconciler.standard (engineOn checkedStore a defaults wait
        ((Tracked.breaking MemoryStore).map now))).reconcileKey key).run b).run s =
        .error .overflow ∨
      (((Reconciler.standard (engineOn checkedStore a defaults wait
        ((Tracked.breaking MemoryStore).map now))).reconcileKey key).run b).run s =
        .ok ((((Reconciler.standard (engine a defaults wait
          ((Tracked.rounding MemoryStore).map now))).reconcileKey key).run b).run s) := by
  have ended := Reconciler.reconcileKey_endings (engineOn trackedStore a defaults wait now) key b s
  rwa [engineOn_translated, engineOn_translated, lift_trackedStore] at ended

theorem readOnly_engine (clock : ∀ s, OnlyRead s (now.run s).2) :
    (engine a defaults wait now).ReadOnly where
  store := rfl
  mutate _ _ s := by cases wait <;> exact .refl s
  mayApply _ child s := by
    cases wait with
    | false => exact .refl s
    | true => exact Rulebook.standard.onlyRead_namespaceReady child.key s
  ownerReady _ s := by cases wait <;> exact .refl s
  now := clock

theorem generate_engine : (engine a defaults wait now).hooks.generate = wanted defaults := by
  unfold engine hooks
  dsimp only
  split
  all_goals dsimp only [Hooks.ofGenerator]

theorem ownerReady_engine (tenant : Tenant) (s : MemoryStore) :
    (((engine a defaults wait now).hooks.ownerReady tenant).run.run s).1 = .ok true := by
  cases wait <;> rfl

/-- The namespace is admitted at once. -/
theorem mayApply_namespace (tenant : Tenant) (ns : String) (s : MemoryStore) :
    (((engine a defaults wait now).hooks.mayApply tenant (namespaceManifest ns)).run.run s).1 =
      .ok true := by
  cases wait <;> rfl

/-- What is inside the namespace may have to wait until that is ready. -/
theorem mayApply_resident (named : ns.isEmpty = false) (mem : child ∈ residents ns budget)
    (quiet : Quiet s) (tenant : Tenant) :
    (((engine a defaults wait now).hooks.mayApply tenant child).run.run s).1 =
      if wait then Rulebook.standard.verdict s (Rulebook.namespaceKey ns) else .ok true := by
  cases wait with
  | false => rfl
  | true =>
    exact Rulebook.standard.namespaceReady_of_quiet quiet (place_of_resident named mem)

/-- Where the phases of a pass start. -/
theorem startAt_engine {live : Json} (there : s.object? key = some live)
    (decoded : decode live = .ok tenant) (identified : Owner.identity tenant = .ok identity)
    (named : tenant.namespaceName.isEmpty = false) :
    ∃ start, Reconciler.startAt (engine a defaults wait now) key s = some start ∧
      start.owner = tenant ∧ start.identity = identity ∧
      start.resources.manifests = children defaults tenant := by
  have keeps : ∀ owner wanted,
      (engine a defaults wait now).hooks.mutate owner wanted = pure (.keep wanted) := by
    cases wait <;> exact fun _ _ => rfl
  have gathered := Reconciler.run_resources_keep keeps
    ((congrFun generate_engine tenant).trans (wanted_eq named)) (s.get key).2
  have started := Reconciler.ofLive_eq_ok.2 ⟨identity, decoded, identified,
    (rfl : (⟨tenant, Owner.key tenant, identity, .empty, (Owner.status? tenant).getD .empty, []⟩ :
      Progress Tenant) = _)⟩
  exact ⟨_, Reconciler.startAt_eq_some.2 ⟨live, _, .ofList (children defaults tenant), there,
    started, by rw [gathered], rfl⟩, rfl, rfl, ResourceSet.manifests_ofList distinct_children⟩

/-! ## What stands of a child -/

/-- Either nothing is stored of a child, and then it has no status, or an object that was made of
it and has this status. -/
def Standing (identity : OwnerIdentity) (child : Manifest) (status? : Option Json) :
    Option Json → Prop
  | none => status? = none
  | some object => MadeOf (identity.attachTo child.body) status? object

theorem Standing.isStamped {before : Option Json}
    (standing : Standing identity child status? before) {live : Json} (there : before = some live) :
    live.isStamped = true := by
  subst there
  exact MadeOf.isStamped standing

/-- An application makes what is missing, and leaves what stands. -/
theorem Standing.formed {before : Option Json} {object : Json}
    (standing : Standing identity child status? before) (plain : Plain child.body)
    (formed : Formed a child identity before object) :
    MadeOf (identity.attachTo child.body) status? object := by
  cases before with
  | none =>
    obtain rfl : status? = none := standing
    cases formed with
    | made u => exact madeOf_made u (plain_attachTo identity plain).hasMetadata
  | some live => exact MadeOf.stays standing plain formed ▸ standing

/-- What has a status is there. -/
theorem Standing.there {before : Option Json} {status : Json}
    (standing : Standing identity child (some status) before) :
    ∃ object, before = some object ∧
      MadeOf (identity.attachTo child.body) (some status) object := by
  cases before with
  | none => cases standing
  | some object => exact ⟨object, rfl, standing⟩

/-- The status of a child if its namespace has one. -/
def statusFor (ns : String) (status? : Option Json) (child : Manifest) : Option Json :=
  if child.key = Rulebook.namespaceKey ns then status? else none

theorem statusFor_namespace : statusFor ns status? (namespaceManifest ns) = status? := if_pos rfl

theorem statusFor_resident (mem : child ∈ residents ns budget) :
    statusFor ns status? child = none :=
  if_neg (namespaceKey_ne_of_resident mem).symm

theorem statusFor_none : statusFor ns none child = none := ite_self _

/-- What is stored of the children stands, and the namespace has this status. -/
def Stands (defaults : Budget) (tenant : Tenant) (identity : OwnerIdentity)
    (status? : Option Json) (s : MemoryStore) : Prop :=
  ∀ child ∈ children defaults tenant,
    Standing identity child (statusFor tenant.namespaceName status? child) (s.object? child.key)

/-- When the status of the namespace is set, what stands of the children stays. -/
theorem Stands.setStatus (stands : Stands defaults tenant identity none s)
    (there : (s.object? (Rulebook.namespaceKey tenant.namespaceName)).isSome = true)
    (status : Json) : Stands defaults tenant identity (some status)
      (s.setStatus (Rulebook.namespaceKey tenant.namespaceName) status).2 := by
  obtain ⟨object, there⟩ := Option.isSome_iff_exists.1 there
  have written := written_setStatus there status
  intro child mem
  have stood := stands child mem
  rw [statusFor_none] at stood
  rcases List.mem_cons.1 mem with rfl | inside
  · rw [show s.object? (namespaceManifest _).key = some object from there] at stood
    have made : MadeOf (identity.attachTo (namespaceBody tenant.namespaceName)) none object := stood
    rw [show (s.setStatus _ status).2.object? (namespaceManifest _).key = _ from
      (written _).trans (if_pos rfl), statusFor_namespace]
    exact made.setStatus _ status
  · rw [written, if_neg (namespaceKey_ne_of_resident inside).symm, statusFor_resident inside]
    exact stood

/-- Every child is stored as an object that was made of it, and the namespace has this status. -/
def Complete (defaults : Budget) (tenant : Tenant) (identity : OwnerIdentity)
    (status? : Option Json) (s : MemoryStore) : Prop :=
  ∀ child ∈ children defaults tenant, ∃ object, s.object? child.key = some object ∧
    MadeOf (identity.attachTo child.body) (statusFor tenant.namespaceName status? child) object

section Congr

variable {o : Tenant} (same : o.spec = tenant.spec)

include same

theorem namespaceName_congr : o.namespaceName = tenant.namespaceName := by
  unfold namespaceName
  rw [same]

theorem children_congr : children defaults o = children defaults tenant := by
  unfold children
  rw [namespaceName_congr same, same]

theorem stands_congr :
    Stands defaults o identity status? s ↔ Stands defaults tenant identity status? s := by
  unfold Stands
  rw [children_congr same, namespaceName_congr same]

theorem complete_congr :
    Complete defaults o identity status? s ↔ Complete defaults tenant identity status? s := by
  unfold Complete
  rw [children_congr same, namespaceName_congr same]

end Congr

theorem verdicts_of_complete (complete : Complete defaults tenant identity status? s)
    (stated : status? = none ∨ status? = some active) :
    Rulebook.standard.verdicts s ((children defaults tenant).map Manifest.key) =
      .ok status?.isSome := by
  obtain ⟨object, there, made⟩ := complete _ List.mem_cons_self
  rw [statusFor_namespace] at made
  have first : Rulebook.standard.verdict s (namespaceManifest tenant.namespaceName).key =
      .ok status?.isSome := verdict_of_made there made stated
  rw [children, List.map_cons, Rulebook.verdicts, first]
  rcases stated with rfl | rfl
  · rfl
  · refine Rulebook.verdicts_of_forall fun k listed => ?_
    obtain ⟨child, mem, rfl⟩ := List.mem_map.1 listed
    exact verdict_of_resident mem s

/-! ## Rounds over the children -/

section Rounds

variable {result : Result Bool} {attempts : List Attempt}
  (clock : ∀ s, OnlyRead s (now.run s).2) (named : tenant.namespaceName.isEmpty = false)

/-- No call fails, and the namespace is in use if the other children have to wait for it. -/
def Cleared (wait : Bool) (ns : String) (identity : OwnerIdentity) (s : MemoryStore) : Prop :=
  Quiet s ∧ (wait = true → ∃ object, s.object? (Rulebook.namespaceKey ns) = some object ∧
    MadeOf (identity.attachTo (namespaceBody ns)) (some active) object)

include clock named in
/-- A tenant whose namespace is in use, if it is waited for, gets all its children. -/
theorem clears_children : (engine a defaults wait now).Clears tenant identity
    (children defaults tenant) (Cleared wait tenant.namespaceName identity) where
  quiet cleared := cleared.1
  go child mem s cleared := by
    rcases List.mem_cons.1 mem with rfl | mem
    · exact mayApply_namespace tenant _ s
    · rw [mayApply_resident named mem cleared.1]
      cases wait with
      | false => rfl
      | true =>
        obtain ⟨object, there, made⟩ := cleared.2 rfl
        exact verdict_of_made there made (.inr rfl)
  keeps child mem s t result attempts cleared turn := by
    refine ⟨turn.quiet (readOnly_engine clock).discreet cleared.1, fun waits => ?_⟩
    obtain ⟨object, there, made⟩ := cleared.2 waits
    rcases List.mem_cons.1 mem with rfl | mem
    · have plain := plain_namespaceBody tenant.namespaceName
      have reached := turn.reaches plain (fun live h => Option.some.inj h ▸ made.hasMetadata)
        (.inl there)
      rcases reached with same | ⟨later, there', formed⟩
      · exact ⟨object, same, made⟩
      · exact ⟨object, (made.stays plain formed) ▸ there', made⟩
    · exact ⟨object, (turn.frame (namespaceKey_ne_of_resident mem)).trans there, made⟩

include clock named in
/-- A round that has to wait for nothing completes the children. -/
theorem round_complete (cleared : Cleared wait tenant.namespaceName identity s)
    (stands : Stands defaults tenant identity status? s)
    (h : (engine a defaults wait now).Round tenant identity (children defaults tenant) s t result
      attempts) : result = .ok true ∧ Complete defaults tenant identity status? t := by
  have reads : (engine a defaults wait now).ReadOnly := readOnly_engine clock
  obtain ⟨went, formed⟩ := h.forms_all reads.harmless reads.discreet (clears_children clock named)
    cleared distinct_children (fun child mem => plain_child mem)
    (fun child mem live there => (stands child mem).isStamped there)
  refine ⟨went, fun child mem => ?_⟩
  obtain ⟨object, there, formed⟩ := formed child mem
  exact ⟨object, there, (stands child mem).formed (plain_child mem) formed⟩

variable (quiet : Quiet s)
  (absent : s.object? (Rulebook.namespaceKey tenant.namespaceName) = none)

include clock quiet absent in
/-- The turn of a namespace that is not there makes it. -/
theorem child_namespace (h : (engine a defaults true now).Child tenant identity
      (namespaceManifest tenant.namespaceName) s t result attempts) :
    result = .ok true ∧ ∃ object, MadeOf (identity.attachTo
        (namespaceBody tenant.namespaceName)) none object ∧
      MemoryStore.Written s t (Rulebook.namespaceKey tenant.namespaceName) object := by
  have reads : (engine a defaults true now).ReadOnly := readOnly_engine clock
  have plain := plain_namespaceBody tenant.namespaceName
  obtain ⟨went, object, there, formed⟩ := h.forms reads.harmless reads.discreet quiet
    (mayApply_namespace tenant _ s) plain (by nofun) (.inl absent)
  have missing : Standing identity (namespaceManifest tenant.namespaceName) none none := rfl
  refine ⟨went, object, missing.formed plain formed, fun k => ?_⟩
  by_cases eq : k = Rulebook.namespaceKey tenant.namespaceName
  · rw [if_pos eq, eq]
    exact there
  · rw [if_neg eq]
    exact h.frame eq

include clock named quiet absent in
/-- A tenant whose namespace is waited for and is not there gets just that. -/
theorem round_without_namespace
    (h : Engine.Round (engine a defaults true now) tenant identity (children defaults tenant) s t
      result attempts) :
    result = .ok false ∧ ∃ object, MadeOf (identity.attachTo
        (namespaceBody tenant.namespaceName)) none object ∧
      MemoryStore.Written s t (Rulebook.namespaceKey tenant.namespaceName) object := by
  have discreet : (engine a defaults true now).Discreet := (readOnly_engine clock).discreet
  rw [children] at h
  cases h with
  | stopped turn halt => exact absurd (child_namespace clock quiet absent turn).1 halt
  | @next _ _ _ u _ _ _ _ turn others =>
    obtain ⟨-, object, made, written⟩ := child_namespace clock quiet absent turn
    have there : u.object? (Rulebook.namespaceKey tenant.namespaceName) = some object :=
      (written _).trans (if_pos rfl)
    have waits : ∀ child ∈ residents tenant.namespaceName (defaults.resolve tenant.spec.resources),
        (((engine a defaults true now).hooks.mayApply tenant child).run.run u).1 = .ok false := by
      intro child mem
      rw [mayApply_resident named mem (turn.quiet discreet quiet)]
      exact verdict_of_made there made (.inl rfl)
    rw [residents] at waits others
    cases others with
    | stopped turn halt =>
      obtain ⟨ended, same⟩ := turn.waits (waits _ List.mem_cons_self)
      exact ⟨ended, object, made, written.before same⟩
    | next turn => cases (turn.waits (waits _ List.mem_cons_self)).1

end Rounds

/-! ## Phases -/

section Phases

variable {start : Progress Tenant} {ending : Ending} {attempts : List Attempt}

/-- The phases are about to run over this tenant. -/
structure Serves (defaults : Budget) (tenant : Tenant) (identity : OwnerIdentity)
    (start : Progress Tenant) : Prop where
  owner : start.owner = tenant
  identity : start.identity = identity
  resources : start.resources.manifests = children defaults tenant
  staying : Owner.isDeleted tenant = false

/-- The check for readiness comes to what the rules say, if no call fails. -/
theorem check_engine {keys : List ObjectKey} {result : Result Bool} {b : Bool} (quiet : Quiet s)
    (verdicts : Rulebook.standard.verdicts s keys = .ok b)
    (h : Phase.Check (engine a defaults wait now) tenant keys s t result) : result = .ok b := by
  cases h with
  | interrupted loud => exact absurd quiet loud
  | unready verdict => exact verdict.symm.trans verdicts
  | decided verdict answer =>
    rw [← answer, ownerReady_engine, ← verdicts]
    exact verdict.symm

variable (clock : ∀ s, OnlyRead s (now.run s).2) (named : tenant.namespaceName.isEmpty = false)
  (serves : Serves defaults tenant identity start) (quiet : Quiet s)

include clock named serves quiet in
/-- Where nothing has to wait, the phases complete the children, and the namespace decides. -/
theorem phases_complete (stated : status? = none ∨ status? = some active)
    (gate : wait = true → status? = some active)
    (stands : Stands defaults tenant identity status? s)
    (h : Phase.Phases (engine a defaults wait now) start s t ending attempts) :
    ending = Phase.endingOf "CheckReady" (.ofSeconds 5) (.ok status?.isSome) ∧
      Complete defaults tenant identity status? t := by
  have reads : (engine a defaults wait now).ReadOnly := readOnly_engine clock
  have cleared : Cleared wait tenant.namespaceName identity s := by
    refine ⟨quiet, fun waits => ?_⟩
    obtain rfl := gate waits
    have first := stands _ List.mem_cons_self
    rw [statusFor_namespace] at first
    exact first.there
  have completes : ∀ {u v result attempts}, SameObjects s u → Quiet u →
      (engine a defaults wait now).Round tenant identity (children defaults tenant) u v result
        attempts → result = .ok true ∧ Complete defaults tenant identity status? v :=
    fun same still round => round_complete clock named
      ⟨still, fun waits => same _ ▸ cleared.2 waits⟩
      (fun child mem => same child.key ▸ stands child mem) round
  cases h with
  | deleted leaving =>
    rw [serves.owner, serves.staying] at leaving
    cases leaving
  | stopped _ before round halt =>
    rw [serves.owner, serves.identity, serves.resources] at round
    exact absurd (completes before.same (before.quiet reads.discreet quiet) round).1 halt
  | @checked u v w x result attempts _ before round between check after =>
    rw [serves.owner, serves.identity, serves.resources] at round
    have still := before.quiet reads.discreet quiet
    obtain ⟨-, complete⟩ := completes before.same still round
    rw [serves.owner, show start.resources.keys = (children defaults tenant).map Manifest.key from
      congrArg _ serves.resources] at check
    have verdicts := verdicts_of_complete complete stated
    rw [Rulebook.verdicts_congr _ fun k _ => Rulebook.verdict_congr between.same k] at verdicts
    obtain rfl := check_engine
      (between.quiet reads.discreet (round.quiet reads.discreet still)) verdicts check
    refine ⟨rfl, fun child mem => ?_⟩
    obtain ⟨object, there, made⟩ := complete child mem
    exact ⟨object, by rw [← after.same, ← check.idle.same, ← between.same, there], made⟩

include clock named serves quiet in
/-- Where the children have to wait for a namespace that is not there, the phases make just that. -/
theorem phases_without_namespace
    (absent : s.object? (Rulebook.namespaceKey tenant.namespaceName) = none) (waits : wait = true)
    (h : Phase.Phases (engine a defaults wait now) start s t ending attempts) :
    ending = .halted "CreateResources" Phase.defaultDelay ∧ ∃ object,
      MadeOf (identity.attachTo (namespaceBody tenant.namespaceName)) none object ∧
      MemoryStore.Written s t (Rulebook.namespaceKey tenant.namespaceName) object := by
  subst waits
  have reads : (engine a defaults true now).ReadOnly := readOnly_engine clock
  have makes : ∀ {u v result attempts}, SameObjects s u → Quiet u →
      (engine a defaults true now).Round tenant identity (children defaults tenant) u v result
        attempts → result = .ok false ∧ ∃ object,
          MadeOf (identity.attachTo (namespaceBody tenant.namespaceName)) none object ∧
          MemoryStore.Written u v (Rulebook.namespaceKey tenant.namespaceName) object :=
    fun same still round =>
      round_without_namespace clock named still ((same _).symm.trans absent) round
  cases h with
  | deleted leaving =>
    rw [serves.owner, serves.staying] at leaving
    cases leaving
  | stopped _ before round halt after =>
    rw [serves.owner, serves.identity, serves.resources] at round
    obtain ⟨rfl, object, made, written⟩ :=
      makes before.same (before.quiet reads.discreet quiet) round
    exact ⟨rfl, object, made, (written.after before.same).before after.same⟩
  | checked _ before round =>
    rw [serves.owner, serves.identity, serves.resources] at round
    cases (makes before.same (before.quiet reads.discreet quiet) round).1

/-- The children that do not have to wait for a namespace that is not there. -/
def prompt (wait : Bool) (defaults : Budget) (tenant : Tenant) : List Manifest :=
  if wait then [namespaceManifest tenant.namespaceName] else children defaults tenant

theorem namespaceManifest_mem_prompt (wait : Bool) (defaults : Budget) (tenant : Tenant) :
    namespaceManifest tenant.namespaceName ∈ prompt wait defaults tenant := by
  cases wait <;> exact List.mem_cons_self

theorem mem_of_prompt (mem : child ∈ prompt wait defaults tenant) :
    child ∈ children defaults tenant := by
  cases wait with
  | false => exact mem
  | true =>
    obtain rfl := List.mem_singleton.1 mem
    exact List.mem_cons_self

include clock named serves quiet in
/-- Where no child is there yet, the phases make those that do not have to wait, and halt. -/
theorem phases_prompt (absent : ∀ child ∈ children defaults tenant, s.object? child.key = none)
    (h : Phase.Phases (engine a defaults wait now) start s t ending attempts) :
    (∃ phase, ending = .halted phase (.ofSeconds (if wait then 10 else 5))) ∧
      Stands defaults tenant identity none t ∧
      (∀ child ∈ prompt wait defaults tenant, ∃ object, t.object? child.key = some object) ∧
      ∀ k ∉ (prompt wait defaults tenant).map Manifest.key, t.object? k = s.object? k := by
  cases wait with
  | false =>
    have stands : Stands defaults tenant identity none s := fun child mem => by
      rw [absent child mem]
      exact statusFor_none
    obtain ⟨rfl, complete⟩ :=
      phases_complete clock named serves quiet (.inl rfl)
        (fun waits => absurd waits Bool.false_ne_true) stands h
    refine ⟨⟨_, rfl⟩, fun child mem => ?_, fun child mem => ?_, fun k new => ?_⟩
    · obtain ⟨object, there, made⟩ := complete child mem
      rw [there]
      exact made
    · obtain ⟨object, there, -⟩ := complete child mem
      exact ⟨object, there⟩
    · refine h.frame fun listed => new ?_
      rwa [ResourceSet.keys, serves.resources] at listed
  | true =>
    obtain ⟨rfl, object, made, written⟩ := phases_without_namespace clock named serves quiet
      (absent _ List.mem_cons_self) rfl h
    refine ⟨⟨_, rfl⟩, fun child mem => ?_, fun child mem => ?_, fun k new => ?_⟩
    · rcases List.mem_cons.1 mem with rfl | inside
      · rw [show t.object? (namespaceManifest _).key = some object from
          (written _).trans (if_pos rfl), statusFor_none]
        exact made
      · rw [written, if_neg (namespaceKey_ne_of_resident inside).symm, absent child mem]
        exact statusFor_none
    · obtain rfl := List.mem_singleton.1 mem
      exact ⟨object, (written _).trans (if_pos rfl)⟩
    · exact (written k).trans (if_neg fun eq => new (List.mem_singleton.2 eq))

end Phases

/-! ## Passes -/

section Passes

open Reconciler

/-- The tenant is stored under a key of its kind, with a uid and without being deleted, and the
namespace that it asks for has a name. -/
structure Stored (key : ObjectKey) (tenant : Tenant) (identity : OwnerIdentity)
    (s : MemoryStore) : Prop where
  there : ∃ live, s.object? key = some live ∧ decode live = .ok tenant
  kind : key.gvk = gvk
  identity : Owner.identity tenant = .ok identity
  staying : Owner.isDeleted tenant = false
  named : tenant.namespaceName.isEmpty = false

theorem Stored.congr (stored : Stored key tenant identity s)
    (same : t.object? key = s.object? key) : Stored key tenant identity t := by
  obtain ⟨live, there, decoded⟩ := stored.there
  exact ⟨⟨live, same.trans there, decoded⟩, stored.kind, stored.identity, stored.staying,
    stored.named⟩

/-- The pass came to this, and left exactly the tenant and the objects under these keys, the tenant
with this readiness. -/
structure Leaves (pass : Pass) (key : ObjectKey) (t : MemoryStore) (outcome : Outcome)
    (ready : Bool) (keys : List ObjectKey) : Prop where
  outcome : pass.result = .ok outcome
  ready : storedReady Tenant key t = some ready
  exactly : ∀ k, (t.object? k).isSome = true ↔ k = key ∨ k ∈ keys

/-- What the pass over a stored tenant comes to, if no call fails. -/
theorem pass_engine (a : Applier) (defaults : Budget) (wait : Bool)
    (stored : Stored key tenant identity s)
    (clock : ∀ s, OnlyRead s (now.run s).2) (quiet : Quiet s) (b : Backoff) :
    ∃ pass b' t start u v ending p attempts,
      (((standard (engine a defaults wait now)).reconcileKey key).run b).run s =
        ((pass, b'), t) ∧
      Serves defaults tenant identity start ∧ SameObjects s u ∧ Quiet u ∧
      (Phase.runAll now (Phase.standard (engine a defaults wait now)) start).run u =
        ((ending, p), v) ∧
      Phase.Phases (engine a defaults wait now) start u v ending attempts ∧
      Undisturbed (engine a defaults wait now) key start ending p v t pass := by
  have reads : (engine a defaults wait now).ReadOnly := readOnly_engine clock
  obtain ⟨live, there, decoded⟩ := stored.there
  obtain ⟨start, starts, owner, identity, resources⟩ :=
    startAt_engine (a := a) there decoded stored.identity stored.named
  obtain ⟨pass, t, ran, trace⟩ :=
    pass_trace (e := engine a defaults wait now) reads.store key s
  have apart : key ∉ start.resources.keys := fun listed => by
    obtain ⟨child, mem, eq⟩ := List.mem_map.1 listed
    rw [resources] at mem
    exact key_ne_of_child stored.kind mem eq
  obtain ⟨u, v, ending, p, attempts, same, still, all, phases, undisturbed⟩ :=
    trace.undisturbed reads.harmless reads.discreet quiet starts apart
  exact ⟨pass, _, t, start, u, v, ending, p, attempts, run_reconcileKey _ ran,
    ⟨owner, identity, resources, stored.staying⟩, same, still, all, phases, undisturbed⟩

/-- After the pass the tenant is stored as it was but for its status, which is the one that the
phases came to. -/
theorem stored_after {e : Engine (StateM MemoryStore) Tenant} {start p : Progress Tenant}
    {ending : Ending} {pass : Pass} {v : MemoryStore} (stored : Stored key tenant identity s)
    (serves : Serves defaults tenant identity start)
    (h : Undisturbed e key start ending p v t pass) :
    ∃ later, Stored key later identity t ∧ later.spec = tenant.spec ∧
      statusOf key t = some p.status := by
  obtain ⟨live, next, there, decoded, akin, same, status⟩ := h.owner
  rw [serves.owner] at akin
  obtain ⟨identity', read, identified, eq⟩ := ofLive_eq_ok.1 decoded
  have spec := spec_of_akin akin
  obtain ⟨fields, rfl⟩ :=
    eq_obj_of_isObject (isObject_of_hasMetadata (Owner.hasMetadata_of_decode read))
  refine ⟨next.owner, ⟨⟨_, there, read⟩, stored.kind, akin.identity.trans stored.identity,
    akin.isDeleted.trans stored.staying, ?_⟩, spec, ?_⟩
  · rw [namespaceName_congr spec]
    exact stored.named
  · rw [← status]
    exact status_start there decoded

/-- A store with the tenant and its children and nothing else. -/
theorem isSome_iff {keys : List ObjectKey} (own : ∃ live, s.object? key = some live)
    (there : ∀ k ∈ keys, ∃ object, s.object? k = some object)
    (elsewhere : ∀ k, k ≠ key → k ∉ keys → s.object? k = none) (k : ObjectKey) :
    (s.object? k).isSome = true ↔ k = key ∨ k ∈ keys := by
  constructor
  · intro present
    by_contra out
    rw [not_or] at out
    rw [elsewhere k out.1 out.2] at present
    cases present
  · rintro (rfl | listed)
    · obtain ⟨live, eq⟩ := own
      rw [eq]
      rfl
    · obtain ⟨object, eq⟩ := there k listed
      rw [eq]
      rfl

/-- The first pass over a tenant that is stored alone makes what does not have to wait. -/
theorem first_pass (a : Applier) (defaults : Budget) (wait : Bool)
    (stored : Stored key tenant identity s) (quiet : Quiet s)
    (alone : ∀ k, k ≠ key → s.object? k = none) (clock : ∀ s, OnlyRead s (now.run s).2)
    (b : Backoff) :
    ∃ pass b' t,
      (((standard (engine a defaults wait now)).reconcileKey key).run b).run s =
        ((pass, b'), t) ∧
      Leaves pass key t (.requeueAfter (.ofSeconds (if wait then 10 else 5))) false
        ((prompt wait defaults tenant).map Manifest.key) ∧
      Quiet t ∧ Stands defaults tenant identity none t ∧
      (∀ k, k ≠ key → k ∉ (children defaults tenant).map Manifest.key → t.object? k = none) ∧
      ∃ later, Stored key later identity t ∧ later.spec = tenant.spec := by
  obtain ⟨pass, b', t, start, u, v, ending, p, attempts, ran, serves, same, still, -, phases,
    after⟩ := pass_engine a defaults wait stored clock quiet b
  have apart : ∀ child ∈ children defaults tenant, child.key ≠ key := fun child mem =>
    key_ne_of_child stored.kind mem
  obtain ⟨⟨phase, rfl⟩, stands, made, others⟩ := phases_prompt clock stored.named serves still
    (fun child mem => (same _).symm.trans (alone _ (apart child mem))) phases
  obtain ⟨later, kept, spec, -⟩ := stored_after stored serves after
  have nothing : ∀ k, k ≠ key → k ∉ (prompt wait defaults tenant).map Manifest.key →
      t.object? k = none := fun k ne new => by
    rw [after.elsewhere k ne, others k new, ← same, alone k ne]
  refine ⟨pass, b', t, ran, ⟨after.result, after.ready, isSome_iff ?_ (fun k listed => ?_) nothing⟩,
    after.quiet, fun child mem => ?_, fun k ne new => nothing k ne fun listed => new ?_,
    later, kept, spec⟩
  · obtain ⟨live, there, -⟩ := kept.there
    exact ⟨live, there⟩
  · obtain ⟨child, mem, rfl⟩ := List.mem_map.1 listed
    obtain ⟨object, there⟩ := made child mem
    exact ⟨object, (after.elsewhere _ (apart child (mem_of_prompt mem))).trans there⟩
  · rw [after.elsewhere _ (apart child mem)]
    exact stands child mem
  · obtain ⟨child, mem, rfl⟩ := List.mem_map.1 listed
    exact List.mem_map_of_mem (mem_of_prompt mem)

/-- A pass over a tenant whose namespace is in use makes what is missing and is done. -/
theorem last_pass (a : Applier) (wait : Bool) (stored : Stored key tenant identity s)
    (quiet : Quiet s) (stands : Stands defaults tenant identity (some active) s)
    (nothing : ∀ k, k ≠ key → k ∉ (children defaults tenant).map Manifest.key →
      s.object? k = none) (clock : ∀ s, OnlyRead s (now.run s).2) (b : Backoff) :
    ∃ pass b' t,
      (((standard (engine a defaults wait now)).reconcileKey key).run b).run s =
        ((pass, b'), t) ∧
      Leaves pass key t .done true ((children defaults tenant).map Manifest.key) ∧
      Complete defaults tenant identity (some active) t ∧
      ∃ status, statusOf key t = some status ∧
        ∀ child ∈ children defaults tenant, status.wasCreated child.key = true := by
  obtain ⟨pass, b', t, start, u, v, ending, p, attempts, ran, serves, same, still, all, phases,
    after⟩ := pass_engine a defaults wait stored clock quiet b
  have apart : ∀ child ∈ children defaults tenant, child.key ≠ key := fun child mem =>
    key_ne_of_child stored.kind mem
  obtain ⟨rfl, complete⟩ := phases_complete clock stored.named serves still (.inr rfl)
    (fun _ => rfl) (fun child mem => same child.key ▸ stands child mem) phases
  obtain ⟨later, kept, -, stated⟩ := stored_after stored serves after
  have finished : Complete defaults tenant identity (some active) t := fun child mem => by
    rw [after.elsewhere _ (apart child mem)]
    exact complete child mem
  refine ⟨pass, b', t, ran, ⟨after.result, after.ready, isSome_iff ?_ (fun k listed => ?_)
    fun k ne new => ?_⟩, finished, p.status, stated, fun child mem => ?_⟩
  · obtain ⟨live, there, -⟩ := kept.there
    exact ⟨live, there⟩
  · obtain ⟨child, mem, rfl⟩ := List.mem_map.1 listed
    obtain ⟨object, there, -⟩ := finished child mem
    exact ⟨object, there⟩
  · have listed : k ∉ start.resources.keys := by rwa [ResourceSet.keys, serves.resources]
    rw [after.elsewhere k ne, phases.frame listed, ← same, nothing k ne new]
  · exact Phase.created_of_complete (readOnly_engine clock) still all (serves.resources ▸ mem)

/-- A tenant that is stored alone is ready after two passes, if its namespace comes into use between
them. The first pass makes all children, or just the namespace if the others have to wait for it,
and asks for another one. The second is done, and then exactly the tenant and its children are
stored: each child is its body with the reference to the tenant and the books of the store, and is
marked as created. -/
theorem converges {later : StateM MemoryStore Timestamp} (stored : Stored key tenant identity s)
    (quiet : Quiet s) (alone : ∀ k, k ≠ key → s.object? k = none)
    (clock : ∀ s, OnlyRead s (now.run s).2) (clock' : ∀ s, OnlyRead s (later.run s).2)
    (b b' : Backoff) :
    wanted defaults tenant = .ok (children defaults tenant) ∧ ∃ first c t second c' u,
      (((standard (engine a defaults wait now)).reconcileKey key).run b).run s = ((first, c), t) ∧
      Leaves first key t (.requeueAfter (.ofSeconds (if wait then 10 else 5))) false
        ((prompt wait defaults tenant).map Manifest.key) ∧
      (((standard (engine a defaults wait later)).reconcileKey key).run b').run
        (t.setStatus (Rulebook.namespaceKey tenant.namespaceName) active).2 = ((second, c'), u) ∧
      Leaves second key u .done true ((children defaults tenant).map Manifest.key) ∧
      Complete defaults tenant identity (some active) u ∧
      ∃ status, statusOf key u = some status ∧
        ∀ child ∈ children defaults tenant, status.wasCreated child.key = true := by
  obtain ⟨first, c, t, ran, leaves, still, stands, nothing, tenant', kept, spec⟩ :=
    first_pass a defaults wait stored quiet alone clock b
  have present := (leaves.exactly _).2
    (.inr (List.mem_map_of_mem (namespaceManifest_mem_prompt wait defaults tenant)))
  obtain ⟨object, there⟩ := Option.isSome_iff_exists.1 present
  have written := written_setStatus there active
  have apart : ∀ child ∈ children defaults tenant, child.key ≠ key := fun child mem =>
    key_ne_of_child stored.kind mem
  have mine := apart _ (namespaceManifest_mem defaults tenant)
  obtain ⟨second, c', u, ran', leaves', complete, status, stated, created⟩ :=
    last_pass a wait (kept.congr ((written key).trans (if_neg mine.symm)))
      (quiet_setStatus still _ active) ((stands_congr spec).2 (stands.setStatus present active))
      (fun k ne new => by
        rw [children_congr spec] at new
        have other : k ≠ (namespaceManifest tenant.namespaceName).key := fun eq =>
          new (eq ▸ List.mem_map_of_mem (namespaceManifest_mem defaults tenant))
        exact (written k).trans ((if_neg other).trans (nothing k ne new))) clock' b'
  rw [children_congr spec] at leaves' created
  exact ⟨wanted_eq stored.named, first, c, t, second, c', u, ran, leaves, ran', leaves',
    (complete_congr spec).1 complete, status, stated, created⟩

end Passes

/-! ## An instance -/

section Instance

open Reconciler

/-- A tenant as it is read. -/
def team : Tenant where
  metadata := { Metadata.empty with
    name := some "team", uid := some "team-uid", generation := some 1, resourceVersion := some "1" }
  spec := ⟨"team", .none⟩
  status? := none

def teamIdentity : OwnerIdentity := ⟨gvk, none, "team", "team-uid"⟩

/-- The tenant as it is stored. -/
def teamObject : Json :=
  tenantDocument.setMember "metadata" (.object [("name", .str "team"), ("uid", .str "team-uid"),
    ("generation", .int 1), ("resourceVersion", .str "1")])

/-- The store with nothing but the tenant. -/
def lone : MemoryStore := (MemoryStore.empty.insert tenantDocument).2

theorem stored_team : Stored tenantKey team teamIdentity lone :=
  ⟨⟨teamObject, rfl, rfl⟩, rfl, rfl, rfl, by decide⟩

theorem team_converges :
    Stored tenantKey team teamIdentity lone ∧ ∃ first c t second c' u,
      (((standard (engine .standard .standard true (pure (.ofSeconds 0)))).reconcileKey
        tenantKey).run .standard).run lone = ((first, c), t) ∧
      first.result = .ok (.requeueAfter (.ofSeconds 10)) ∧
      (∀ k, (t.object? k).isSome = true ↔ k = tenantKey ∨ k ∈ [Rulebook.namespaceKey "team"]) ∧
      (((standard (engine .standard .standard true (pure (.ofSeconds 60)))).reconcileKey
        tenantKey).run .standard).run (t.setStatus (Rulebook.namespaceKey "team") active).2 =
          ((second, c'), u) ∧
      second.result = .ok .done ∧ storedReady Tenant tenantKey u = some true ∧
      Complete .standard team teamIdentity (some active) u := by
  have quiet : Quiet lone := fun op => by cases op <;> rfl
  have only : lone.objects = SortedMap.empty.insert tenantKey teamObject := rfl
  have alone : ∀ k, k ≠ tenantKey → lone.object? k = none := fun k ne => by
    rw [object?, only, SortedMap.get?_insert, if_neg ne]
    rfl
  have clock : ∀ time s, OnlyRead s ((pure time : StateM MemoryStore Timestamp).run s).2 :=
    fun _ s => .refl s
  obtain ⟨-, first, c, t, second, c', u, ran, leaves, ran', leaves', complete, -⟩ :=
    @converges .standard .standard true (pure (.ofSeconds 0)) _ _ _ _ (pure (.ofSeconds 60))
      stored_team quiet alone (clock _) (clock _) .standard .standard
  exact ⟨stored_team, first, c, t, second, c', u, ran, leaves.outcome, leaves.exactly, ran',
    leaves'.outcome, leaves'.ready, complete⟩

end Instance

end Tenant

end DesiredState
