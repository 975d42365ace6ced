import DesiredState.Proofs.Applying.Repetition
import DesiredState.Proofs.Readiness.Generations
import DesiredState.Proofs.Store.Versions

/-!
# Applying in any order

Wanted objects with distinct keys do not get in each other's way. Where no call fails, what an
application comes to and what it leaves under its key follow from the object that it finds there,
up to the stamps that the store gives out, and every other object stays as it is (`apply_settles`).
A list of applications finds under each key what was there at first (`applyEach_settles`). So the
order of the list does not matter (`applyEach_perm`).
-/

namespace DesiredState

open Json MemoryStore

/-! ## Writes of a store that refuses none -/

namespace MemoryStore

variable {s : MemoryStore} {key : ObjectKey}

theorem create_settles (quiet : Quiet s) (absent : s.object? key = none) (body : Json) :
    ∃ t, s.create key body = (.ok (s.made body), t) ∧ Quiet t ∧
      Written s t key (s.made body) := by
  have succeeds := create_of_quiet quiet absent body
  have quiet' := quiet_create quiet key body
  rcases create_cases s key body with ⟨e, t, ran, -⟩ | ⟨t, ran, -, written⟩
  · rw [ran] at succeeds
    cases succeeds
  · rw [ran] at quiet'
    exact ⟨t, ran, quiet', written⟩

/-- A patch that would change nothing leaves the object with its version. -/
theorem patch_settles {live patch : Json} (quiet : Quiet s) (there : s.object? key = some live)
    (fresh : staleVersion? patch live = none) :
    ∃ object t, s.patch key patch = (.ok object, t) ∧ Quiet t ∧
      Written s t key
        (if (live.patched (effective patch)).same live then live else s.changed live patch) := by
  obtain ⟨object, succeeds⟩ := patch_of_quiet quiet there fresh
  have quiet' := quiet_patch quiet key patch
  rcases patch_cases s key patch with ⟨e, t, ran, -⟩ | ⟨live', there', -, patched⟩
  · rw [ran] at succeeds
    cases succeeds
  · obtain rfl : live = live' := Option.some.inj (there.symm.trans there')
    rcases patched with ⟨t, ran, moot, same⟩ | ⟨t, ran, effective, written⟩
    · rw [ran] at quiet'
      refine ⟨live, t, ran, quiet', fun k => ?_⟩
      rw [if_pos moot, ← same k]
      by_cases eq : k = key
      · rw [if_pos eq, eq, there]
      · rw [if_neg eq]
    · rw [ran] at quiet'
      rw [if_neg (Bool.eq_false_iff.1 effective)]
      exact ⟨_, t, ran, quiet', written⟩

end MemoryStore

/-! ## Plans that are carried out without a failure -/

namespace Plan

/-- What a plan comes to if no call fails. -/
def applied : Plan → Applied
  | create _ => .created
  | leave => .skippedImmutable
  | keep => .unchanged
  | patch _ difference => .updated difference

/-- What a plan leaves of a live object if no call fails, with the stamps of a store. -/
def leaves (s : MemoryStore) (live : Option Json) : Plan → Option Json
  | create body => some (s.made body)
  | leave | keep => live
  | patch document _ =>
    live.map fun object =>
      if (object.patched (effective document)).same object then object
      else s.changed object document

/-- The call of the plan, if any, is not refused in view of the live object. -/
def Fits (live : Option Json) : Plan → Prop
  | create _ => live = none
  | leave | keep => True
  | patch document _ => ∃ object, live = some object ∧ staleVersion? document object = none

/-- What the plan writes has metadata. -/
def WritesMetadata : Plan → Prop
  | create body => body.hasMetadata = true
  | leave | keep => True
  | patch document _ => document.hasMetadata = true

section Of

variable {immutable : List String} {wanted : Manifest} {live : Option Json}
  (hb : wanted.body.hasMetadata = true)

include hb

theorem writesMetadata_of : (Plan.of immutable wanted live).WritesMetadata := by
  cases plan : Plan.of immutable wanted live with
  | create body =>
    cases live with
    | none =>
      obtain rfl : wanted.body = body := Plan.create.inj plan
      exact hb
    | some live =>
      rw [of_some] at plan
      split at plan
      · cases plan
      · split at plan <;> cases plan
  | patch document difference => exact hasMetadata_of_patch hb plan
  | _ => trivial

/-- The plan for a live object that states its version is not refused. -/
theorem fits_of (stamped : ∀ object, live = some object → object.isStamped = true) :
    (Plan.of immutable wanted live).Fits live := by
  cases live with
  | none => exact rfl
  | some object =>
    cases immutable' : immutable.contains wanted.kind with
    | true =>
      rw [of_immutable immutable']
      trivial
    | false =>
      cases agrees : (drift wanted.kind (fitted wanted.body object) object).isEmpty with
      | true =>
        rw [of_agreeing immutable' agrees]
        trivial
      | false =>
        rw [of_drifted immutable' agrees]
        have fits := (metadata_fitted object hb).1
        exact ⟨object, rfl, fresh_of_version (versionOf_document fits (stamped object rfl))⟩

end Of

end Plan

/-- The objects are the same apart from the texts of their versions, and of their uids if there was
no object before. -/
structure AlikeSince (before : Option Json) (x y : Json) : Prop where
  alike : Alike x y
  uid : before.isSome = true → x.metadataFields.get? "uid" = y.metadataFields.get? "uid"

theorem AlikeSince.refl (before : Option Json) (x : Json) : AlikeSince before x x :=
  ⟨.refl x, fun _ => rfl⟩

/-- Two stores leave the same of one object, apart from their stamps. -/
theorem Plan.leaves_alike {live : Option Json} {plan : Plan} (fits : plan.Fits live)
    (writes : plan.WritesMetadata) (s t : MemoryStore) :
    Option.Rel (AlikeSince live) (plan.leaves s live) (plan.leaves t live) := by
  have still : Option.Rel (AlikeSince live) live live := by
    cases live with
    | none => exact .none
    | some object => exact .some (.refl _ object)
  cases plan with
  | create body =>
    obtain rfl : live = none := fits
    exact .some ⟨alike_made s t writes, nofun⟩
  | leave => exact still
  | keep => exact still
  | patch document difference =>
    obtain ⟨object, rfl, -⟩ := fits
    unfold leaves
    simp only [Option.map_some]
    split
    · exact still
    · refine .some ⟨alike_changed s t writes, fun _ => ?_⟩
      rw [uid_changed s object writes, uid_changed t object writes]

namespace Applier

variable {a : Applier} {owner : OwnerIdentity} {s t : MemoryStore} {wanted : Manifest}

/-- Without queued failures, carrying out a plan that fits comes to what is planned. -/
theorem carryOut_settles (a : Applier) {key : ObjectKey} {plan : Plan} (quiet : Quiet s)
    (fits : plan.Fits (s.object? key)) :
    ∃ t, (a.carryOut store key plan).run s = (.succeeded plan.applied, t) ∧ Quiet t ∧
      ∀ k, t.object? k = if k = key then plan.leaves s (s.object? key) else s.object? k := by
  have still : ∀ k, s.object? k = if k = key then s.object? key else s.object? k := fun k => by
    by_cases eq : k = key
    · rw [if_pos eq, eq]
    · rw [if_neg eq]
  cases plan with
  | create body =>
    obtain ⟨t, ran, quiet, written⟩ := create_settles quiet fits body
    exact ⟨t, carryOut_create ran, quiet, written⟩
  | leave => exact ⟨s, rfl, quiet, still⟩
  | keep => exact ⟨s, rfl, quiet, still⟩
  | patch document difference =>
    obtain ⟨object, there, fresh⟩ := fits
    obtain ⟨answer, t, ran, quiet, after⟩ := patch_settles quiet there fresh
    refine ⟨t, carryOut_patch ran, quiet, fun k => ?_⟩
    rw [after, there, Plan.leaves, Option.map_some]

/-- The plan for a wanted object in a store. -/
def planIn (a : Applier) (owner : OwnerIdentity) (s : MemoryStore) (wanted : Manifest) : Plan :=
  .of a.immutable (wanted.ownedBy owner) (s.object? wanted.key)

/-- Without queued failures, an application comes to what is planned for the object it finds. -/
theorem apply_settles (a : Applier) (owner : OwnerIdentity) (quiet : Quiet s)
    (hb : wanted.body.hasMetadata = true)
    (stamped : ∀ live, s.object? wanted.key = some live → live.isStamped = true) :
    ∃ t, (a.apply store wanted owner).run s = (.succeeded (a.planIn owner s wanted).applied, t) ∧
      Quiet t ∧ ∀ k, t.object? k =
        if k = wanted.key then
          (a.planIn owner s wanted).leaves (s.count .get) (s.object? wanted.key)
        else s.object? k := by
  rw [apply_of_get (get_of_quiet quiet wanted.key)]
  have owned : (wanted.ownedBy owner).body.hasMetadata = true := (owner.metadata_attachTo hb).1
  exact carryOut_settles a (quiet_count quiet .get) (Plan.fits_of owned stamped)

/-! ## Lists of applications -/

/-- Apply wanted objects one after the other. -/
def applyEach {m : Type → Type} [Monad m] [Absorbs m] (a : Applier) (store : Store m)
    (owner : OwnerIdentity) (l : List Manifest) : m (List Attempt) :=
  l.mapM fun wanted => a.apply store wanted owner

theorem applyEach_cons (l : List Manifest) :
    (a.applyEach store owner (wanted :: l)).run s =
      let first := (a.apply store wanted owner).run s
      let later := (a.applyEach store owner l).run first.2
      (first.1 :: later.1, later.2) := by
  rw [applyEach, List.mapM_cons]
  rfl

/-- The second store holds what the plans for the first one leave, and else the same objects. -/
structure Settles (a : Applier) (owner : OwnerIdentity) (l : List Manifest)
    (s t : MemoryStore) : Prop where
  left : ∀ wanted ∈ l, ∃ u, t.object? wanted.key =
    (a.planIn owner s wanted).leaves u (s.object? wanted.key)
  frame : ∀ k, (∀ wanted ∈ l, wanted.key ≠ k) → t.object? k = s.object? k

/-- Every application of a list finds under its key what was there at first. -/
theorem applyEach_settles (a : Applier) (owner : OwnerIdentity) {l : List Manifest}
    (distinct : (l.map Manifest.key).Nodup) (hb : ∀ wanted ∈ l, wanted.body.hasMetadata = true)
    (quiet : Quiet s)
    (stamped : ∀ wanted ∈ l, ∀ live, s.object? wanted.key = some live → live.isStamped = true) :
    ∃ t, (a.applyEach store owner l).run s =
        (l.map fun wanted => .succeeded (a.planIn owner s wanted).applied, t) ∧
      Settles a owner l s t := by
  induction l generalizing s with
  | nil => exact ⟨s, rfl, nofun, fun _ _ => rfl⟩
  | cons wanted l ih =>
    obtain ⟨fresh, distinct⟩ := List.nodup_cons.1 distinct
    have apart : ∀ other ∈ l, other.key ≠ wanted.key := fun other mem eq =>
      fresh (eq ▸ List.mem_map_of_mem mem)
    obtain ⟨t, ran, quiet, after⟩ := apply_settles a owner quiet (hb wanted List.mem_cons_self)
      (stamped wanted List.mem_cons_self)
    have kept : ∀ other ∈ l, t.object? other.key = s.object? other.key := fun other mem => by
      rw [after, if_neg (apart other mem)]
    have plans : ∀ other ∈ l, a.planIn owner t other = a.planIn owner s other := fun other mem => by
      rw [planIn, kept other mem, planIn]
    obtain ⟨u, ran', settles⟩ := ih distinct
      (fun other mem => hb other (List.mem_cons_of_mem _ mem)) quiet fun other mem live there =>
        stamped other (List.mem_cons_of_mem _ mem) live ((kept other mem).symm.trans there)
    refine ⟨u, ?_, fun other mem => ?_, fun k ne => ?_⟩
    · rw [applyEach_cons, ran]
      dsimp only
      rw [ran', List.map_cons]
      refine congrArg (fun later => (_ :: later, u)) (List.map_congr_left fun other mem => ?_)
      rw [plans other mem]
    · rcases List.mem_cons.1 mem with rfl | mem
      · exact ⟨s.count .get, by rw [settles.frame _ apart, after, if_pos rfl]⟩
      · obtain ⟨v, left⟩ := settles.left other mem
        rw [plans other mem, kept other mem] at left
        exact ⟨v, left⟩
    · rw [settles.frame k fun other mem => ne other (List.mem_cons_of_mem _ mem), after,
        if_neg (ne wanted List.mem_cons_self).symm]

/-- Objects with distinct keys can be applied in any order: each application comes to the same, and
the same is stored afterwards, apart from versions and the uids of new objects. -/
theorem applyEach_perm (a : Applier) (owner : OwnerIdentity) {l l' : List Manifest}
    (perm : l.Perm l') (distinct : (l.map Manifest.key).Nodup)
    (accepted : ∀ wanted ∈ l, Manifest.ofBody wanted.body = .ok wanted) (quiet : Quiet s)
    (stamped : ∀ k live, s.object? k = some live → live.isStamped = true) :
    ∃ outcome : Manifest → Applied,
      ((a.applyEach store owner l).run s).1 = l.map (fun wanted => .succeeded (outcome wanted)) ∧
      ((a.applyEach store owner l').run s).1 = l'.map (fun wanted => .succeeded (outcome wanted)) ∧
      ∀ k, Option.Rel (AlikeSince (s.object? k))
        (((a.applyEach store owner l).run s).2.object? k)
        (((a.applyEach store owner l').run s).2.object? k) := by
  have hb : ∀ wanted ∈ l, wanted.body.hasMetadata = true := fun wanted mem =>
    Manifest.hasMetadata_of_ofBody (accepted wanted mem)
  have distinct' : (l'.map Manifest.key).Nodup := (perm.map _).nodup_iff.1 distinct
  obtain ⟨t, ran, settles⟩ := applyEach_settles a owner distinct hb quiet fun wanted _ =>
    stamped wanted.key
  obtain ⟨t', ran', settles'⟩ := applyEach_settles a owner distinct'
    (fun wanted mem => hb wanted (perm.mem_iff.2 mem)) quiet fun wanted _ => stamped wanted.key
  rw [ran, ran']
  refine ⟨fun wanted => (a.planIn owner s wanted).applied, rfl, rfl, fun k => ?_⟩
  by_cases found : ∃ wanted ∈ l, wanted.key = k
  · obtain ⟨wanted, mem, rfl⟩ := found
    obtain ⟨u, left⟩ := settles.left wanted mem
    obtain ⟨u', left'⟩ := settles'.left wanted (perm.mem_iff.1 mem)
    have owned : (wanted.ownedBy owner).body.hasMetadata = true :=
      (owner.metadata_attachTo (hb wanted mem)).1
    rw [left, left']
    exact Plan.leaves_alike (Plan.fits_of owned (stamped wanted.key)) (Plan.writesMetadata_of owned)
      u u'
  · have absent : ∀ wanted ∈ l, wanted.key ≠ k := fun wanted mem eq => found ⟨wanted, mem, eq⟩
    have absent' : ∀ wanted ∈ l', wanted.key ≠ k := fun wanted mem =>
      absent wanted (perm.mem_iff.2 mem)
    rw [settles.frame k absent, settles'.frame k absent']
    cases s.object? k with
    | none => exact .none
    | some object => exact .some (.refl _ object)

/-! ### An instance -/

section Instance

/-- Settings that are wanted and not there yet. -/
def tuning : Manifest :=
  ⟨.of ⟨"", "v1", "ConfigMap"⟩ (some "team") "tuning",
    .object [("apiVersion", .str "v1"), ("kind", .str "ConfigMap"),
      ("metadata", .object [("name", .str "tuning"), ("namespace", .str "team")]),
      ("data", .object [("rate", .str "3")])]⟩

/-- Whichever settings come first, the older ones are updated and the new ones are made. -/
theorem apply_settings_tuning :
    ((standard.applyEach store team [settings, tuning]).run stocked).1 =
        [.succeeded (.updated ⟨1, 1, 0⟩), .succeeded .created] ∧
      ((standard.applyEach store team [tuning, settings]).run stocked).1 =
        [.succeeded .created, .succeeded (.updated ⟨1, 1, 0⟩)] ∧
      ∀ k, Option.Rel (AlikeSince (stocked.object? k))
        (((standard.applyEach store team [settings, tuning]).run stocked).2.object? k)
        (((standard.applyEach store team [tuning, settings]).run stocked).2.object? k) := by
  have first : ((standard.applyEach store team [settings, tuning]).run stocked).1 =
      [.succeeded (.updated ⟨1, 1, 0⟩), .succeeded .created] := by decide +kernel
  have valid : Valid stocked := (advance_insert (valid_emptyOf defaultFamily) _).valid
  have stamped : ∀ k live, stocked.object? k = some live → live.isStamped = true :=
    fun k live there => by
      obtain ⟨metadata, v, -, version⟩ := valid k live there
      rw [isStamped, metadata, version]
      rfl
  have accepted : ∀ wanted ∈ [settings, tuning], Manifest.ofBody wanted.body = .ok wanted := by
    simp only [List.forall_mem_cons, List.not_mem_nil, false_imp_iff, implies_true, and_true]
    exact ⟨rfl, rfl⟩
  obtain ⟨outcome, ran, ran', stored⟩ := applyEach_perm standard team
    (.swap tuning settings []) (by decide +kernel) accepted (fun _ => rfl) stamped
  obtain ⟨updated, created⟩ :
      outcome settings = .updated ⟨1, 1, 0⟩ ∧ outcome tuning = .created := by
    simpa using ran.symm.trans first
  refine ⟨first, ?_, stored⟩
  rw [ran', List.map_cons, List.map_cons, List.map_nil, updated, created]

end Instance

end Applier

end DesiredState
