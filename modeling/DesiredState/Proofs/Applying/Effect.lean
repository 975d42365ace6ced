import DesiredState.Applier
import DesiredState.Proofs.Applying.Written

/-!
# What one application does

All that applying a wanted object to the store in memory can come to, whatever failures are
queued (`apply_effect`). Once it has come to anything but a failure or a conflict, the live object
is `Formed`: it is in place (`Formed.inPlace`), and no later plan changes it (`Formed.agrees`).
-/

namespace DesiredState.Applier

open Json Bookkeeping Plan MemoryStore

/-- What applying a wanted object to a store can come to, by the attempt and the store after it. -/
inductive Effect (a : Applier) (wanted : Manifest) (owner : OwnerIdentity) (s t : MemoryStore) :
    Attempt → Prop where
  /-- A call failed. -/
  | failed {attempt : Attempt} {error : Error} (failure : attempt.result = .error error)
      (same : SameObjects s t) : Effect a wanted owner s t attempt
  /-- The patch failed with a conflict. -/
  | conflicted {live : Json} (there : s.object? wanted.key = some live)
      (mutable : a.immutable.contains wanted.kind = false)
      (drifted : (drift wanted.kind (fitted (owner.attachTo wanted.body) live) live).isEmpty =
        false)
      (same : SameObjects s t) : Effect a wanted owner s t (.succeeded .conflicted)
  /-- There was no object. -/
  | created (u : MemoryStore) (absent : s.object? wanted.key = none)
      (written : MemoryStore.Written s t wanted.key (u.made (owner.attachTo wanted.body))) :
      Effect a wanted owner s t (.succeeded .created)
  /-- The object is of an immutable kind. -/
  | left {live : Json} (there : s.object? wanted.key = some live)
      (immutable : a.immutable.contains wanted.kind = true) (same : SameObjects s t) :
      Effect a wanted owner s t (.succeeded .skippedImmutable)
  /-- There was no drift. -/
  | kept {live : Json} (there : s.object? wanted.key = some live)
      (mutable : a.immutable.contains wanted.kind = false)
      (agrees : (drift wanted.kind (fitted (owner.attachTo wanted.body) live) live).isEmpty = true)
      (same : SameObjects s t) : Effect a wanted owner s t (.succeeded .unchanged)
  /-- The patch changed the object. -/
  | patched (u : MemoryStore) (live : Json) {difference : Difference}
      (there : s.object? wanted.key = some live)
      (mutable : a.immutable.contains wanted.kind = false)
      (drifted : (drift wanted.kind (fitted (owner.attachTo wanted.body) live) live).isEmpty =
        false)
      (written : MemoryStore.Written s t wanted.key
        (u.changed live (document (fitted (owner.attachTo wanted.body) live) live))) :
      Effect a wanted owner s t (.succeeded (.updated difference))
  /-- There was drift, but the patch left the object as it was. -/
  | idle {live : Json} {difference : Difference} (there : s.object? wanted.key = some live)
      (mutable : a.immutable.contains wanted.kind = false)
      (drifted : (drift wanted.kind (fitted (owner.attachTo wanted.body) live) live).isEmpty =
        false)
      (moot : (live.patched (effective
        (document (fitted (owner.attachTo wanted.body) live) live))).same live = true)
      (same : SameObjects s t) : Effect a wanted owner s t (.succeeded (.updated difference))

variable {a : Applier} {wanted : Manifest} {owner : OwnerIdentity} {s t : MemoryStore}

/-! ## Running an application -/

theorem apply_of_get_error {e : Error} (h : s.get wanted.key = (.error e, t)) :
    (a.apply store wanted owner).run s = (.notRead e, t) := by
  have run : (store.get wanted.key).run.run s = (.error e, t) := h
  unfold apply
  rw [StateT.run_bind, run]
  rfl

theorem apply_of_get {live : Option Json} (h : s.get wanted.key = (.ok live, t)) :
    (a.apply store wanted owner).run s =
      (a.carryOut store wanted.key (.of a.immutable (wanted.ownedBy owner) live)).run t := by
  have run : (store.get wanted.key).run.run s = (.ok live, t) := h
  unfold apply
  rw [StateT.run_bind, run]
  rfl

theorem carryOut_create {key : ObjectKey} {body : Json} {result : Result Json}
    (h : s.create key body = (result, t)) :
    (a.carryOut store key (.create body)).run s = (.ofCreate result, t) := by
  have run : (store.create key body a.manager).run.run s = (result, t) := h
  unfold carryOut
  rw [StateT.run_bind, run]
  rfl

theorem carryOut_patch {key : ObjectKey} {document : Json} {difference : Difference}
    {result : Result Json} (h : s.patch key document = (result, t)) :
    (a.carryOut store key (.patch document difference)).run s =
      (.ofPatch difference result, t) := by
  have run : (store.patch key document a.manager).run.run s = (result, t) := h
  unfold carryOut
  rw [StateT.run_bind, run]
  rfl

theorem ofPatch_conflict {difference : Difference} {e : Error} (h : e.isConflict = true) :
    Attempt.ofPatch difference (.error e) = .succeeded .conflicted := if_pos h

theorem ofPatch_failure {difference : Difference} {e : Error} (h : e.isConflict = false) :
    Attempt.ofPatch difference (.error e) = .notPatched e := if_neg (Bool.eq_false_iff.1 h)

/-- Applying a wanted object comes to one of the effects. -/
theorem apply_effect (a : Applier) (wanted : Manifest) (owner : OwnerIdentity) (s : MemoryStore) :
    ∃ attempt t, (a.apply store wanted owner).run s = (attempt, t) ∧
      Effect a wanted owner s t attempt := by
  rcases get_cases s wanted.key with ⟨e, u, got, same⟩ | ⟨u, got, same⟩
  · exact ⟨_, _, apply_of_get_error got, .failed rfl same⟩
  rw [apply_of_get got]
  cases there : s.object? wanted.key with
  | none =>
    rcases create_cases u wanted.key (owner.attachTo wanted.body) with
      ⟨e, t, ran, same'⟩ | ⟨t, ran, -, written⟩
    · exact ⟨_, _, carryOut_create ran, .failed rfl (SameObjects.trans same same')⟩
    · exact ⟨_, _, carryOut_create ran, .created u there (MemoryStore.Written.after same written)⟩
  | some live =>
    cases immutable : a.immutable.contains wanted.kind with
    | true =>
      have immutable' : a.immutable.contains (wanted.ownedBy owner).kind = true := immutable
      rw [of_immutable immutable']
      exact ⟨_, _, rfl, .left there immutable same⟩
    | false =>
      have mutable : a.immutable.contains (wanted.ownedBy owner).kind = false := immutable
      cases agrees :
        (drift wanted.kind (fitted (owner.attachTo wanted.body) live) live).isEmpty with
      | true =>
        rw [of_agreeing mutable agrees]
        exact ⟨_, _, rfl, .kept there immutable agrees same⟩
      | false =>
        rw [of_drifted mutable agrees]
        rcases patch_cases u wanted.key (document (fitted (owner.attachTo wanted.body) live) live)
          with ⟨e, t, ran, same'⟩ | ⟨live', there', -, ⟨t, ran, moot, same'⟩ | ⟨t, ran, -, written⟩⟩
        · refine ⟨_, _, carryOut_patch ran, ?_⟩
          cases conflict : e.isConflict with
          | true =>
            rw [ofPatch_conflict conflict]
            exact .conflicted there immutable agrees (SameObjects.trans same same')
          | false =>
            rw [ofPatch_failure conflict]
            exact .failed rfl (SameObjects.trans same same')
        · obtain rfl : live = live' := Option.some.inj (there.symm.trans ((same _).trans there'))
          exact ⟨_, _, carryOut_patch ran,
            .idle there immutable agrees moot (SameObjects.trans same same')⟩
        · obtain rfl : live = live' := Option.some.inj (there.symm.trans ((same _).trans there'))
          exact ⟨_, _, carryOut_patch ran,
            .patched u live there immutable agrees (MemoryStore.Written.after same written)⟩

/-- Computations before and after that write nothing do not change an effect. -/
theorem Effect.congr {s' t' : MemoryStore} {attempt : Attempt} (before : SameObjects s s')
    (after : SameObjects t' t) (h : Effect a wanted owner s' t' attempt) :
    Effect a wanted owner s t attempt := by
  have whole : SameObjects s' t' → SameObjects s t := fun same =>
    SameObjects.trans before (SameObjects.trans same after)
  have there : ∀ {o}, s'.object? wanted.key = o → s.object? wanted.key = o := fun h =>
    (before _).trans h
  cases h with
  | failed failure same => exact .failed failure (whole same)
  | conflicted live mutable drifted same =>
    exact .conflicted (there live) mutable drifted (whole same)
  | created u absent written =>
    exact .created u (there absent)
      (MemoryStore.Written.after before (MemoryStore.Written.before written after))
  | left live immutable same => exact .left (there live) immutable (whole same)
  | kept live mutable agrees same => exact .kept (there live) mutable agrees (whole same)
  | patched u object live mutable drifted written =>
    exact .patched u object (there live) mutable drifted
      (MemoryStore.Written.after before (MemoryStore.Written.before written after))
  | idle live mutable drifted moot same =>
    exact .idle (there live) mutable drifted moot (whole same)

/-- An application writes under the key of the wanted object alone. -/
theorem Effect.frame {attempt : Attempt} (h : Effect a wanted owner s t attempt) {k : ObjectKey}
    (ne : k ≠ wanted.key) : t.object? k = s.object? k := by
  cases h with
  | failed _ same => exact (same k).symm
  | conflicted _ _ _ same => exact (same k).symm
  | created u _ written => rw [written k, if_neg ne]
  | left _ _ same => exact (same k).symm
  | kept _ _ _ same => exact (same k).symm
  | patched u live _ _ _ written => rw [written k, if_neg ne]
  | idle _ _ _ _ same => exact (same k).symm

/-! ## What the effects come to -/

/-- The body fitted to a live object, if there is one. -/
def fittedTo (body : Json) : Option Json → Json
  | none => body
  | some live => fitted body live

theorem plain_attachTo (owner : OwnerIdentity) {body : Json} (h : Plain body) :
    Plain (owner.attachTo body) := by
  obtain ⟨there, fields⟩ := owner.metadata_attachTo h.hasMetadata
  refine ⟨there, fun k w metadata status hk => ?_, fun k w noisy hk => ?_, ?_⟩
  · rw [owner.member?_attachTo (isObject_of_hasMetadata h.hasMetadata) metadata] at hk
    exact h.members k w metadata status hk
  · rw [fields, SortedMap.get?_insert] at hk
    by_cases e : k = "ownerReferences"
    · rw [if_pos e] at hk
      obtain rfl := Option.some.inj hk
      exact ⟨rfl, rfl⟩
    · rw [if_neg e] at hk
      exact h.metadata k w noisy hk
  · rw [fields, SortedMap.get?_insert, if_neg (by decide), h.uid]

/-- A patch that leaves a live object as it was finds no drift in it. -/
theorem agrees_of_moot (plain : Plain wanted.body) (live : Json)
    (moot : (live.patched (effective
      (document (fitted (owner.attachTo wanted.body) live) live))).same live = true) :
    (drift wanted.kind (fitted (owner.attachTo wanted.body) live) live).isEmpty = true := by
  have fits := plain_fitted live (plain_attachTo owner plain)
  have hd := (metadata_document live fits.hasMetadata).1
  have covered := (upholds_patched live fits).covers_strip
    (metadata_patched_effective live hd).1 fits.hasMetadata wanted.kind
  rw [isEmpty_drift_iff]
  exact covers_congr (same_symm ((Respects.strip wanted.kind).same _ _ moot)) covered

/-- What an application without failure or conflict makes of the object that was there. -/
inductive Formed (a : Applier) (wanted : Manifest) (owner : OwnerIdentity) :
    Option Json → Json → Prop where
  | made (u : MemoryStore) : Formed a wanted owner none (u.made (owner.attachTo wanted.body))
  | left {live : Json} (immutable : a.immutable.contains wanted.kind = true) :
      Formed a wanted owner (some live) live
  | kept {live : Json} (mutable : a.immutable.contains wanted.kind = false)
      (agrees : (drift wanted.kind (fitted (owner.attachTo wanted.body) live) live).isEmpty =
        true) :
      Formed a wanted owner (some live) live
  | changed (u : MemoryStore) (live : Json)
      (mutable : a.immutable.contains wanted.kind = false)
      (drifted : (drift wanted.kind (fitted (owner.attachTo wanted.body) live) live).isEmpty =
        false) :
      Formed a wanted owner (some live)
        (u.changed live (document (fitted (owner.attachTo wanted.body) live) live))

/-- The wanted object is in place: covering what was wanted as fitted to the object that was there
before, unless that one is not to be changed. -/
def InPlace (a : Applier) (owner : OwnerIdentity) (wanted : Manifest) (before : Option Json)
    (object : Json) : Prop :=
  a.immutable.contains wanted.kind = true ∧ before.isSome = true ∨
    covers none (strip wanted.kind object)
      (strip wanted.kind (fittedTo (owner.attachTo wanted.body) before)) = true

section Formed

variable {before : Option Json} {object : Json} (plain : Plain wanted.body)
  (kept : ∀ live, before = some live → live.hasMetadata = true)

include plain in
/-- An application without failure or conflict forms the object. -/
theorem Effect.formed {applied : Applied} (h : Effect a wanted owner s t (.succeeded applied))
    (smooth : applied ≠ .conflicted) :
    ∃ object, t.object? wanted.key = some object ∧
      Formed a wanted owner (s.object? wanted.key) object := by
  cases h with
  | failed failure => cases failure
  | conflicted => exact absurd rfl smooth
  | left there immutable same =>
    refine ⟨_, (same _).symm.trans there, ?_⟩
    rw [there]
    exact .left immutable
  | kept there mutable agrees same =>
    refine ⟨_, (same _).symm.trans there, ?_⟩
    rw [there]
    exact .kept mutable agrees
  | created u absent written =>
    refine ⟨_, (written _).trans (if_pos rfl), ?_⟩
    rw [absent]
    exact .made u
  | patched u live there mutable drifted written =>
    refine ⟨_, (written _).trans (if_pos rfl), ?_⟩
    rw [there]
    exact .changed u live mutable drifted
  | idle there mutable drifted moot same =>
    rw [agrees_of_moot plain _ moot] at drifted
    cases drifted

include plain in
/-- An application writes nothing, or forms the object. -/
theorem Effect.same_or_formed {attempt : Attempt} (h : Effect a wanted owner s t attempt) :
    SameObjects s t ∨ ∃ object, t.object? wanted.key = some object ∧
      Formed a wanted owner (s.object? wanted.key) object := by
  by_cases smooth : ∃ applied, attempt = .succeeded applied ∧ applied ≠ .conflicted
  · obtain ⟨applied, rfl, smooth⟩ := smooth
    exact .inr (h.formed plain smooth)
  · cases h with
    | failed _ same => exact .inl same
    | conflicted _ _ _ same => exact .inl same
    | _ => exact absurd ⟨_, rfl, nofun⟩ smooth

include plain kept in
theorem Formed.hasMetadata (h : Formed a wanted owner before object) :
    object.hasMetadata = true := by
  have owned := plain_attachTo owner plain
  cases h with
  | made u => exact (metadata_made u owned.hasMetadata).1
  | left => exact kept _ rfl
  | kept => exact kept _ rfl
  | changed u live =>
    exact hasMetadata_changed u live (plain_fitted live owned).hasMetadata

include plain kept in
/-- A formed object is in place. -/
theorem Formed.inPlace (h : Formed a wanted owner before object) :
    InPlace a owner wanted before object := by
  have there := h.hasMetadata plain kept
  have owned := plain_attachTo owner plain
  cases h with
  | made u => exact .inr ((upholds_made u owned).covers_strip there owned.hasMetadata _)
  | left immutable => exact .inl ⟨immutable, rfl⟩
  | kept mutable agrees => exact .inr (isEmpty_drift_iff.1 agrees)
  | changed u live =>
    have fits := plain_fitted live owned
    exact .inr ((upholds_changed u live fits).covers_strip there fits.hasMetadata _)

include plain kept in
/-- A formed object leaves no drift for a later plan to find. -/
theorem Formed.agrees (h : Formed a wanted owner before object)
    (mutable : a.immutable.contains wanted.kind = false) :
    (drift wanted.kind (fitted (owner.attachTo wanted.body) object) object).isEmpty = true := by
  have there := h.hasMetadata plain kept
  have owned := plain_attachTo owner plain
  cases h with
  | made u =>
    exact isEmpty_drift_iff.2 ((upholds_fitted owned.hasMetadata _
      (upholds_made u owned)).covers_strip there (plain_fitted _ owned).hasMetadata _)
  | left immutable => rw [immutable] at mutable; cases mutable
  | kept _ agrees => exact agrees
  | changed u live =>
    exact isEmpty_drift_iff.2 ((upholds_changed_fitted u live owned).covers_strip there
      (plain_fitted _ owned).hasMetadata _)

include plain kept in
/-- What was formed once is formed for good. -/
theorem Formed.again {later : Json} (h : Formed a wanted owner before object)
    (h' : Formed a wanted owner (some object) later) : later = object := by
  cases h' with
  | left => rfl
  | kept => rfl
  | changed u live mutable drifted =>
    rw [h.agrees plain kept mutable] at drifted
    cases drifted

end Formed

end DesiredState.Applier
