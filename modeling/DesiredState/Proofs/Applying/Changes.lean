import DesiredState.Proofs.Applying.Convergence
import DesiredState.Proofs.Store.Versions

/-!
# What an update changes

An application that comes to an update found drift and patched. If the manifest is plain, the patch
changes the stored object, which takes a new version, and leaves no drift behind
(`apply_updated_changes`). A manifest that is not plain can be reported as an update for ever: a
null member of it is drift wherever the member is missing, and a patch takes such a member out
(`apply_null_again`).
-/

namespace DesiredState

open Json Bookkeeping Plan MemoryStore

namespace MemoryStore

variable {s : MemoryStore} {live : Json}

/-- Reading takes no version. -/
theorem version_get (s : MemoryStore) (key : ObjectKey) : (s.get key).2.version = s.version := by
  rcases attempt_cases s .get fun s => (.ok (s.object? key), s) with ⟨e, ran⟩ | ran
  all_goals
    rw [MemoryStore.get, ran]
    rfl

/-- What a patch with metadata makes states the next version. -/
theorem versionOf_changed (s : MemoryStore) (live : Json) {patch : Json}
    (h : patch.hasMetadata = true) :
    versionOf (s.changed live patch) = some (toString (s.version + 1)) :=
  versionOf_stamped s.nextVersion (metadata_merged live h).1

/-- No stored object states the next version. -/
theorem Issued.ne_next (issued : Issued s) {key : ObjectKey} (there : s.object? key = some live) :
    versionOf live ≠ some (toString (s.version + 1)) := by
  intro stated
  obtain ⟨v, le, eq⟩ := issued key live _ there stated
  have same : s.version + 1 = v := Nat.repr_injective eq
  omega

end MemoryStore

namespace Applier

variable {a : Applier} {wanted : Manifest} {owner : OwnerIdentity} {s t : MemoryStore}
  {difference : Difference}

/-- A patch comes to an update if it does not fail. -/
theorem ofPatch_eq_updated {planned : Difference} {result : Result Json}
    (h : Attempt.ofPatch planned result = .succeeded (.updated difference)) :
    difference = planned ∧ ∃ object, result = .ok object := by
  rcases result with e | object
  · unfold Attempt.ofPatch at h
    dsimp only at h
    split at h <;> cases h
  · injection h with h
    injection h with h
    exact ⟨h.symm, object, rfl⟩

/-- An application comes to an update by a patch of what it read, and the patch leaves the object
as it was or changes it. -/
theorem apply_updated_cases
    (ran : (a.apply store wanted owner).run s = (.succeeded (.updated difference), t)) :
    ∃ (live : Json) (u : MemoryStore), s.object? wanted.key = some live ∧
      u.version = s.version ∧
      difference = drift wanted.kind (fitted (owner.attachTo wanted.body) live) live ∧
      difference.isEmpty = false ∧
      ((live.patched (effective (document (fitted (owner.attachTo wanted.body) live) live))).same
            live = true ∧ SameObjects s t ∨
        (live.patched (effective (document (fitted (owner.attachTo wanted.body) live) live))).same
            live = false ∧
          MemoryStore.Written s t wanted.key
            (u.changed live (document (fitted (owner.attachTo wanted.body) live) live))) := by
  have version := version_get s wanted.key
  rcases got : s.get wanted.key with ⟨e | found, u⟩
  · rw [apply_of_get_error got] at ran
    cases (Prod.mk.inj ran).1
  rw [got] at version
  obtain ⟨there, same, -⟩ := get_ok got
  rw [apply_of_get got] at ran
  cases found with
  | none =>
    rcases created : u.create wanted.key (wanted.ownedBy owner).body with ⟨e | object, v⟩
    all_goals cases (Prod.mk.inj ((carryOut_create created).symm.trans ran)).1
  | some live =>
    cases immutable : a.immutable.contains (wanted.ownedBy owner).kind with
    | true =>
      rw [of_immutable immutable] at ran
      cases (Prod.mk.inj ran).1
    | false =>
      cases agrees :
        (drift wanted.kind (fitted (owner.attachTo wanted.body) live) live).isEmpty with
      | true =>
        rw [of_agreeing immutable agrees] at ran
        cases (Prod.mk.inj ran).1
      | false =>
        rw [of_drifted immutable agrees] at ran
        refine ⟨live, u, there, version, ?_⟩
        rcases patch_cases u wanted.key (document (fitted (owner.attachTo wanted.body) live) live)
          with ⟨e, v, patched, -⟩ | ⟨live', there', -, ⟨v, patched, moot, same'⟩ |
            ⟨v, patched, differs, written⟩⟩
        · obtain ⟨attempt, -⟩ := Prod.mk.inj ((carryOut_patch patched).symm.trans ran)
          obtain ⟨-, object, succeeded⟩ := ofPatch_eq_updated attempt
          cases succeeded
        · obtain rfl : live = live' := Option.some.inj (there.symm.trans ((same _).trans there'))
          obtain ⟨attempt, rfl⟩ := Prod.mk.inj ((carryOut_patch patched).symm.trans ran)
          obtain ⟨rfl, -⟩ := ofPatch_eq_updated attempt
          exact ⟨rfl, agrees, .inl ⟨moot, SameObjects.trans same same'⟩⟩
        · obtain rfl : live = live' := Option.some.inj (there.symm.trans ((same _).trans there'))
          obtain ⟨attempt, rfl⟩ := Prod.mk.inj ((carryOut_patch patched).symm.trans ran)
          obtain ⟨rfl, -⟩ := ofPatch_eq_updated attempt
          exact ⟨rfl, agrees, .inr ⟨differs, MemoryStore.Written.after same written⟩⟩

/-- An update of a plain manifest changes the stored object, which takes a new version, and no drift
is left. An update that leaves all objects as they are is of a manifest that is not plain. -/
theorem apply_updated_changes (accepted : Manifest.ofBody wanted.body = .ok wanted)
    (issued : Issued s)
    (ran : (a.apply store wanted owner).run s = (.succeeded (.updated difference), t)) :
    ∃ live, s.object? wanted.key = some live ∧
      ((∃ object, t.object? wanted.key = some object ∧ object.same live = false ∧
          versionOf object = some (toString (s.version + 1)) ∧ versionOf live ≠ versionOf object ∧
          (isPlain wanted.body = true →
            (drift wanted.kind (fitted (owner.attachTo wanted.body) object) object).isEmpty =
              true)) ∨
        SameObjects s t ∧ isPlain wanted.body = false) := by
  have metadata := Manifest.hasMetadata_of_ofBody accepted
  obtain ⟨live, u, there, version, rfl, drifted, ⟨moot, same⟩ | ⟨-, written⟩⟩ :=
    apply_updated_cases ran
  all_goals refine ⟨live, there, ?_⟩
  · refine .inr ⟨same, Bool.eq_false_iff.2 fun plain => ?_⟩
    rw [agrees_of_moot (.ofIsPlain metadata plain) live moot] at drifted
    cases drifted
  · have owned := (owner.metadata_attachTo metadata).1
    have document := (metadata_document live (metadata_fitted live owned).1).1
    have states := versionOf_changed u live document
    rw [version] at states
    have differ : versionOf live ≠ versionOf (u.changed live _) := fun eq =>
      issued.ne_next there (eq.trans states)
    refine .inl ⟨_, (written _).trans (if_pos rfl), Bool.eq_false_iff.2 fun same => ?_, states,
      differ, fun plain => ?_⟩
    · exact differ (stringAt?_eq_of_same same _).symm
    · have body := plain_attachTo owner (.ofIsPlain metadata plain)
      rw [isEmpty_drift_iff]
      exact (upholds_changed_fitted u live body).covers_strip (hasMetadata_changed u live
        (plain_fitted live body).hasMetadata) (plain_fitted _ body).hasMetadata _

/-! ## Instances -/

section Instances

theorem issued_stocked : Issued stocked := (issued_emptyOf _).insert _

/-- The older settings are changed. -/
theorem apply_settings_changes :
    Manifest.ofBody settings.body = .ok settings ∧
      ((standard.apply store settings team).run stocked).1 = .succeeded (.updated ⟨1, 1, 0⟩) ∧
      ∃ live, stocked.object? settings.key = some live ∧
        ∃ object, ((standard.apply store settings team).run stocked).2.object? settings.key =
            some object ∧ object.same live = false ∧
          versionOf object = some (toString (stocked.version + 1)) ∧
          versionOf live ≠ versionOf object := by
  have updated : ((standard.apply store settings team).run stocked).1 =
      .succeeded (.updated ⟨1, 1, 0⟩) := by decide +kernel
  have ran : (standard.apply store settings team).run stocked = (.succeeded (.updated ⟨1, 1, 0⟩),
    ((standard.apply store settings team).run stocked).2) := Prod.ext updated rfl
  have plain : isPlain settings.body = true := by decide +kernel
  obtain ⟨live, there, ⟨object, there', differs, states, ne, -⟩ | ⟨-, impure⟩⟩ :=
    apply_updated_changes rfl issued_stocked ran
  · exact ⟨rfl, updated, live, there, object, there', differs, states, ne⟩
  · rw [plain] at impure
    cases impure

/-- Settings with a member that is null. -/
def nulled : Manifest :=
  { settings with
    body := settingsOf [("namespace", .str "team")] [("level", .str "debug"), ("other", .null)] }

/-- The store after one application of these settings. -/
def relieved : MemoryStore := ((standard.apply store nulled team).run stocked).2

/-- From the second time on, the null member is found missing, an update is reported, and the
object is as it was. -/
theorem apply_null_again :
    Manifest.ofBody nulled.body = .ok nulled ∧
      ((standard.apply store nulled team).run stocked).1 = .succeeded (.updated ⟨1, 2, 0⟩) ∧
      ((standard.apply store nulled team).run relieved).1 = .succeeded (.updated ⟨1, 0, 0⟩) ∧
      (relieved.object? nulled.key).any (fun live =>
        (((standard.apply store nulled team).run relieved).2.object? nulled.key).any
          live.same) = true := by
  refine ⟨rfl, by decide +kernel, by decide +kernel, by decide +kernel⟩

end Instances

end Applier

end DesiredState
