import DesiredState.Proofs.Applying.Convergence
import DesiredState.Proofs.Object.Stamps

/-!
# Applications after failures

However often applications to an object have failed before, the object is as it was or formed
(`Effect.reaches`). Where no failure is queued an application does not fail (`apply_of_quiet`), so
it forms the object, and what it forms is always the same up to stamps (`Formed.alike`).
-/

namespace DesiredState

open Json Bookkeeping Plan MemoryStore

/-- The object has metadata with a version that is a text. -/
def Json.isStamped (j : Json) : Bool := j.hasMetadata && (versionOf j).isSome

theorem Json.hasMetadata_of_isStamped {j : Json} (h : j.isStamped = true) :
    j.hasMetadata = true := by
  rw [isStamped, Bool.and_eq_true] at h
  exact h.1

namespace MemoryStore

theorem isStamped_stamped (s : MemoryStore) {j : Json} (h : j.hasMetadata = true) :
    (s.stamped j).isStamped = true := by
  obtain ⟨there, fields⟩ := metadata_stamped s h
  rw [isStamped, there, versionOf_eq, fields, SortedMap.get?_insert, if_pos rfl]
  rfl

end MemoryStore

namespace Plan

/-- A patch states the version of the live object, if that is a text. -/
theorem versionOf_document {body live : Json} (hb : body.hasMetadata = true)
    (hl : live.isStamped = true) : versionOf (document body live) = versionOf live := by
  rw [isStamped, Bool.and_eq_true] at hl
  have version := hl.2
  rw [versionOf_eq] at version
  rw [versionOf_eq, versionOf_eq, (metadata_document live hb).2, if_pos rfl]
  cases there : live.metadataFields.get? "resourceVersion" with
  | none => rw [there] at version; cases version
  | some v => rfl

end Plan

namespace Applier

variable {a : Applier} {wanted : Manifest} {owner : OwnerIdentity} {s t : MemoryStore}
  {before : Option Json} {object : Json}

/-- In a store without queued failures an application does not fail. -/
theorem apply_of_quiet (a : Applier) (owner : OwnerIdentity) (quiet : Quiet s)
    (hb : wanted.body.hasMetadata = true)
    (stamped : ∀ live, s.object? wanted.key = some live → live.isStamped = true) :
    ∃ applied, ((a.apply store wanted owner).run s).1 = .succeeded applied ∧
      applied ≠ .conflicted := by
  have still := quiet_count quiet .get
  have owned := (owner.metadata_attachTo hb).1
  rw [apply_of_get (get_of_quiet quiet wanted.key)]
  cases there : s.object? wanted.key with
  | none =>
    have made := create_of_quiet still there (owner.attachTo wanted.body)
    refine ⟨.created, ?_, nofun⟩
    rw [show Plan.of a.immutable (wanted.ownedBy owner) none =
      .create (owner.attachTo wanted.body) from rfl, carryOut_create (Prod.ext made rfl)]
    rfl
  | some live =>
    cases immutable : a.immutable.contains (wanted.ownedBy owner).kind with
    | true =>
      rw [of_immutable immutable]
      exact ⟨_, rfl, nofun⟩
    | false =>
      cases agrees : (drift (wanted.ownedBy owner).kind (fitted (wanted.ownedBy owner).body live)
        live).isEmpty with
      | true =>
        rw [of_agreeing immutable agrees]
        exact ⟨_, rfl, nofun⟩
      | false =>
        rw [of_drifted immutable agrees]
        have fits : (fitted (wanted.ownedBy owner).body live).hasMetadata = true :=
          (metadata_fitted live owned).1
        have fresh := fresh_of_version (versionOf_document fits (stamped live there))
        obtain ⟨object, patched⟩ := patch_of_quiet still there fresh
        refine ⟨.updated (drift (wanted.ownedBy owner).kind
          (fitted (wanted.ownedBy owner).body live) live), ?_, nofun⟩
        rw [carryOut_patch (Prod.ext patched rfl)]
        rfl

section

variable (plain : Plain wanted.body)
  (kept : ∀ live, before = some live → live.hasMetadata = true)

include plain in
/-- What is formed of one object is the same up to stamps. -/
theorem Formed.alike {object' : Json} (h : Formed a wanted owner before object)
    (h' : Formed a wanted owner before object') : Alike object object' := by
  have owned := plain_attachTo owner plain
  cases h with
  | made u =>
    cases h' with
    | made v => exact alike_made u v owned.hasMetadata
  | left immutable =>
    cases h' with
    | left => exact .refl _
    | kept => exact .refl _
    | changed _ _ mutable => rw [immutable] at mutable; cases mutable
  | kept _ agrees =>
    cases h' with
    | left => exact .refl _
    | kept => exact .refl _
    | changed _ _ _ drifted => rw [agrees] at drifted; cases drifted
  | changed u live mutable drifted =>
    cases h' with
    | left immutable => rw [immutable] at mutable; cases mutable
    | kept _ agrees => rw [agrees] at drifted; cases drifted
    | changed v =>
      have fits := (plain_fitted live owned).hasMetadata
      exact alike_changed u v (metadata_document live fits).1

include plain in
theorem Formed.isStamped (stamped : ∀ live, before = some live → live.isStamped = true)
    (h : Formed a wanted owner before object) : object.isStamped = true := by
  have owned := plain_attachTo owner plain
  cases h with
  | made u =>
    refine isStamped_stamped _ (metadata_updateMember _ (metadata_eraseMember ?_ ?_).1).1
    · decide
    · exact owned.hasMetadata
  | left => exact stamped _ rfl
  | kept => exact stamped _ rfl
  | changed u live =>
    have fits := (plain_fitted live owned).hasMetadata
    exact isStamped_stamped _ (metadata_merged live (metadata_document live fits).1).1

/-- The object under the key of a wanted one is as it was before, or formed of that. -/
def Reached (a : Applier) (wanted : Manifest) (owner : OwnerIdentity) (before : Option Json)
    (s : MemoryStore) : Prop :=
  s.object? wanted.key = before ∨
    ∃ object, s.object? wanted.key = some object ∧ Formed a wanted owner before object

include plain kept in
theorem Reached.hasMetadata (h : Reached a wanted owner before s) {live : Json}
    (there : s.object? wanted.key = some live) : live.hasMetadata = true := by
  rcases h with same | ⟨object, found, formed⟩
  · exact kept live (same.symm.trans there)
  · rw [found] at there
    exact Option.some.inj there ▸ formed.hasMetadata plain kept

theorem Reached.congr_at (h : Reached a wanted owner before s)
    (same : t.object? wanted.key = s.object? wanted.key) : Reached a wanted owner before t := by
  unfold Reached
  rw [same]
  exact h

theorem Reached.congr (h : Reached a wanted owner before s) (same : SameObjects s t) :
    Reached a wanted owner before t := h.congr_at (same wanted.key).symm

include plain in
theorem Reached.isStamped (stamped : ∀ live, before = some live → live.isStamped = true)
    (h : Reached a wanted owner before s) {live : Json}
    (there : s.object? wanted.key = some live) : live.isStamped = true := by
  rcases h with same | ⟨object, found, formed⟩
  · exact stamped live (same.symm.trans there)
  · rw [found] at there
    exact Option.some.inj there ▸ formed.isStamped plain stamped

include plain kept in
/-- An application leaves the object as it was before or formed, whether it fails or not. -/
theorem Effect.reaches {attempt : Attempt} (h : Effect a wanted owner s t attempt)
    (reached : Reached a wanted owner before s) : Reached a wanted owner before t := by
  rcases h.same_or_formed plain with same | ⟨object, there, formed⟩
  · exact reached.congr same
  · rcases reached with same | ⟨earlier, found, formed'⟩
    · exact .inr ⟨object, there, same ▸ formed⟩
    · rw [found] at formed
      rw [formed'.again plain kept formed] at there
      exact .inr ⟨earlier, there, formed'⟩

include plain kept in
/-- An application that neither fails nor conflicts forms the object, whatever came before it. -/
theorem Effect.forms {applied : Applied} (h : Effect a wanted owner s t (.succeeded applied))
    (smooth : applied ≠ .conflicted) (reached : Reached a wanted owner before s) :
    ∃ object, t.object? wanted.key = some object ∧ Formed a wanted owner before object := by
  obtain ⟨object, there, formed⟩ := h.formed plain smooth
  rcases reached with same | ⟨earlier, found, formed'⟩
  · exact ⟨object, there, same ▸ formed⟩
  · rw [found] at formed
    rw [formed'.again plain kept formed] at there
    exact ⟨earlier, there, formed'⟩

end

end Applier

end DesiredState
