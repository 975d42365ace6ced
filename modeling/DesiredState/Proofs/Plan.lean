import DesiredState.Plan
import DesiredState.Proofs.Json.Difference
import DesiredState.Proofs.Object.Bookkeeping

/-!
# What plans find and ask for

A plan finds no drift exactly if the stripped live object covers the stripped wanted one
(`isEmpty_drift_iff`). The bodies that plans work with, fitted to a live object and turned into a
patch, are looked into member by member.
-/

namespace DesiredState.Plan

open Json Bookkeeping

/-- A live object has not drifted exactly if it covers the wanted one, bookkeeping aside. -/
theorem isEmpty_drift_iff {kind : String} {body live : Json} :
    (drift kind body live).isEmpty = true ↔
      covers none (strip kind live) (strip kind body) = true := by
  rw [drift, isEmpty_difference, strip_overlay]
  exact overlay_same_iff none _ _

/-! ## The plan for each live object -/

section Cases

variable {immutable : List String} {wanted : Manifest} {live : Json}

theorem of_some :
    Plan.of immutable wanted (some live) =
      if immutable.contains wanted.kind then .leave
      else if (drift wanted.kind (fitted wanted.body live) live).isEmpty then .keep
      else .patch (document (fitted wanted.body live) live)
        (drift wanted.kind (fitted wanted.body live) live) := by
  unfold Plan.of draw
  dsimp only
  split <;> rfl

theorem of_immutable (h : immutable.contains wanted.kind = true) :
    Plan.of immutable wanted (some live) = .leave := of_some.trans (if_pos h)

theorem of_agreeing (h : immutable.contains wanted.kind = false)
    (agrees : (drift wanted.kind (fitted wanted.body live) live).isEmpty = true) :
    Plan.of immutable wanted (some live) = .keep := by
  rw [of_some, if_neg (Bool.eq_false_iff.1 h), if_pos agrees]

theorem of_drifted (h : immutable.contains wanted.kind = false)
    (drifted : (drift wanted.kind (fitted wanted.body live) live).isEmpty = false) :
    Plan.of immutable wanted (some live) =
      .patch (document (fitted wanted.body live) live)
        (drift wanted.kind (fitted wanted.body live) live) := by
  rw [of_some, if_neg (Bool.eq_false_iff.1 h), if_neg (Bool.eq_false_iff.1 drifted)]

end Cases

/-! ## Bodies fitted to a live object -/

section Fitted

variable {body : Json} (live : Json) (h : body.hasMetadata = true)

theorem member?_fitted (body : Json) {k : String} (ne : k ≠ "metadata") :
    (fitted body live).member? k = body.member? k := by
  unfold fitted
  split
  · rfl
  · exact member?_mapMetadata _ ne

include h in
theorem metadata_fitted :
    (fitted body live).hasMetadata = true ∧
      ∀ k, (fitted body live).metadataFields.get? k =
        if namespaced live = false ∧ k = "namespace" then none else body.metadataFields.get? k := by
  unfold fitted
  cases namespaced live with
  | true => exact ⟨h, fun k => by simp⟩
  | false =>
    obtain ⟨there, fields⟩ := metadata_mapMember (f := Json.eraseMember "namespace")
      (fun m => rfl : ∀ m : Object, _ = obj (m.erase "namespace")) h
    refine ⟨there, fun k => ?_⟩
    rw [if_neg Bool.false_ne_true, fields, Entries.get?_erase]
    by_cases e : k = "namespace" <;> simp [e]

end Fitted

/-- What upholds a body upholds it as well when it is fitted. -/
theorem upholds_fitted {live body : Json} (h : body.hasMetadata = true) (other : Json)
    (up : Upholds live body) : Upholds live (fitted body other) where
  members k w metadata status hk := by
    rw [member?_fitted _ _ metadata] at hk
    exact up.members k w metadata status hk
  metadata k w noisy hk := by
    rw [(metadata_fitted other h).2] at hk
    split at hk
    · cases hk
    · exact up.metadata k w noisy hk

theorem plain_fitted {body : Json} (live : Json) (h : Plain body) : Plain (fitted body live) := by
  obtain ⟨there, look⟩ := metadata_fitted live h.hasMetadata
  refine ⟨there, fun k w metadata status hk => ?_, fun k w noisy hk => ?_, ?_⟩
  · rw [member?_fitted _ _ metadata] at hk
    exact h.members k w metadata status hk
  · rw [look] at hk
    split at hk
    · cases hk
    · exact h.metadata k w noisy hk
  · rw [look]
    split
    · rfl
    · exact h.uid

theorem namespaced_eq (live : Json) :
    namespaced live = (((live.metadataFields.get? "namespace").bind asString?).filter
      (!·.isEmpty)).isSome := by
  rw [namespaced, stringAt?_metadata]

/-! ## Patches -/

section Document

variable {body : Json} (live : Json) (h : body.hasMetadata = true)

include h in
theorem metadata_document :
    (document body live).hasMetadata = true ∧
      ∀ k, (document body live).metadataFields.get? k =
        if k = "resourceVersion" then
          (live.metadataFields.get? k).or (body.metadataFields.get? k)
        else body.metadataFields.get? k := by
  obtain ⟨there, fields⟩ := metadata_eraseMember (by decide : "status" ≠ "metadata") h
  unfold document
  dsimp only
  rw [path?_metadata]
  cases hv : live.metadataFields.get? "resourceVersion" with
  | none =>
    refine ⟨there, fun k => ?_⟩
    rw [fields]
    by_cases e : k = "resourceVersion" <;> simp [e, hv]
  | some v =>
    obtain ⟨there', fields'⟩ := metadata_mapMember (f := (·.setMember "resourceVersion" v))
      (fun m => rfl : ∀ m : Object, _ = obj (SortedMap.insert m "resourceVersion" v)) there
    refine ⟨there', fun k => ?_⟩
    rw [fields', fields, SortedMap.get?_insert]
    by_cases e : k = "resourceVersion" <;> simp [e, hv]

theorem member?_document {k : String} (ne : k ≠ "metadata") :
    (document body live).member? k = if k = "status" then none else body.member? k := by
  unfold document
  dsimp only
  split
  · rw [member?_mapMetadata _ ne, member?_eraseMember]
  · rw [member?_eraseMember]

end Document

/-- The patch that a plan asks for has metadata. -/
theorem hasMetadata_of_patch {immutable : List String} {wanted : Manifest} {live : Option Json}
    {patch : Json} {difference : Difference} (h : wanted.body.hasMetadata = true)
    (plan : Plan.of immutable wanted live = .patch patch difference) :
    patch.hasMetadata = true := by
  cases live with
  | none => cases plan
  | some live =>
    rw [of_some] at plan
    split at plan
    · cases plan
    · split at plan
      · cases plan
      · obtain ⟨rfl, -⟩ := Plan.patch.inj plan
        exact (metadata_document live (metadata_fitted live h).1).1

end DesiredState.Plan
