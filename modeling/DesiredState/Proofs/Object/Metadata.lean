import DesiredState.Object.OwnerReference
import DesiredState.Proofs.Json.Members

/-!
# Looking into metadata

The members of the metadata of an object as one map, and what the edits of objects do to it. An
object *has metadata* if its metadata are an object, which is all that the store asks of it.
-/

namespace DesiredState.Json

/-- The members of the metadata, none if these are no object. -/
def metadataFields (j : Json) : Object :=
  ((j.member? "metadata").bind asObject?).getD SortedMap.empty

theorem metadataFields_eq (j : Json) :
    j.metadataFields = ((j.member? "metadata").getD null).asObject?.getD SortedMap.empty := by
  unfold metadataFields
  cases j.member? "metadata" <;> rfl

/-- The metadata are an object. -/
def hasMetadata (j : Json) : Bool := (j.member? "metadata").any isObject

variable {j : Json}

theorem member?_metadata (h : j.hasMetadata = true) :
    j.member? "metadata" = some (obj j.metadataFields) := by
  unfold hasMetadata metadataFields at *
  cases hm : j.member? "metadata" with
  | none => simp [hm] at h
  | some m =>
    rw [hm] at h
    obtain ⟨fields, rfl⟩ := eq_obj_of_isObject h
    rfl

theorem hasMetadata_of_member {m : Object} (h : j.member? "metadata" = some (obj m)) :
    j.hasMetadata = true ∧ j.metadataFields = m := by
  unfold hasMetadata metadataFields
  rw [h]
  exact ⟨rfl, rfl⟩

theorem isObject_of_hasMetadata (h : j.hasMetadata = true) : j.isObject = true :=
  isObject_of_member (member?_metadata h)

theorem path?_metadata (j : Json) (k : String) :
    j.path? ["metadata", k] = j.metadataFields.get? k := by
  rw [path?_cons, metadataFields]
  cases j.member? "metadata" with
  | none => rfl
  | some m =>
    show (m.member? k).bind some = _
    rw [Option.bind_fun_some]
    cases m <;> rfl

theorem stringAt?_metadata (j : Json) (k : String) :
    j.stringAt? ["metadata", k] = (j.metadataFields.get? k).bind asString? := by
  rw [stringAt?, path?_metadata]

theorem hasMetadata_of_path {k : String} {v : Json} (h : j.path? ["metadata", k] = some v) :
    j.hasMetadata = true := by
  unfold hasMetadata
  rw [path?_cons] at h
  cases hm : j.member? "metadata" with
  | none => simp [hm] at h
  | some m =>
    rw [hm] at h
    cases m with
    | obj => rfl
    | _ => cases h

/-! ## Edits -/

section Edits

variable {k : String}

theorem member?_setMember_of_ne (h : j.isObject = true) {name : String} (v : Json)
    (ne : k ≠ name) : (j.setMember name v).member? k = j.member? k := by
  obtain ⟨fields, rfl⟩ := eq_obj_of_isObject h
  rw [member?_setMember, if_neg ne, member?_obj]

theorem metadata_setMember {name : String} (v : Json) (ne : name ≠ "metadata")
    (h : j.hasMetadata = true) :
    (j.setMember name v).hasMetadata = true ∧
      (j.setMember name v).metadataFields = j.metadataFields := by
  refine hasMetadata_of_member ?_
  rw [member?_setMember_of_ne (isObject_of_hasMetadata h) v (Ne.symm ne), member?_metadata h]

theorem metadata_eraseMember {name : String} (ne : name ≠ "metadata") (h : j.hasMetadata = true) :
    (j.eraseMember name).hasMetadata = true ∧
      (j.eraseMember name).metadataFields = j.metadataFields := by
  refine hasMetadata_of_member ?_
  rw [member?_eraseMember, if_neg (Ne.symm ne), member?_metadata h]

/-- Changing the metadata of an object leaves its other members alone. -/
theorem member?_updateMetadata (f : Object → Object) (h : j.isObject = true)
    (ne : k ≠ "metadata") : (j.updateMember "metadata" f).member? k = j.member? k := by
  obtain ⟨fields, rfl⟩ := eq_obj_of_isObject h
  rw [member?_updateMember, if_neg ne, member?_obj]

theorem metadata_updateMember (f : Object → Object) (h : j.hasMetadata = true) :
    (j.updateMember "metadata" f).hasMetadata = true ∧
      (j.updateMember "metadata" f).metadataFields = f j.metadataFields := by
  refine hasMetadata_of_member ?_
  have there := member?_metadata h
  obtain ⟨fields, rfl⟩ := eq_obj_of_isObject (isObject_of_hasMetadata h)
  rw [member?_updateMember, if_pos rfl]
  rw [member?_obj] at there
  rw [there]
  rfl

/-- An edit of the metadata that leaves an object an object. -/
theorem metadata_mapMember {f : Json → Json} {g : Object → Object}
    (edit : ∀ m : Object, f (obj m) = obj (g m)) (h : j.hasMetadata = true) :
    (j.mapMember "metadata" f).hasMetadata = true ∧
      (j.mapMember "metadata" f).metadataFields = g j.metadataFields := by
  refine hasMetadata_of_member ?_
  rw [member?_mapMember, if_pos rfl, member?_metadata h, Option.map_some, edit]

theorem member?_mapMetadata (f : Json → Json) (ne : k ≠ "metadata") :
    (j.mapMember "metadata" f).member? k = j.member? k := by
  rw [member?_mapMember, if_neg ne]

end Edits

/-- Objects with the same metadata and the same other members are equal. -/
theorem eq_of_metadata {a b : Json} (ha : a.hasMetadata = true) (hb : b.hasMetadata = true)
    (members : ∀ k, k ≠ "metadata" → a.member? k = b.member? k)
    (metadata : ∀ k, a.metadataFields.get? k = b.metadataFields.get? k) : a = b := by
  refine eq_of_members (isObject_of_hasMetadata ha) (isObject_of_hasMetadata hb) fun k => ?_
  by_cases e : k = "metadata"
  · rw [e, member?_metadata ha, member?_metadata hb]
    exact congrArg (some ∘ obj) (Entries.ext metadata)
  · exact members k e

end DesiredState.Json

namespace DesiredState

open Json

/-! ## Manifests -/

/-- What is accepted as a manifest has metadata. -/
theorem Manifest.hasMetadata_of_keyOf {body : Json} {key : ObjectKey}
    (h : Manifest.keyOf body = .ok key) : body.hasMetadata = true := by
  unfold Manifest.keyOf at h
  cases hn : body.path? ["metadata", "name"] with
  | some v => exact hasMetadata_of_path hn
  | none =>
    have none : body.stringAt? ["metadata", "name"] = none := by rw [stringAt?, hn]; rfl
    rw [none] at h
    split at h <;> try cases h
    split at h <;> try cases h
    split at h <;> cases h

namespace OwnerIdentity

variable (o : OwnerIdentity) {body : Json}

theorem member?_attachTo (h : body.isObject = true) {k : String} (ne : k ≠ "metadata") :
    (o.attachTo body).member? k = body.member? k := member?_updateMetadata _ h ne

theorem metadata_attachTo (h : body.hasMetadata = true) :
    (o.attachTo body).hasMetadata = true ∧ (o.attachTo body).metadataFields =
      SortedMap.insert body.metadataFields "ownerReferences"
        (o.attached (body.metadataFields.get? "ownerReferences")) :=
  metadata_updateMember _ h

/-- An owner reference does not change the identity that a body states. -/
theorem keyOf_attachTo (h : body.hasMetadata = true) :
    Manifest.keyOf (o.attachTo body) = Manifest.keyOf body := by
  have object := isObject_of_hasMetadata h
  obtain ⟨there, fields⟩ := o.metadata_attachTo h
  have outer : ∀ k, k ≠ "metadata" → (o.attachTo body).stringAt? [k] = body.stringAt? [k] :=
    fun k ne => by rw [stringAt?, stringAt?, path?_cons, path?_cons, o.member?_attachTo object ne]
  have inner : ∀ k, k ≠ "ownerReferences" →
      (o.attachTo body).stringAt? ["metadata", k] = body.stringAt? ["metadata", k] := fun k ne => by
    rw [stringAt?_metadata, stringAt?_metadata, fields, SortedMap.get?_insert, if_neg ne]
  unfold Manifest.keyOf
  rw [isObject_of_hasMetadata there, object, outer _ (by decide), outer _ (by decide),
    inner _ (by decide), inner _ (by decide)]

end OwnerIdentity

namespace Manifest

variable {m : Manifest}

theorem ofBody_eq_ok : ofBody m.body = .ok m ↔ keyOf m.body = .ok m.key := by
  unfold ofBody
  cases keyOf m.body with
  | error e => exact ⟨nofun, nofun⟩
  | ok key =>
    refine ⟨fun h => congrArg Except.ok (congrArg Manifest.key (Except.ok.inj h)), fun h => ?_⟩
    rw [Except.ok.inj h]
    rfl

theorem hasMetadata_of_ofBody (h : ofBody m.body = .ok m) : m.body.hasMetadata = true :=
  hasMetadata_of_keyOf (ofBody_eq_ok.1 h)

end Manifest

end DesiredState
