import DesiredState.Proofs.Object.Metadata
import Mathlib.Data.List.Induction

/-!
# References after a sequence of owners

Attaching an owner takes the entries with its uid out of the list of references and puts its own at
the end. After any sequence of owners the list has a closed form (`attachedAll`): the entries of the
manifest that name none of these uids, and then each uid once, in the order of its last use and as
the owner that was last attached under it. Nothing else of a manifest changes (`ownedBy_sequence`).
-/

namespace DesiredState

open Json

/-! ## The list of references -/

namespace Json

/-- The entries of `metadata.ownerReferences`, none if this is absent or no list. -/
def ownerEntries (body : Json) : List Json :=
  ((body.path? ["metadata", "ownerReferences"]).bind asArray?).getD []

/-- The body with these entries as its list of references. -/
def withEntries (entries : List Json) (body : Json) : Json :=
  body.updateMember "metadata" (·.insert "ownerReferences" (.arr entries))

/-- The body without its list of references. -/
def withoutReferences (body : Json) : Json :=
  body.mapMember "metadata" (·.eraseMember "ownerReferences")

section Edits

variable {body : Json} (h : body.hasMetadata = true) (entries : List Json)

include h

theorem metadata_withEntries :
    (withEntries entries body).hasMetadata = true ∧
      (withEntries entries body).metadataFields =
        SortedMap.insert body.metadataFields "ownerReferences" (.arr entries) :=
  metadata_updateMember _ h

theorem path?_withEntries :
    (withEntries entries body).path? ["metadata", "ownerReferences"] = some (.arr entries) := by
  rw [path?_metadata, (metadata_withEntries h entries).2, SortedMap.get?_insert, if_pos rfl]

theorem ownerEntries_withEntries : ownerEntries (withEntries entries body) = entries := by
  rw [ownerEntries, path?_withEntries h]
  rfl

/-- The last list that is put in place counts. -/
theorem withEntries_withEntries (others : List Json) :
    withEntries entries (withEntries others body) = withEntries entries body := by
  obtain ⟨there, fields⟩ := metadata_withEntries h others
  obtain ⟨there', fields'⟩ := metadata_withEntries there entries
  obtain ⟨there'', fields''⟩ := metadata_withEntries h entries
  refine eq_of_metadata there' there'' ?_ ?_
  · intro k ne
    unfold withEntries
    simp only [member?_updateMember_of_ne _ _ ne]
  · intro k
    rw [fields', fields, fields'']
    simp only [SortedMap.get?_insert]
    split <;> rfl

theorem withoutReferences_withEntries :
    withoutReferences (withEntries entries body) = withoutReferences body := by
  obtain ⟨there, fields⟩ := metadata_withEntries h entries
  have erased (m : Object) : (obj m).eraseMember "ownerReferences" =
      obj (m.erase "ownerReferences") := rfl
  obtain ⟨there', fields'⟩ := metadata_mapMember erased there
  obtain ⟨there'', fields''⟩ := metadata_mapMember erased h
  refine eq_of_metadata there' there'' ?_ ?_
  · intro k ne
    unfold withoutReferences withEntries
    rw [member?_mapMetadata _ ne, member?_mapMetadata _ ne, member?_updateMember_of_ne _ _ ne]
  · intro k
    unfold withoutReferences
    rw [fields', fields'', fields, Entries.get?_erase, Entries.get?_erase, SortedMap.get?_insert]
    split <;> rfl

end Edits

end Json

/-! ## Owners, one after the other -/

namespace OwnerIdentity

/-- Of every uid the owner that was given last with it, in the order in which these were given. -/
def lastUses : List OwnerIdentity → List OwnerIdentity
  | [] => []
  | o :: later => if o.uid ∈ later.map uid then lastUses later else o :: lastUses later

/-- The entries after all these owners were attached. -/
def attachedAll (owners : List OwnerIdentity) (entries : List Json) : List Json :=
  entries.filter (fun entry => !owners.any (·.refersTo entry)) ++ (lastUses owners).map reference

theorem refersTo_reference (o p : OwnerIdentity) : o.refersTo p.reference = (p.uid == o.uid) := by
  have uid : p.reference.member? "uid" = some (.str p.uid) := by
    simp [reference, object, SortedMap.ofList]
  rw [refersTo, uid]
  rfl

/-- One more owner comes last, and no owner of its uid before it. -/
theorem lastUses_concat (owners : List OwnerIdentity) (o : OwnerIdentity) :
    lastUses (owners ++ [o]) = (lastUses owners).filter (·.uid != o.uid) ++ [o] := by
  induction owners with
  | nil => simp [lastUses]
  | cons p later ih =>
    simp only [List.cons_append, lastUses, ih, List.map_append, List.map_cons, List.map_nil,
      List.mem_append, List.mem_singleton]
    by_cases again : p.uid ∈ later.map uid
    · simp only [again, true_or, if_true]
    · simp only [again, false_or, if_false]
      by_cases same : p.uid = o.uid <;> simp [same]

theorem attachedAll_nil (entries : List Json) : attachedAll [] entries = entries := by
  simp [attachedAll, lastUses]

theorem attachedAll_concat (owners : List OwnerIdentity) (o : OwnerIdentity)
    (entries : List Json) :
    attachedAll (owners ++ [o]) entries =
      (attachedAll owners entries).filter (!o.refersTo ·) ++ [o.reference] := by
  have others : (lastUses owners).filter (fun p => !o.refersTo p.reference) =
      (lastUses owners).filter (·.uid != o.uid) :=
    List.filter_congr fun p _ => by rw [refersTo_reference]; rfl
  have own : entries.filter (fun entry => !(owners ++ [o]).any (·.refersTo entry)) =
      (entries.filter (fun entry => !owners.any (·.refersTo entry))).filter (!o.refersTo ·) := by
    rw [List.filter_filter]
    refine List.filter_congr fun entry _ => ?_
    rw [List.any_append, Bool.not_or, Bool.and_comm]
    simp
  unfold attachedAll
  rw [lastUses_concat, own, List.filter_append, List.filter_map, List.map_append]
  simp only [Function.comp_def, others, List.append_assoc, List.map_cons, List.map_nil]

/-- Attaching an owner changes the list of references alone. -/
theorem attachTo_eq (o : OwnerIdentity) {body : Json} (h : body.hasMetadata = true) :
    o.attachTo body =
      withEntries ((ownerEntries body).filter (!o.refersTo ·) ++ [o.reference]) body := by
  obtain ⟨there, fields⟩ := o.metadata_attachTo h
  obtain ⟨there', fields'⟩ := metadata_withEntries h
    ((ownerEntries body).filter (!o.refersTo ·) ++ [o.reference])
  refine eq_of_metadata there there' ?_ ?_
  · intro k ne
    unfold withEntries
    rw [o.member?_attachTo (isObject_of_hasMetadata h) ne, member?_updateMember_of_ne _ _ ne]
  · intro k
    rw [fields, fields', ownerEntries, path?_metadata]
    rfl

/-- Attaching an owner again changes nothing. -/
theorem attachTo_attachTo (o : OwnerIdentity) {body : Json} (h : body.hasMetadata = true) :
    o.attachTo (o.attachTo body) = o.attachTo body := by
  have other : o.refersTo o.reference = true := by simp [refersTo_reference]
  rw [attachTo_eq o (o.metadata_attachTo h).1, attachTo_eq o h, ownerEntries_withEntries h,
    withEntries_withEntries h]
  simp [List.filter_append, List.filter_filter, other]

end OwnerIdentity

/-! ## Manifests -/

namespace Manifest

variable {m : Manifest}

/-- The manifest with these owners attached, one after the other. -/
def ownedByAll (m : Manifest) (owners : List OwnerIdentity) : Manifest := owners.foldl ownedBy m

theorem ownedByAll_concat (m : Manifest) (owners : List OwnerIdentity) (o : OwnerIdentity) :
    m.ownedByAll (owners ++ [o]) = (m.ownedByAll owners).ownedBy o := by
  simp [ownedByAll]

theorem key_ownedByAll (m : Manifest) (owners : List OwnerIdentity) :
    (m.ownedByAll owners).key = m.key := by
  induction owners using List.reverseRecOn with
  | nil => rfl
  | append_singleton owners o ih =>
    rw [ownedByAll_concat]
    exact ih

section Accepted

variable (accepted : ofBody m.body = .ok m)

include accepted

/-- A manifest stays what its body says it is. -/
theorem ofBody_ownedBy (o : OwnerIdentity) :
    ofBody (m.ownedBy o).body = .ok (m.ownedBy o) := by
  rw [ofBody_eq_ok] at accepted ⊢
  exact (o.keyOf_attachTo (hasMetadata_of_keyOf accepted)).trans accepted

theorem ofBody_ownedByAll (owners : List OwnerIdentity) :
    ofBody (m.ownedByAll owners).body = .ok (m.ownedByAll owners) := by
  induction owners using List.reverseRecOn with
  | nil => exact accepted
  | append_singleton owners o ih =>
    rw [ownedByAll_concat]
    exact ofBody_ownedBy ih o

/-- Any number of owners change the list of references once. -/
theorem body_ownedByAll {owners : List OwnerIdentity} (used : owners ≠ []) :
    (m.ownedByAll owners).body =
      withEntries (OwnerIdentity.attachedAll owners (ownerEntries m.body)) m.body := by
  have metadata := hasMetadata_of_ofBody accepted
  induction owners using List.reverseRecOn with
  | nil => exact absurd rfl used
  | append_singleton owners o ih =>
    have there := hasMetadata_of_ofBody (ofBody_ownedByAll accepted owners)
    rw [ownedByAll_concat, OwnerIdentity.attachedAll_concat]
    show o.attachTo (m.ownedByAll owners).body = _
    rw [o.attachTo_eq there]
    -- What is there before the first owner need not be a list.
    by_cases first : owners = []
    · subst first
      rw [OwnerIdentity.attachedAll_nil]
      rfl
    · rw [ih first, ownerEntries_withEntries metadata, withEntries_withEntries metadata]

end Accepted

/-- A manifest that was accepted and then given to one or more owners lists its own entries that
name none of their uids, in order, and then every uid that they have, in the order of its last use
and as the owner that used it last. Its key and the rest of its body are as they were, and the last
owner once more changes nothing. -/
theorem ownedBy_sequence (accepted : ofBody m.body = .ok m) {owners : List OwnerIdentity}
    (used : owners ≠ []) :
    (m.ownedByAll owners).body.path? ["metadata", "ownerReferences"] =
        some (.arr ((ownerEntries m.body).filter (fun entry => !owners.any (·.refersTo entry)) ++
          (OwnerIdentity.lastUses owners).map OwnerIdentity.reference)) ∧
      (m.ownedByAll owners).key = m.key ∧
      withoutReferences (m.ownedByAll owners).body = withoutReferences m.body ∧
      ∀ last, owners.getLast? = some last →
        (m.ownedByAll owners).ownedBy last = m.ownedByAll owners := by
  have metadata := hasMetadata_of_ofBody accepted
  have whole := body_ownedByAll accepted used
  refine ⟨?_, key_ownedByAll m owners, ?_, ?_⟩
  · rw [whole, path?_withEntries metadata]
    rfl
  · rw [whole, withoutReferences_withEntries metadata]
  · intro last ends
    obtain ⟨front, rfl⟩ := List.getLast?_eq_some_iff.1 ends
    have there := hasMetadata_of_ofBody (ofBody_ownedByAll accepted front)
    rw [ownedByAll_concat]
    exact congrArg (Manifest.mk _) (last.attachTo_attachTo there)

/-! ### An instance -/

section Instance

/-- A namespace that lists two owners, and entries that name none. -/
def sharedNamespace : Manifest where
  key := .of ⟨"", "v1", "Namespace"⟩ none "team"
  body := .object [("apiVersion", .str "v1"), ("kind", .str "Namespace"),
    ("metadata", .object [("name", .str "team"), ("ownerReferences", .arr [
      .object [("uid", .str "first")], .str "first", .object [("uid", .int 1)],
      .object [("uid", .str "other")]])])]

/-- An owner of this name and uid. -/
def tenantOf (name uid : String) : OwnerIdentity :=
  ⟨⟨"", "v1", "ConfigMap"⟩, some "home", name, uid⟩

/-- The first uid is used twice, by owners of different names. -/
def tenants : List OwnerIdentity :=
  [tenantOf "old" "first", tenantOf "guest" "second", tenantOf "new" "first"]

/-- The entry of the first uid is replaced, and what is no reference stays. -/
theorem ownedBy_tenants :
    ofBody sharedNamespace.body = .ok sharedNamespace ∧ tenants ≠ [] ∧
      (sharedNamespace.ownedByAll tenants).body.path? ["metadata", "ownerReferences"] =
        some (.arr [.str "first", .object [("uid", .int 1)], .object [("uid", .str "other")],
          (tenantOf "guest" "second").reference, (tenantOf "new" "first").reference]) ∧
      (sharedNamespace.ownedByAll tenants).ownedBy (tenantOf "new" "first") =
        sharedNamespace.ownedByAll tenants := by
  have accepted : ofBody sharedNamespace.body = .ok sharedNamespace := rfl
  have used : tenants ≠ [] := by decide
  obtain ⟨listed, -, -, again⟩ := ownedBy_sequence accepted used
  exact ⟨accepted, used, listed, again _ rfl⟩

end Instance

end Manifest

end DesiredState
