import DesiredState.Proofs.Applying.Delivery

/-!
# References to the owner

Every object that is made or updated for an owner lists the references of its manifest to others,
and the owner last (`apply_names_owner`). Of an object that is found as wanted this is known up to
what it has beside the wanted members: its list is as long, and its last entry names the owner. The
reference passes through two merges on the way. A merge patch takes the list as a whole, so what is
written is the list itself; drift is looked for item by item, so without drift each entry covers the
one that is wanted in its place (`named_of_agrees`).
-/

namespace DesiredState

open Json Bookkeeping Plan MemoryStore

/-! ## Lists of references -/

namespace Json

/-- Where the references to owners are. -/
def referencesPath : List String := ["metadata", "ownerReferences"]

end Json

namespace OwnerIdentity

variable (o : OwnerIdentity) {body : Json}

/-- The references that a body lists, those to this owner left out. -/
def others (body : Json) : List Json :=
  (((body.path? referencesPath).bind asArray?).getD []).filter (!o.refersTo ·)

/-- The references of a body that this owner was attached to. -/
def references (body : Json) : List Json := o.others body ++ [o.reference]

/-- The entry names this owner as the one in control, whatever else it says. -/
structure NamedBy (entry : Json) : Prop where
  apiVersion : entry.member? "apiVersion" = some (.str o.gvk.apiVersion)
  kind : entry.member? "kind" = some (.str o.gvk.kind)
  name : entry.member? "name" = some (.str o.name)
  uid : entry.member? "uid" = some (.str o.uid)
  controller : entry.member? "controller" = some (.bool true)
  blockOwnerDeletion : entry.member? "blockOwnerDeletion" = some (.bool true)

theorem namedBy_reference : o.NamedBy o.reference := by
  constructor <;> simp [reference, object, SortedMap.ofList, SortedMap.get?_insert]

/-- What covers the reference of an owner names the owner. -/
theorem namedBy_of_covers {entry : Json}
    (h : covers (some "ownerReferences") entry o.reference = true) : o.NamedBy entry := by
  have texts {k s : String} (there : o.reference.member? k = some (.str s)) :
      entry.member? k = some (.str s) := by
    obtain ⟨u, there', covered⟩ := covers_member (by decide) h there
    rw [covers_leaf rfl rfl] at covered
    rw [there', eq_str_of_same covered]
  have flags {k : String} (there : o.reference.member? k = some (.bool true)) :
      entry.member? k = some (.bool true) := by
    obtain ⟨u, there', covered⟩ := covers_member (by decide) h there
    rw [covers_leaf rfl rfl] at covered
    cases u with
    | bool b => rw [there', beq_iff_eq.1 covered]
    | _ => cases covered
  have named := o.namedBy_reference
  exact ⟨texts named.apiVersion, texts named.kind, texts named.name, texts named.uid,
    flags named.controller, flags named.blockOwnerDeletion⟩

theorem path?_attachTo (h : body.hasMetadata = true) :
    (o.attachTo body).path? referencesPath = some (.arr (o.references body)) := by
  obtain ⟨-, fields⟩ := o.metadata_attachTo h
  rw [referencesPath, path?_metadata, fields, SortedMap.get?_insert, if_pos rfl, attached,
    references, others, referencesPath, path?_metadata]

end OwnerIdentity

/-! ## References that are kept and written -/

section Written

variable {owner : OwnerIdentity} {body : Json} (h : body.hasMetadata = true)

include h

variable (owner) in
/-- Fitting a body to a live object leaves its references. -/
theorem Plan.path?_fitted (live : Json) :
    (fitted (owner.attachTo body) live).path? referencesPath =
      some (.arr (owner.references body)) := by
  rw [← owner.path?_attachTo h, referencesPath, path?_metadata, path?_metadata,
    (metadata_fitted live (owner.metadata_attachTo h).1).2, if_neg fun e => absurd e.2 (by decide)]

theorem MemoryStore.references_made (s : MemoryStore) :
    (s.made (owner.attachTo body)).path? referencesPath =
      some (.arr (owner.references body)) := by
  rw [← owner.path?_attachTo h, referencesPath, path?_metadata, path?_metadata,
    (metadata_made s (owner.metadata_attachTo h).1).2]
  simp [SortedMap.get?_insert]

/-- A patch takes the list of references as a whole. -/
theorem MemoryStore.references_patched (live : Json) :
    (live.patched (effective (document (fitted (owner.attachTo body) live) live))).path?
      referencesPath = some (.arr (owner.references body)) := by
  have fits := (metadata_fitted live (owner.metadata_attachTo h).1).1
  have wanted := Plan.path?_fitted owner h live
  obtain ⟨there, look⟩ := metadata_document live fits
  rw [referencesPath, path?_metadata] at wanted ⊢
  rw [(metadata_patched_effective live there).2, if_neg (by decide), look, if_neg (by decide),
    wanted]
  rfl

theorem MemoryStore.references_changed (s : MemoryStore) (live : Json) :
    (s.changed live (document (fitted (owner.attachTo body) live) live)).path? referencesPath =
      some (.arr (owner.references body)) := by
  have fits := (metadata_fitted live (owner.metadata_attachTo h).1).1
  have wanted := Plan.path?_fitted owner h live
  rw [referencesPath, path?_metadata] at wanted ⊢
  rw [metadata_changed s live fits (by decide) (by decide), if_neg (by decide), wanted]
  rfl

/-- Without drift, the list of a live object is as long as the wanted one, and its last entry names
the owner. -/
theorem Plan.named_of_agrees {kind : String} {live : Json}
    (agrees : (drift kind (fitted (owner.attachTo body) live) live).isEmpty = true) :
    ∃ entries last, live.path? referencesPath = some (.arr (entries ++ [last])) ∧
      entries.length = (owner.others body).length ∧ owner.NamedBy last := by
  have free : "ownerReferences" ∉ metadataNames := by decide
  have wanted := Plan.path?_fitted owner h live
  rw [referencesPath, ← path?_metadata_strip kind _ free, path?_cons,
    Option.bind_eq_some_iff] at wanted
  obtain ⟨metadata, there, wanted⟩ := wanted
  rw [path?_cons, Option.bind_eq_some_iff] at wanted
  obtain ⟨list, wanted, eq⟩ := wanted
  obtain rfl := Option.some.inj eq
  obtain ⟨liveMetadata, there', covered⟩ :=
    covers_member rfl (isEmpty_drift_iff.1 agrees) there
  obtain ⟨liveList, wanted', covered⟩ := covers_member (by decide) covered wanted
  have stored : live.path? referencesPath = some liveList := by
    rw [referencesPath, ← path?_metadata_strip kind _ free, path?_cons, there']
    show (liveMetadata.member? "ownerReferences").bind _ = _
    rw [wanted']
    rfl
  cases liveList with
  | arr entries =>
    rw [covers_arr_iff, OwnerIdentity.references] at covered
    have length := (List.forall₂_take_append _ _ _ covered).length_eq
    obtain ⟨last, rest, named, none, rear⟩ :=
      List.forall₂_cons_right_iff.1 (List.forall₂_drop_append _ _ _ covered)
    cases none
    refine ⟨_, last, ?_, length, owner.namedBy_of_covers named⟩
    rw [stored, ← rear, List.take_append_drop]
  | _ => simp [covers] at covered

end Written

/-! ## Applications -/

namespace Applier

variable {a : Applier} {wanted : Manifest} {owner : OwnerIdentity} {s t : MemoryStore}
  {applied : Applied}

/-- What was made or updated lists the references of its manifest to others, and then the owner. The
list is the wanted one, unless the update left all objects as they are, whose list is then equal to
it as a value. What was found as wanted has a list of the same length, and its last entry names the
owner. -/
theorem apply_names_owner (accepted : Manifest.ofBody wanted.body = .ok wanted)
    (ran : (a.apply store wanted owner).run s = (.succeeded applied, t)) :
    match applied with
    | .created | .updated _ => ∃ object list, t.object? wanted.key = some object ∧
        object.path? ["metadata", "ownerReferences"] = some list ∧
        list.same (.arr (owner.others wanted.body ++ [owner.reference])) = true ∧
        (list = .arr (owner.others wanted.body ++ [owner.reference]) ∨ SameObjects s t)
    | .unchanged => ∃ object entries last, t.object? wanted.key = some object ∧
        object.path? ["metadata", "ownerReferences"] = some (.arr (entries ++ [last])) ∧
        entries.length = (owner.others wanted.body).length ∧ owner.NamedBy last
    | .skippedImmutable | .conflicted => True := by
  have metadata := Manifest.hasMetadata_of_ofBody accepted
  obtain ⟨attempt, u, ran', effect⟩ := apply_effect a wanted owner s
  obtain ⟨rfl, rfl⟩ := Prod.mk.inj (ran'.symm.trans ran)
  cases effect with
  | failed failure => cases failure
  | conflicted => trivial
  | left => trivial
  | created v absent written =>
    exact ⟨_, _, (written _).trans (if_pos rfl), v.references_made metadata, same_self _, .inl rfl⟩
  | patched v live there mutable drifted written =>
    exact ⟨_, _, (written _).trans (if_pos rfl), v.references_changed metadata live, same_self _,
      .inl rfl⟩
  | @idle live _ there mutable drifted moot same =>
    have listed := rel_path? moot referencesPath
    rw [references_patched metadata] at listed
    generalize stored : live.path? referencesPath = found at listed
    cases listed with
    | some equal =>
      exact ⟨live, _, (same _).symm.trans there, stored, same_symm equal, .inr same⟩
  | kept there mutable agrees same =>
    obtain ⟨entries, last, listed, length, named⟩ := Plan.named_of_agrees metadata agrees
    exact ⟨_, entries, last, (same _).symm.trans there, listed, length, named⟩

/-! ## Instances -/

section Instances

/-- An entry that names another owner, or an older state of this one. -/
def entryOf (name uid : String) : Json := .object [("name", .str name), ("uid", .str uid)]

/-- Settings that others own as well. -/
def shared : Manifest :=
  { settings with
    body := settingsOf [("namespace", .str "team"), ("ownerReferences",
      .arr [entryOf "team" "team-uid", .str "nobody", entryOf "guild" "guild-uid"])]
      [("level", .str "debug")] }

/-- An update of the shared settings lists the entries of others and then the team, and what a
second application finds as wanted still does. -/
theorem apply_shared_names_owner :
    Manifest.ofBody shared.body = .ok shared ∧
      ((standard.apply store shared team).run stocked).1 = .succeeded (.updated ⟨1, 1, 0⟩) ∧
      (∃ object list,
        ((standard.apply store shared team).run stocked).2.object? shared.key = some object ∧
          object.path? ["metadata", "ownerReferences"] = some list ∧
          list.same (.arr ([.str "nobody", entryOf "guild" "guild-uid"] ++ [team.reference])) =
            true) ∧
      ∃ object entries last,
        ((standard.apply store shared team).run
          ((standard.apply store shared team).run stocked).2).2.object? shared.key =
            some object ∧
          object.path? ["metadata", "ownerReferences"] = some (.arr (entries ++ [last])) ∧
          entries.length = 2 ∧ team.NamedBy last := by
  have accepted : Manifest.ofBody shared.body = .ok shared := rfl
  have updated : ((standard.apply store shared team).run stocked).1 =
      .succeeded (.updated ⟨1, 1, 0⟩) := by decide +kernel
  have unchanged : ((standard.apply store shared team).run
      ((standard.apply store shared team).run stocked).2).1 = .succeeded .unchanged := by
    decide +kernel
  have others : team.others shared.body = [.str "nobody", entryOf "guild" "guild-uid"] := rfl
  obtain ⟨object, list, there, listed, equal, -⟩ :=
    apply_names_owner accepted (Prod.ext updated rfl)
  obtain ⟨object', entries, last, there', listed', length, named⟩ :=
    apply_names_owner accepted (Prod.ext unchanged rfl)
  rw [others] at equal length
  exact ⟨accepted, updated, ⟨object, list, there, listed, equal⟩, object', entries, last, there',
    listed', length, named⟩

end Instances

end Applier

end DesiredState
