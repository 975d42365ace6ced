import DesiredState.Proofs.Applying.Changes
import DesiredState.Proofs.Json.Imposition

/-!
# What an update makes of an object

Drift is found by laying the wanted body over the live object, but what is written is a merge patch.
For a plain manifest the two come to the same, bookkeeping aside and up to the spelling of
quantities, but for lists: the patch replaces these as a whole (`apply_updated_imposes`). So what is
live beside the wanted members stays at any depth of objects, and is lost inside the items of a
wanted list (`apply_service_drops`).
-/

namespace DesiredState

open Json Bookkeeping Plan MemoryStore

namespace Bookkeeping

/-- Objects whose members agree, bookkeeping aside. -/
structure Accords (x y : Json) : Prop where
  members : ∀ k, k ≠ "metadata" → k ≠ "status" →
    Option.Rel (MemberAgrees false k) (x.member? k) (y.member? k)
  metadata : ∀ k, k ∉ metadataNames →
    Option.Rel (MemberAgrees false k) (x.metadataFields.get? k) (y.metadataFields.get? k)

theorem exists_of_rel {k : String} {a b : Option Json} (h : Option.Rel (MemberAgrees false k) a b)
    {w : Json} (there : b = some w) : ∃ l, a = some l ∧ covers (some k) l w = true := by
  subst there
  cases h with
  | some both => exact ⟨_, rfl, (agrees_iff.1 (memberAgrees_false_iff.1 both)).1⟩

namespace Accords

variable {x y : Json}

theorem symm (h : Accords x y) : Accords y x := by
  have flip : ∀ {k : String} {a b : Option Json}, Option.Rel (MemberAgrees false k) a b →
      Option.Rel (MemberAgrees false k) b a := by
    intro k a b rel
    cases rel with
    | none => exact .none
    | some both => exact .some ⟨both.2, both.1⟩
  exact ⟨fun k metadata status => flip (h.members k metadata status),
    fun k noisy => flip (h.metadata k noisy)⟩

theorem upholds (h : Accords x y) : Upholds x y where
  members k _ metadata status there := exists_of_rel (h.members k metadata status) there
  metadata k _ noisy there := exists_of_rel (h.metadata k noisy) there

/-- What accords agrees once the bookkeeping is stripped. -/
theorem agrees_strip (h : Accords x y) (hx : x.hasMetadata = true) (hy : y.hasMetadata = true)
    (kind : String) : agrees none (strip kind x) (strip kind y) = true :=
  agrees_iff.2 ⟨h.upholds.covers_strip hx hy kind, h.symm.upholds.covers_strip hy hx kind⟩

end Accords

end Bookkeeping

namespace Json

theorem get?_metadataFields (j : Json) (k : String) :
    j.metadataFields.get? k = ((j.member? "metadata").getD null).member? k := by
  rw [metadataFields_eq]
  cases (j.member? "metadata").getD null <;> rfl

theorem path?_metadata_cons (j : Json) (k : String) (rest : List String) :
    j.path? ("metadata" :: k :: rest) = (j.metadataFields.get? k).bind (·.path? rest) := by
  rw [path?_cons, get?_metadataFields]
  cases j.member? "metadata" <;> rfl

/-- The metadata of an object that is imposed on another. -/
theorem metadata_imposed (live : Json) {body : Json} (h : body.hasMetadata = true) :
    (live.imposed body).hasMetadata = true ∧
      ∀ k, (live.imposed body).metadataFields.get? k =
        imposedMember false k (live.metadataFields.get? k) (body.metadataFields.get? k) := by
  have inner : (live.imposed body).member? "metadata" =
      some (imposedUnder (some "metadata") ((live.member? "metadata").getD null)
        (obj body.metadataFields)) := by
    refine (member?_imposedUnder none live (isObject_of_hasMetadata h) "metadata").trans ?_
    rw [member?_metadata h]
    cases live.member? "metadata" <;> rfl
  obtain ⟨m, eq⟩ := eq_obj_of_isObject (isObject_imposedUnder (some "metadata")
    ((live.member? "metadata").getD null) (w := obj body.metadataFields) rfl)
  obtain ⟨there, fields⟩ := hasMetadata_of_member (inner.trans (congrArg some eq))
  refine ⟨there, fun k => ?_⟩
  rw [fields, ← member?_obj, ← eq, member?_imposedUnder _ _ rfl, member?_obj,
    get?_metadataFields live]
  rfl

end Json

namespace MemoryStore

variable {live body : Json}

/-- What a patch of a plan makes of a live object, outside metadata and status. -/
theorem member?_changed (s : MemoryStore) (live : Json) (h : body.hasMetadata = true) {k : String}
    (metadata : k ≠ "metadata") :
    (s.changed live (document body live)).member? k =
      if k = "status" then live.member? k else patchedMember (live.member? k) (body.member? k) := by
  have hd := (metadata_document live h).1
  rw [changed, member?_stamped _ (isObject_of_hasMetadata (metadata_merged live hd).1) metadata,
    member?_merged live hd metadata]
  split
  · rfl
  · rename_i status
    rw [member?_document live metadata, if_neg status]

/-- The same inside metadata, up to the stamps. -/
theorem metadata_changed (s : MemoryStore) (live : Json) (h : body.hasMetadata = true) {k : String}
    (version : k ≠ "resourceVersion") (generation : k ≠ "generation") :
    (s.changed live (document body live)).metadataFields.get? k =
      if k ∈ fixedNames then live.metadataFields.get? k
      else patchedMember (live.metadataFields.get? k) (body.metadataFields.get? k) := by
  obtain ⟨hd, look⟩ := metadata_document live h
  obtain ⟨there, look'⟩ := metadata_merged live hd
  rw [changed, (metadata_stamped _ there).2, SortedMap.get?_insert, if_neg version,
    look' k generation, look, if_neg version]

/-- A plain body that is patched in accords with the body that is imposed. -/
theorem accords_changed (s : MemoryStore) (live : Json) (plain : Plain body) :
    Accords (s.changed live (document body live)) (live.imposed body) where
  members k metadata status := by
    rw [member?_changed s live plain.hasMetadata metadata, if_neg status, imposed,
      member?_imposedUnder none live (isObject_of_hasMetadata plain.hasMetadata)]
    exact rel_patched_imposed _ _ (fun v there => plain.members k v metadata status there)
      fun l v there => agrees_patched_imposed (some k) l (plain.members k v metadata status there).2
  metadata k noisy := by
    obtain ⟨-, version, generation, creation⟩ := not_mem_metadataNames.1 noisy
    have free : k ∈ fixedNames ↔ k = "uid" := by
      simp only [fixedNames, List.mem_cons, List.not_mem_nil, or_false, version, generation,
        creation, false_or]
    have here : (s.changed live (document body live)).metadataFields.get? k =
        patchedMember (live.metadataFields.get? k) (body.metadataFields.get? k) := by
      rw [metadata_changed s live plain.hasMetadata version generation]
      split
      · rename_i fixed
        rw [free.1 fixed, plain.uid]
        rfl
      · rfl
    rw [here, (metadata_imposed live plain.hasMetadata).2]
    exact rel_patched_imposed _ _ (fun v there => plain.metadata k v noisy there)
      fun l v there => agrees_patched_imposed (some k) l (plain.metadata k v noisy there).2

/-- The members that every write of the store may change. -/
def stampPaths : List (List String) :=
  [["metadata", "resourceVersion"], ["metadata", "generation"]]

/-- What the body does not mention is as it was. -/
theorem path?_changed_of_omits (s : MemoryStore) (live : Json) (h : body.hasMetadata = true)
    {path : List String} (omitted : body.omits path = true) (free : path.take 2 ∉ stampPaths) :
    (s.changed live (document body live)).path? path = live.path? path := by
  cases path with
  | nil => cases body <;> cases omitted
  | cons k rest =>
    have members := (omits_cons omitted).2
    by_cases metadata : k = "metadata"
    · subst metadata
      have inner := members _ (member?_metadata h)
      cases rest with
      | nil => cases inner
      | cons j rest =>
        have version : j ≠ "resourceVersion" := fun e => free (by rw [e]; exact List.mem_cons_self)
        have generation : j ≠ "generation" := fun e => free (by
          rw [e]
          exact List.mem_cons_of_mem _ List.mem_cons_self)
        rw [path?_metadata_cons, path?_metadata_cons,
          metadata_changed s live h version generation]
        split
        · rfl
        · exact bind_patchedMember _ _ (omits_cons inner).2 fun l v there =>
            path?_patched_of_omits ((omits_cons inner).2 v there) l
    · rw [path?_cons, path?_cons, member?_changed s live h metadata]
      split
      · rfl
      · exact bind_patchedMember _ _ members fun l v there =>
          path?_patched_of_omits (members v there) l

end MemoryStore

namespace Applier

variable {a : Applier} {wanted : Manifest} {owner : OwnerIdentity} {s t : MemoryStore}
  {difference : Difference}

/-- After an update of a plain manifest, the stored object agrees with the wanted body imposed on
the object that was there, bookkeeping aside, and all that the body does not mention is as it was,
at any depth. The difference that is reported is that of the body laid over the object, which is
the same but for lists. -/
theorem apply_updated_imposes (accepted : Manifest.ofBody wanted.body = .ok wanted)
    (plain : isPlain wanted.body = true)
    (ran : (a.apply store wanted owner).run s = (.succeeded (.updated difference), t)) :
    ∃ live object, s.object? wanted.key = some live ∧ t.object? wanted.key = some object ∧
      difference =
        (strip wanted.kind (live.overlay (fitted (owner.attachTo wanted.body) live))).difference
          (strip wanted.kind live) ∧
      agrees none (strip wanted.kind object)
        (strip wanted.kind (live.imposed (fitted (owner.attachTo wanted.body) live))) = true ∧
      ∀ path, (fitted (owner.attachTo wanted.body) live).omits path = true →
        path.take 2 ∉ stampPaths → object.path? path = live.path? path := by
  have body := Plain.ofIsPlain (Manifest.hasMetadata_of_ofBody accepted) plain
  obtain ⟨live, u, there, -, rfl, drifted, ⟨moot, -⟩ | ⟨-, written⟩⟩ := apply_updated_cases ran
  · rw [agrees_of_moot body live moot] at drifted
    cases drifted
  · have fits := plain_fitted live (plain_attachTo owner body)
    refine ⟨live, _, there, (written _).trans (if_pos rfl), rfl, ?_, fun path omitted free =>
      path?_changed_of_omits u live fits.hasMetadata omitted free⟩
    exact (accords_changed u live fits).agrees_strip (hasMetadata_changed u live fits.hasMetadata)
      (metadata_imposed live fits.hasMetadata).1 _

/-! ## Instances -/

section Instances

/-- A service with these ports. -/
def serviceOf (ports : List Json) : Json :=
  .object [("apiVersion", .str "v1"), ("kind", .str "Service"),
    ("metadata", .object [("name", .str "web"), ("namespace", .str "team")]),
    ("spec", .object [("ports", .arr ports)])]

/-- A service that is wanted at another port. -/
def service : Manifest :=
  ⟨.of ⟨"", "v1", "Service"⟩ (some "team") "web", serviceOf [.object [("port", .int 81)]]⟩

/-- A store with the service, which was given a port of its node. -/
def served : MemoryStore :=
  (MemoryStore.empty.insert
    (serviceOf [.object [("port", .int 80), ("nodePort", .int 30080)]])).2

/-- The older settings come to agree with the wanted ones, and the data that these do not mention
are kept. -/
theorem apply_settings_imposes :
    Manifest.ofBody settings.body = .ok settings ∧ isPlain settings.body = true ∧
      ((standard.apply store settings team).run stocked).1 = .succeeded (.updated ⟨1, 1, 0⟩) ∧
      ∃ live object, stocked.object? settings.key = some live ∧
        ((standard.apply store settings team).run stocked).2.object? settings.key = some object ∧
        agrees none (strip settings.kind object)
          (strip settings.kind (live.imposed (fitted (team.attachTo settings.body) live))) = true ∧
        object.path? ["data", "other"] = live.path? ["data", "other"] := by
  have updated : ((standard.apply store settings team).run stocked).1 =
      .succeeded (.updated ⟨1, 1, 0⟩) := by decide +kernel
  have ran : (standard.apply store settings team).run stocked = (.succeeded (.updated ⟨1, 1, 0⟩),
    ((standard.apply store settings team).run stocked).2) := Prod.ext updated rfl
  have plain : isPlain settings.body = true := by decide +kernel
  have omitted : (stocked.object? settings.key).all (fun live =>
      (fitted (team.attachTo settings.body) live).omits ["data", "other"]) = true := by
    decide +kernel
  obtain ⟨live, object, there, there', -, agree, kept⟩ := apply_updated_imposes rfl plain ran
  rw [there] at omitted
  exact ⟨rfl, plain, updated, live, object, there, there', agree, kept _ omitted (by decide)⟩

/-- The port of the node is drift to nobody, and an update loses it: the stored object does not
agree with the wanted body laid over the object that was there. -/
theorem apply_service_drops :
    Manifest.ofBody service.body = .ok service ∧ isPlain service.body = true ∧
      ((standard.apply store service team).run served).1 = .succeeded (.updated ⟨1, 1, 0⟩) ∧
      (served.object? service.key).any (fun live =>
        (((standard.apply store service team).run served).2.object? service.key).any fun object =>
          !agrees none (strip service.kind object)
            (strip service.kind (live.overlay (fitted (team.attachTo service.body) live)))) =
        true := by
  refine ⟨rfl, by decide +kernel, by decide +kernel, by decide +kernel⟩

end Instances

end Applier

end DesiredState
