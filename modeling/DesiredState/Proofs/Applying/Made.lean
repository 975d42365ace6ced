import DesiredState.Proofs.Applying.Repetition

/-!
# Objects that are made of a body

An object that the store made of a body is the body with the books of the store: a uid, a version,
the first generation, and a status once another program sets one (`MadeOf`). Setting the status
leaves it such an object, and as long as it is one, no application of that body changes it
(`MadeOf.stays`).
-/

namespace DesiredState

open Json Bookkeeping Plan MemoryStore

/-- The members of the metadata that the store sets in what it makes. -/
def bookNames : List String := ["uid", "resourceVersion", "generation"]

/-- The object is the body with the books of the store, and with this status if any. -/
structure MadeOf (body : Json) (status? : Option Json) (object : Json) : Prop where
  hasMetadata : object.hasMetadata = true
  members : ∀ k, k ≠ "metadata" →
    object.member? k = if k = "status" then status? else body.member? k
  metadata : ∀ k, k ∉ bookNames → object.metadataFields.get? k = body.metadataFields.get? k
  uid : ∃ uid, object.metadataFields.get? "uid" = some (.str uid)
  version : ∃ version, object.metadataFields.get? "resourceVersion" = some (.str version)
  generation : object.metadataFields.get? "generation" = some (.int 1)

theorem not_mem_bookNames {k : String} :
    k ∉ bookNames ↔ k ≠ "uid" ∧ k ≠ "resourceVersion" ∧ k ≠ "generation" := by
  simp only [bookNames, List.mem_cons, List.not_mem_nil, or_false, not_or]

/-- What the store makes is made of the body, without a status. -/
theorem madeOf_made (s : MemoryStore) {body : Json} (h : body.hasMetadata = true) :
    MadeOf body none (s.made body) := by
  obtain ⟨there, fields⟩ := metadata_made s h
  refine ⟨there, fun k ne => member?_made s h ne, fun k free => ?_,
    ⟨uidText s.family s.issued, ?_⟩, ⟨toString (s.version + 1), ?_⟩, ?_⟩
  · obtain ⟨uid, version, generation⟩ := not_mem_bookNames.1 free
    simp only [fields, SortedMap.get?_insert, if_neg uid, if_neg version, if_neg generation]
  all_goals
    simp only [fields, SortedMap.get?_insert]
    rfl

namespace MadeOf

variable {body object : Json} {status? : Option Json}

/-- An object that was made stays so when its status is set. -/
theorem setStatus (made : MadeOf body status? object) (s : MemoryStore) (status : Json) :
    MadeOf body (some status) (s.stamped (object.setMember "status" status)) := by
  obtain ⟨there, fields⟩ :=
    metadata_setMember status (by decide : "status" ≠ "metadata") made.hasMetadata
  obtain ⟨there', fields'⟩ := metadata_stamped s there
  have plain := isObject_of_hasMetadata made.hasMetadata
  refine ⟨there', fun k ne => ?_, fun k free => ?_, ?_, ⟨toString s.version, ?_⟩,
    ?_⟩
  · rw [member?_stamped s (isObject_of_hasMetadata there) ne]
    by_cases eq : k = "status"
    · obtain ⟨members, rfl⟩ := eq_obj_of_isObject plain
      rw [member?_setMember, if_pos eq, if_pos eq]
    · rw [member?_setMember_of_ne plain _ eq, made.members k ne, if_neg eq, if_neg eq]
  · have version := (not_mem_bookNames.1 free).2.1
    rw [fields', SortedMap.get?_insert, if_neg version, fields, made.metadata k free]
  · obtain ⟨uid, stated⟩ := made.uid
    exact ⟨uid, by rw [fields', SortedMap.get?_insert, if_neg (by decide), fields, stated]⟩
  · rw [fields', SortedMap.get?_insert, if_pos rfl]
  · rw [fields', SortedMap.get?_insert, if_neg (by decide), fields, made.generation]

theorem isStamped (made : MadeOf body status? object) : object.isStamped = true := by
  obtain ⟨version, stated⟩ := made.version
  rw [Json.isStamped, made.hasMetadata, versionOf_eq, stated]
  rfl

theorem upholds (made : MadeOf body status? object) (plain : Plain body) : Upholds object body where
  members k w metadata status hk := by
    refine ⟨w, ?_, covers_self (some k) w⟩
    rw [made.members k metadata, if_neg status, hk]
  metadata k w noisy hk := by
    obtain ⟨-, version, generation, -⟩ := not_mem_metadataNames.1 noisy
    have uid : k ≠ "uid" := by
      rintro rfl
      rw [plain.uid] at hk
      cases hk
    refine ⟨w, ?_, covers_self (some k) w⟩
    rw [made.metadata k (not_mem_bookNames.2 ⟨uid, version, generation⟩), hk]

/-- An application of the body leaves the object as it is. -/
theorem stays {a : Applier} {wanted : Manifest} {owner : OwnerIdentity} {later : Json}
    (made : MadeOf (owner.attachTo wanted.body) status? object) (plain : Plain wanted.body)
    (formed : a.Formed wanted owner (some object) later) : later = object := by
  cases formed with
  | left => rfl
  | kept => rfl
  | changed u live mutable drifted =>
    have owned := Applier.plain_attachTo owner plain
    have agrees := isEmpty_drift_iff.2 <|
      (upholds_fitted owned.hasMetadata object (made.upholds owned)).covers_strip made.hasMetadata
        (plain_fitted object owned).hasMetadata wanted.kind
    rw [agrees] at drifted
    cases drifted

end MadeOf

end DesiredState
