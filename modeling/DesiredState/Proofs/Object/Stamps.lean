import DesiredState.Proofs.Store.Memory

/-!
# Objects up to their stamps

The store gives an object its uid and its versions as texts. Two objects are *alike* if they
differ in those texts alone, as what two stores make of one body does (`alike_made`,
`alike_changed`).
-/

namespace DesiredState.Json

/-- The members of metadata that the store writes a text of its own into. -/
def stampNames : List String := ["uid", "resourceVersion"]

/-- No text in place of any text. -/
def blank : Json → Json
  | .str _ => .str ""
  | j => j

/-- The object with its stamps blanked. -/
def faded (j : Json) : Json :=
  j.mapMember "metadata" fun m => (m.mapMember "uid" blank).mapMember "resourceVersion" blank

/-- The objects differ in the texts of their stamps alone. -/
def Alike (a b : Json) : Prop := faded a = faded b

variable {a b : Json} {k : String}

theorem member?_faded (j : Json) (ne : k ≠ "metadata") : (faded j).member? k = j.member? k :=
  member?_mapMetadata _ ne

theorem member?_blanked (m : Object) (k : String) :
    (((obj m).mapMember "uid" blank).mapMember "resourceVersion" blank).member? k =
      if k ∈ stampNames then (m.get? k).map blank else m.get? k := by
  rw [member?_mapMember, member?_mapMember, member?_mapMember]
  by_cases version : k = "resourceVersion"
  · subst version
    simp [stampNames]
  · by_cases uid : k = "uid"
    · subst uid
      simp [stampNames]
    · simp [stampNames, version, uid]

theorem hasMetadata_faded (j : Json) : (faded j).hasMetadata = j.hasMetadata := by
  unfold hasMetadata faded
  rw [member?_mapMember, if_pos rfl]
  cases j.member? "metadata" with
  | none => rfl
  | some m =>
    show (mapObject _ (mapObject _ m)).isObject = m.isObject
    rw [isObject_mapObject, isObject_mapObject]

theorem metadata_faded {j : Json} (h : j.hasMetadata = true) (k : String) :
    (faded j).metadataFields.get? k =
      if k ∈ stampNames then (j.metadataFields.get? k).map blank else j.metadataFields.get? k := by
  rw [← path?_metadata, path?_cons, faded, member?_mapMember, if_pos rfl, member?_metadata h,
    ← member?_blanked]
  exact Option.bind_fun_some _

namespace Alike

theorem refl (a : Json) : Alike a a := rfl

theorem hasMetadata (h : Alike a b) (ha : a.hasMetadata = true) : b.hasMetadata = true := by
  rw [← hasMetadata_faded, ← h, hasMetadata_faded, ha]

theorem member? (h : Alike a b) (ne : k ≠ "metadata") : a.member? k = b.member? k := by
  rw [← member?_faded a ne, h, member?_faded b ne]

theorem metadata (h : Alike a b) (ha : a.hasMetadata = true) (ne : k ∉ stampNames) :
    a.metadataFields.get? k = b.metadataFields.get? k := by
  have eq := metadata_faded ha k
  rw [h, metadata_faded (h.hasMetadata ha), if_neg ne, if_neg ne] at eq
  exact eq.symm

theorem stamp (h : Alike a b) (ha : a.hasMetadata = true) (mem : k ∈ stampNames) :
    (a.metadataFields.get? k).map blank = (b.metadataFields.get? k).map blank := by
  have eq := metadata_faded ha k
  rw [h, metadata_faded (h.hasMetadata ha), if_pos mem, if_pos mem] at eq
  exact eq.symm

theorem path?_of_ne (h : Alike a b) (ne : k ≠ "metadata") (rest : List String) :
    a.path? (k :: rest) = b.path? (k :: rest) := by
  rw [path?_cons, path?_cons, h.member? ne]

theorem path?_metadata (h : Alike a b) (ha : a.hasMetadata = true) (ne : k ∉ stampNames)
    (rest : List String) :
    a.path? ("metadata" :: k :: rest) = b.path? ("metadata" :: k :: rest) := by
  rw [path?_cons, path?_cons, member?_metadata ha, member?_metadata (h.hasMetadata ha)]
  show ((obj a.metadataFields).path? (k :: rest)) = (obj b.metadataFields).path? (k :: rest)
  rw [path?_cons, path?_cons, member?_obj, member?_obj, h.metadata ha ne]

/-- Objects that agree apart from their stamps, and whose stamps are texts, are alike. -/
theorem ofMembers (ha : a.hasMetadata = true) (hb : b.hasMetadata = true)
    (members : ∀ k, k ≠ "metadata" → a.member? k = b.member? k)
    (metadata : ∀ k, k ∉ stampNames → a.metadataFields.get? k = b.metadataFields.get? k)
    (stamps : ∀ k, k ∈ stampNames →
      (a.metadataFields.get? k).map blank = (b.metadataFields.get? k).map blank) :
    Alike a b := by
  refine eq_of_metadata (by rw [hasMetadata_faded, ha]) (by rw [hasMetadata_faded, hb])
    (fun k ne => ?_) fun k => ?_
  · rw [member?_faded a ne, member?_faded b ne, members k ne]
  · rw [metadata_faded ha, metadata_faded hb]
    split
    · rename_i mem
      exact stamps k mem
    · rename_i ne
      exact metadata k ne

end Alike

end DesiredState.Json

namespace DesiredState.MemoryStore

open Json

/-- Stores make alike objects of one body. -/
theorem alike_made (s t : MemoryStore) {body : Json} (h : body.hasMetadata = true) :
    Alike (s.made body) (t.made body) := by
  obtain ⟨hs, fs⟩ := metadata_made s h
  obtain ⟨ht, ft⟩ := metadata_made t h
  refine .ofMembers hs ht (fun k ne => ?_) (fun k ne => ?_) fun k mem => ?_
  · rw [member?_made s h ne, member?_made t h ne]
  · simp only [stampNames, List.mem_cons, List.not_mem_nil, or_false, not_or] at ne
    simp only [fs, ft, SortedMap.get?_insert, if_neg ne.1, if_neg ne.2]
  · simp only [stampNames, List.mem_cons, List.not_mem_nil, or_false] at mem
    rcases mem with rfl | rfl <;> simp [fs, ft, freshUid, blank]

/-- Stores make alike objects of one live object by one patch. -/
theorem alike_changed (s t : MemoryStore) {live patch : Json} (hp : patch.hasMetadata = true) :
    Alike (s.changed live patch) (t.changed live patch) := by
  have merged := (metadata_merged live hp).1
  obtain ⟨hs, fs⟩ := metadata_stamped s.nextVersion merged
  obtain ⟨ht, ft⟩ := metadata_stamped t.nextVersion merged
  refine .ofMembers hs ht (fun k ne => ?_) (fun k ne => ?_) fun k mem => ?_
  · rw [changed, changed, member?_stamped _ (isObject_of_hasMetadata merged) ne,
      member?_stamped _ (isObject_of_hasMetadata merged) ne]
  · simp only [stampNames, List.mem_cons, List.not_mem_nil, or_false, not_or] at ne
    simp only [changed, fs, ft, SortedMap.get?_insert, if_neg ne.2]
  · simp only [stampNames, List.mem_cons, List.not_mem_nil, or_false] at mem
    rcases mem with rfl | rfl <;> simp [changed, fs, ft, blank]

end DesiredState.MemoryStore
