import DesiredState.Proofs.Plan
import DesiredState.Proofs.Store.Memory

/-!
# What is written is as wanted

The object that the store makes of a plain body upholds the body, and so does what the store makes
of a live object by the patch of a plan (`upholds_made`, `upholds_changed`). Both stay in force
when the body is fitted to the object that came out.
-/

namespace DesiredState.MemoryStore

open Json Bookkeeping Plan

section

variable {body live : Json}

/-- What a plan asks of a patch is there once the patch has taken effect. -/
theorem upholds_patched (live : Json) (hb : Plain body) :
    Upholds (live.patched (effective (document body live))) body := by
  obtain ⟨there, look⟩ := metadata_document live hb.hasMetadata
  constructor
  · intro k w metadata status hk
    obtain ⟨present, deep⟩ := hb.members k w metadata status hk
    refine ⟨_, ?_, covers_patched (some k) ((live.member? k).getD null) deep⟩
    rw [member?_patched_effective live there metadata, if_neg status,
      member?_document live metadata, if_neg status, hk, patchedMember, present]
    rfl
  · intro k w noisy hk
    obtain ⟨present, deep⟩ := hb.metadata k w noisy hk
    refine ⟨_, ?_, covers_patched (some k) ((live.metadataFields.get? k).getD null) deep⟩
    have uid : k ≠ "uid" := fun e => by
      rw [e, hb.uid] at hk
      cases hk
    obtain ⟨-, version, generation, creation⟩ := not_mem_metadataNames.1 noisy
    have free : k ∉ fixedNames := by
      simp only [fixedNames, List.mem_cons, List.not_mem_nil, or_false, not_or]
      exact ⟨version, uid, generation, creation⟩
    rw [(metadata_patched_effective live there).2, if_neg free, look, if_neg version, hk,
      patchedMember, present]
    rfl

theorem upholds_changed (s : MemoryStore) (live : Json) (hb : Plain body) :
    Upholds (s.changed live (document body live)) body := by
  have hd := (metadata_document live hb.hasMetadata).1
  obtain ⟨there, look⟩ := metadata_merged live hd
  refine (upholds_patched live hb).congr (fun k metadata status => ?_) fun k noisy => ?_
  · rw [changed, member?_stamped _ (isObject_of_hasMetadata there) metadata,
      member?_merged live hd metadata, member?_patched_effective live hd metadata]
  · obtain ⟨-, version, generation, -⟩ := not_mem_metadataNames.1 noisy
    rw [changed, (metadata_stamped _ there).2, SortedMap.get?_insert, if_neg version,
      look k generation, (metadata_patched_effective live hd).2]

theorem hasMetadata_changed (s : MemoryStore) (live : Json) (hb : body.hasMetadata = true) :
    (s.changed live (document body live)).hasMetadata = true :=
  (metadata_stamped _ (metadata_merged live (metadata_document live hb).1).1).1

theorem upholds_made (s : MemoryStore) (hb : Plain body) : Upholds (s.made body) body := by
  constructor
  · intro k w metadata status hk
    refine ⟨w, ?_, covers_self (some k) w⟩
    rw [member?_made s hb.hasMetadata metadata, if_neg status, hk]
  · intro k w noisy hk
    have uid : k ≠ "uid" := fun e => by
      rw [e, hb.uid] at hk
      cases hk
    obtain ⟨-, version, generation, -⟩ := not_mem_metadataNames.1 noisy
    refine ⟨w, ?_, covers_self (some k) w⟩
    rw [(metadata_made s hb.hasMetadata).2, SortedMap.get?_insert, SortedMap.get?_insert,
      SortedMap.get?_insert, if_neg version, if_neg generation, if_neg uid, hk]

/-! ## Fitted to what came out -/

/-- A patch that states no namespace gives no object one. -/
theorem namespaced_changed (s : MemoryStore) (hb : body.hasMetadata = true)
    (bare : namespaced live = false) :
    namespaced (s.changed live (document (fitted body live) live)) = false := by
  obtain ⟨hf, look⟩ := metadata_fitted live hb
  obtain ⟨hd, look'⟩ := metadata_document live hf
  obtain ⟨hm, look''⟩ := metadata_merged live hd
  have kept : (s.changed live (document (fitted body live) live)).metadataFields.get? "namespace" =
      live.metadataFields.get? "namespace" := by
    rw [changed, (metadata_stamped _ hm).2, SortedMap.get?_insert, if_neg (by decide),
      look'' _ (by decide), if_neg (by decide), look', if_neg (by decide), look,
      if_pos ⟨bare, rfl⟩]
    rfl
  rw [namespaced_eq] at bare ⊢
  rw [kept, bare]

theorem upholds_changed_fitted (s : MemoryStore) (live : Json) (hb : Plain body) :
    Upholds (s.changed live (document (fitted body live) live))
      (fitted body (s.changed live (document (fitted body live) live))) := by
  have up := upholds_changed s live (plain_fitted live hb)
  cases placed : namespaced live with
  | true =>
    have whole : fitted body live = body := if_pos placed
    rw [whole] at up ⊢
    exact upholds_fitted hb.hasMetadata _ up
  | false =>
    have bare := namespaced_changed s hb.hasMetadata placed
    have same : ∀ other, namespaced other = false → fitted body other =
        body.mapMember "metadata" (Json.eraseMember "namespace") :=
      fun other h => if_neg (by rw [h]; exact Bool.false_ne_true)
    rw [same _ bare, ← same live placed]
    exact up

end

end DesiredState.MemoryStore
