import DesiredState.Proofs.Object.Metadata
import DesiredState.Proofs.Store.Memory
import DesiredState.Readiness.Rulebook

/-!
# Generations and what was observed of them

A workload is ready only if its status is of the present generation (`observed_of_ready`). The
store counts a generation whenever it changes what lies outside metadata and status, and makes
objects without a status. So a workload that it made or changed is not ready, as long as the status
was not ahead of the generation before (`not_observed_made`, `not_observed_changed`).
-/

namespace DesiredState

open Json MemoryStore

/-! ## Workloads -/

/-- The kinds whose status says of which generation it is. -/
def workloadKinds : List GroupKind := [⟨"apps", "Deployment"⟩, ⟨"apps", "StatefulSet"⟩]

namespace Rule

/-- The rule of a workload holds only if its status is of the present generation. -/
theorem observed_of_ready {kind : GroupKind} (mem : kind ∈ workloadKinds) :
    ∃ rule, Rulebook.standard.rules.get? kind = some rule ∧
      ∀ live expected, (rule live expected).value = .ok true → observed live = true := by
  simp only [workloadKinds, List.mem_cons, List.not_mem_nil, or_false] at mem
  rcases mem with rfl | rfl
  · refine ⟨deployment, rfl, fun live expected ready => ?_⟩
    unfold deployment shaped at ready
    split at ready
    · exact (Bool.and_eq_true_iff.1 (Except.ok.inj ready)).1
    · cases ready
  · refine ⟨statefulSet, rfl, fun live expected ready => ?_⟩
    unfold statefulSet shaped at ready
    split at ready
    · dsimp only at ready
      split at ready
      · rename_i current _
        exact current
      · cases ready
    · cases ready

end Rule

/-! ## What generations count -/

namespace MemoryStore

/-- Metadata and status are not counted. -/
theorem counted_congr {f g : Object}
    (h : ∀ k, k ≠ "metadata" → k ≠ "status" → f.get? k = g.get? k) :
    counted (obj f) = counted (obj g) := by
  refine congrArg obj (Entries.ext fun k => ?_)
  simp only [Entries.get?_erase]
  by_cases status : k = "status"
  · rw [if_pos status, if_pos status]
  by_cases metadata : k = "metadata"
  · rw [if_pos metadata, if_pos metadata]
  · rw [if_neg status, if_neg status, if_neg metadata, if_neg metadata, h k metadata status]

theorem counted_updateMetadata (j : Json) (f : Object → Object) :
    counted (j.updateMember "metadata" f) = counted j := by
  cases j with
  | obj fields =>
    exact counted_congr fun k metadata _ => by rw [SortedMap.get?_insert, if_neg metadata]
  | _ => rfl

theorem counted_setStatus (j status : Json) :
    counted (j.setMember "status" status) = counted j := by
  cases j with
  | obj fields =>
    exact counted_congr fun k _ status => by rw [SortedMap.get?_insert, if_neg status]
  | _ => rfl

theorem counted_restated (s : MemoryStore) (live object : Json) :
    counted (s.restated live object) = counted live := by
  rw [restated, stamped, counted_updateMetadata, counted_setStatus]

theorem counted_changed (s : MemoryStore) (live patch : Json) :
    counted (s.changed live patch) = counted (live.patched (effective patch)) := by
  rw [changed, stamped, counted_updateMetadata]
  rcases merged_eq_or live patch with eq | ⟨next, eq⟩ <;> rw [eq]
  exact counted_updateMetadata _ _

end MemoryStore

/-! ## Statuses that are behind -/

/-- The object states a generation that can be counted on from, and its status is of no later
one. -/
def Trails (live : Json) : Prop :=
  ∃ n ∈ live.intAt? 64 ["metadata", "generation"], n < (twoTo 63 : Int) - 1 ∧
    ∀ seen ∈ live.intAt? 64 ["status", "observedGeneration"], seen ≤ n

instance (live : Json) : Decidable (Trails live) :=
  inferInstanceAs (Decidable (∃ n ∈ live.intAt? 64 ["metadata", "generation"],
    n < (twoTo 63 : Int) - 1 ∧
      ∀ seen ∈ live.intAt? 64 ["status", "observedGeneration"], seen ≤ n))

theorem intAt?_metadata (j : Json) (bits : Nat) (name : String) :
    j.intAt? bits ["metadata", name] =
      ((j.metadataFields.get? name).bind asNumber?).bind (·.toSigned? bits) := by
  rw [intAt?, path?_metadata]

/-- An object that the store makes has no status to observe. -/
theorem not_observed_made (s : MemoryStore) (body : Json) :
    Rule.observed (s.made body) = false := by
  unfold Rule.observed hasObjectAt
  rw [path?_cons, status_made]
  rfl

/-- No patch changes a uid. -/
theorem uid_changed (s : MemoryStore) (live : Json) {patch : Json}
    (hp : patch.hasMetadata = true) :
    (s.changed live patch).metadataFields.get? "uid" = live.metadataFields.get? "uid" := by
  obtain ⟨there, look⟩ := metadata_merged live hp
  rw [changed, (metadata_stamped _ there).2, SortedMap.get?_insert, if_neg (by decide),
    look "uid" (by decide), if_pos (by decide)]

/-- Where nothing that is counted changes, the generation is the live one. -/
theorem generation_changed_of_same (s : MemoryStore) {live patch : Json}
    (hp : patch.hasMetadata = true)
    (same : (counted (s.changed live patch)).same (counted live) = true) :
    (s.changed live patch).metadataFields.get? "generation" =
      live.metadataFields.get? "generation" := by
  obtain ⟨there, look⟩ := metadata_patched_effective live hp
  rw [counted_changed] at same
  rw [changed, merged_of_same same, (metadata_stamped _ there).2, SortedMap.get?_insert,
    if_neg (by decide), look "generation", if_pos (by decide)]

/-- Where the generation is counted, it is the one after the live one. -/
theorem generation_changed (s : MemoryStore) {live patch : Json} (hp : patch.hasMetadata = true)
    (differ : (counted (s.changed live patch)).same (counted live) = false) :
    (s.changed live patch).metadataFields.get? "generation" =
      some (nextGeneration live.metadataFields) := by
  obtain ⟨there, look⟩ := metadata_patched_effective live hp
  rw [counted_changed] at differ
  have merges := merged_of_differ differ
  obtain ⟨there', fields⟩ := metadata_updateMember
    (fun m => SortedMap.insert m "generation"
      (nextGeneration (live.patched (effective patch)).metadataFields)) there
  rw [changed, (metadata_stamped _ (merges ▸ there')).2, SortedMap.get?_insert,
    if_neg (by decide), merges, fields, SortedMap.get?_insert, if_pos rfl]
  unfold nextGeneration countGeneration
  rw [look "generation", if_pos (by decide)]

/-- Below the last word, the generation after one is the next number. -/
theorem toSigned?_nextGeneration {metadata : Object} {n : Int}
    (stated : ((metadata.get? "generation").bind asNumber?).bind (·.toSigned? 64) = some n)
    (below : n < (twoTo 63 : Int) - 1) :
    ((some (nextGeneration metadata)).bind asNumber?).bind (·.toSigned? 64) = some (n + 1) := by
  have holds : Word.HoldsSigned 64 n := by
    obtain ⟨number, -, fits⟩ := Option.bind_eq_some_iff.1 stated
    cases number with
    | int m =>
      obtain ⟨holds, eq⟩ := Option.ite_some_none_eq_some.1 fits
      exact eq ▸ holds
    | float => cases fits
  have holds' : Word.HoldsSigned 64 (n + 1) := by
    obtain ⟨low, -⟩ := holds
    exact ⟨by omega, Int.add_lt_of_lt_sub_right below⟩
  unfold nextGeneration countGeneration
  dsimp only
  rw [stated, Option.getD_some, Word.unchecked_of_holds holds']
  exact if_pos holds'

/-- A change of what is counted leaves the status behind. -/
theorem not_observed_changed (s : MemoryStore) {live patch : Json} (trails : Trails live)
    (hp : patch.hasMetadata = true)
    (differ : (counted (s.changed live patch)).same (counted live) = false) :
    Rule.observed (s.changed live patch) = false := by
  obtain ⟨n, stated, below, seen⟩ := trails
  have next : (s.changed live patch).intAt? 64 ["metadata", "generation"] = some (n + 1) := by
    rw [intAt?_metadata, generation_changed s hp differ]
    rw [Option.mem_def, intAt?_metadata] at stated
    exact toSigned?_nextGeneration stated below
  have status : (s.changed live patch).member? "status" = live.member? "status" := by
    rw [changed, status_stamped, member?_merged live hp (by decide), if_pos rfl]
  have same : (s.changed live patch).intAt? 64 ["status", "observedGeneration"] =
      live.intAt? 64 ["status", "observedGeneration"] := by
    rw [intAt?, intAt?, path?_cons, path?_cons, status]
  unfold Rule.observed
  rw [next, same, Bool.and_eq_false_iff]
  refine .inr (decide_eq_false fun eq => ?_)
  have := seen _ eq.symm
  omega

end DesiredState
