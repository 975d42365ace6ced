import DesiredState.Proofs.Applying.Convergence
import DesiredState.Proofs.Interleaving.Transcripts

/-!
# The calls of an application

Whatever a store answers, an application makes one look, at the wanted key, and then at most one
write. `Goes` lists the ways it can go with all calls, their answers and what comes of them, and an
application goes in just these ways (`apply_goes_iff`). Whether it patches is decided by the values:
it does so exactly if laying the wanted body over the live object changes a value, bookkeeping aside
(`isEmpty_difference`). What it then sends is pinned down member by member (`patches_iff`).
-/

namespace DesiredState

open Json Bookkeeping Plan Dialogue

namespace Plan

variable {body live document' : Json}

theorem namespaced_iff :
    namespaced live = true ↔
      ∃ ns, live.stringAt? ["metadata", "namespace"] = some ns ∧ ns ≠ "" := by
  rw [namespaced, Option.isSome_iff_exists]
  constructor
  · rintro ⟨ns, stated⟩
    obtain ⟨stated, filled⟩ := Option.filter_eq_some_iff.1 stated
    refine ⟨ns, stated, fun empty => ?_⟩
    rw [empty] at filled
    cases filled
  · rintro ⟨ns, stated, filled⟩
    refine ⟨ns, Option.filter_eq_some_iff.2 ⟨stated, ?_⟩⟩
    simpa using filled

/-- The document is a wanted body as a patch for a live object, member by member. -/
structure Patches (body live document : Json) : Prop where
  hasMetadata : document.hasMetadata = true
  status : document.member? "status" = none
  members : ∀ k, k ≠ "metadata" → k ≠ "status" → document.member? k = body.member? k
  /-- The version of the live object is carried if it has one. -/
  version : ∀ v, live.path? ["metadata", "resourceVersion"] = some v →
    document.path? ["metadata", "resourceVersion"] = some v
  unversioned : live.path? ["metadata", "resourceVersion"] = none →
    document.path? ["metadata", "resourceVersion"] = body.path? ["metadata", "resourceVersion"]
  /-- A namespace is only sent to an object that has one. -/
  unplaced : (∀ ns, live.stringAt? ["metadata", "namespace"] = some ns → ns = "") →
    document.path? ["metadata", "namespace"] = none
  placed : ∀ ns, live.stringAt? ["metadata", "namespace"] = some ns → ns ≠ "" →
    document.path? ["metadata", "namespace"] = body.path? ["metadata", "namespace"]
  metadata : ∀ k, k ≠ "resourceVersion" → k ≠ "namespace" →
    document.path? ["metadata", k] = body.path? ["metadata", k]

/-- The metadata of the patch that a plan asks for. -/
theorem path?_document (live : Json) (h : body.hasMetadata = true) (k : String) :
    (document (fitted body live) live).path? ["metadata", k] =
      if k = "resourceVersion" then
        (live.path? ["metadata", k]).or (body.path? ["metadata", k])
      else if namespaced live = false ∧ k = "namespace" then none
      else body.path? ["metadata", k] := by
  obtain ⟨fits, fields⟩ := metadata_fitted live h
  simp only [path?_metadata]
  rw [(metadata_document live fits).2, fields]
  by_cases version : k = "resourceVersion"
  · simp [version]
  · simp [version]

theorem patches_document (live : Json) (h : body.hasMetadata = true) :
    Patches body live (document (fitted body live) live) where
  hasMetadata := (metadata_document live (metadata_fitted live h).1).1
  status := by rw [member?_document live (by decide), if_pos rfl]
  members k metadata status := by
    rw [member?_document live metadata, if_neg status, member?_fitted live body metadata]
  version v stated := by rw [path?_document live h, if_pos rfl, stated, Option.some_or]
  unversioned absent := by rw [path?_document live h, if_pos rfl, absent, Option.none_or]
  unplaced empty := by
    have bare : namespaced live = false := by
      rw [← Bool.not_eq_true, namespaced_iff]
      rintro ⟨ns, stated, filled⟩
      exact filled (empty ns stated)
    rw [path?_document live h, if_neg (by decide), if_pos ⟨bare, rfl⟩]
  placed ns stated filled := by
    have there : namespaced live = true := namespaced_iff.2 ⟨ns, stated, filled⟩
    rw [path?_document live h, if_neg (by decide), if_neg (by simp [there])]
  metadata k version placed := by
    rw [path?_document live h, if_neg version, if_neg fun both => placed both.2]

/-- There is one patch of a body for a live object, the one that a plan asks for. -/
theorem patches_iff (h : body.hasMetadata = true) :
    Patches body live document' ↔ document' = document (fitted body live) live := by
  constructor
  · intro patch
    have planned := patches_document live h
    refine eq_of_metadata patch.hasMetadata planned.hasMetadata (fun k metadata => ?_) fun k => ?_
    · by_cases status : k = "status"
      · rw [status, patch.status, planned.status]
      · rw [patch.members k metadata status, planned.members k metadata status]
    · rw [← path?_metadata, ← path?_metadata]
      by_cases version : k = "resourceVersion"
      · subst version
        cases stated : live.path? ["metadata", "resourceVersion"] with
        | none => rw [patch.unversioned stated, planned.unversioned stated]
        | some v => rw [patch.version v stated, planned.version v stated]
      · by_cases placed : k = "namespace"
        · subst placed
          by_cases filled : ∃ ns, live.stringAt? ["metadata", "namespace"] = some ns ∧ ns ≠ ""
          · obtain ⟨ns, stated, filled⟩ := filled
            rw [patch.placed ns stated filled, planned.placed ns stated filled]
          · have empty : ∀ ns, live.stringAt? ["metadata", "namespace"] = some ns → ns = "" :=
              fun ns stated => by_contra fun ne => filled ⟨ns, stated, ne⟩
            rw [patch.unplaced empty, planned.unplaced empty]
        · rw [patch.metadata k version placed, planned.metadata k version placed]
  · rintro rfl
    exact patches_document live h

end Plan

namespace Applier

/-- Laying the wanted body over the live object changes no value, bookkeeping aside. Without a
namespace of the live object that of the body does not count. -/
def Settled (wanted : Manifest) (owner : OwnerIdentity) (live : Json) : Prop :=
  (strip wanted.kind (live.overlay (fitted (owner.attachTo wanted.body) live))).same
    (strip wanted.kind live) = true

/-- The ways an application can go: the calls with their answers, and what comes of them. -/
inductive Goes (a : Applier) (wanted : Manifest) (owner : OwnerIdentity) :
    List Exchange → Result Applied → Prop where
  | unread {error : Error} : Goes a wanted owner [⟨.get wanted.key, .error error⟩] (.error error)
  | created {object : Json} :
      Goes a wanted owner
        [⟨.get wanted.key, .ok none⟩,
          ⟨.create wanted.key (owner.attachTo wanted.body) a.manager, .ok object⟩]
        (.ok .created)
  | uncreated {error : Error} :
      Goes a wanted owner
        [⟨.get wanted.key, .ok none⟩,
          ⟨.create wanted.key (owner.attachTo wanted.body) a.manager, .error error⟩]
        (.error error)
  | left {live : Json} (immutable : wanted.kind ∈ a.immutable) :
      Goes a wanted owner [⟨.get wanted.key, .ok (some live)⟩] (.ok .skippedImmutable)
  | kept {live : Json} (mutable : wanted.kind ∉ a.immutable)
      (settled : Settled wanted owner live) :
      Goes a wanted owner [⟨.get wanted.key, .ok (some live)⟩] (.ok .unchanged)
  | updated {live patch object : Json} (mutable : wanted.kind ∉ a.immutable)
      (unsettled : ¬ Settled wanted owner live)
      (patches : Patches (owner.attachTo wanted.body) live patch) :
      Goes a wanted owner
        [⟨.get wanted.key, .ok (some live)⟩, ⟨.patch wanted.key patch a.manager, .ok object⟩]
        (.ok (.updated (drift wanted.kind (fitted (owner.attachTo wanted.body) live) live)))
  | conflicted {live patch : Json} {error : Error} (mutable : wanted.kind ∉ a.immutable)
      (unsettled : ¬ Settled wanted owner live)
      (patches : Patches (owner.attachTo wanted.body) live patch)
      (conflict : error.isConflict = true) :
      Goes a wanted owner
        [⟨.get wanted.key, .ok (some live)⟩, ⟨.patch wanted.key patch a.manager, .error error⟩]
        (.ok .conflicted)
  | unpatched {live patch : Json} {error : Error} (mutable : wanted.kind ∉ a.immutable)
      (unsettled : ¬ Settled wanted owner live)
      (patches : Patches (owner.attachTo wanted.body) live patch)
      (failure : error.isConflict = false) :
      Goes a wanted owner
        [⟨.get wanted.key, .ok (some live)⟩, ⟨.patch wanted.key patch a.manager, .error error⟩]
        (.error error)

variable {a : Applier} {wanted : Manifest} {owner : OwnerIdentity} {live : Json}
  {log : List Exchange} {result : Result Applied}

theorem settled_iff :
    Settled wanted owner live ↔
      (drift (wanted.ownedBy owner).kind (fitted (wanted.ownedBy owner).body live)
        live).isEmpty = true := by
  rw [drift, isEmpty_difference]
  rfl

/-! ### How an application goes on from a live object -/

theorem afterLook_of_immutable (immutable : wanted.kind ∈ a.immutable) :
    afterLook a wanted owner (.ok (some live)) = .done (.succeeded .skippedImmutable) := by
  have listed : a.immutable.contains (wanted.ownedBy owner).kind = true :=
    List.contains_iff_mem.2 immutable
  rw [afterLook, of_immutable listed]
  rfl

section Mutable

variable (mutable : wanted.kind ∉ a.immutable)

include mutable

theorem not_contains_kind : a.immutable.contains (wanted.ownedBy owner).kind = false :=
  Bool.eq_false_iff.2 fun listed => mutable (List.contains_iff_mem.1 listed)

theorem afterLook_of_settled (settled : Settled wanted owner live) :
    afterLook a wanted owner (.ok (some live)) = .done (.succeeded .unchanged) := by
  rw [afterLook, of_agreeing (not_contains_kind mutable) (settled_iff.1 settled)]
  rfl

theorem afterLook_of_unsettled (unsettled : ¬ Settled wanted owner live) :
    afterLook a wanted owner (.ok (some live)) =
      .ask (.patch wanted.key (document (fitted (owner.attachTo wanted.body) live) live)
        a.manager) fun patched =>
          .done (.ofPatch (drift wanted.kind (fitted (owner.attachTo wanted.body) live) live)
            patched) := by
  rw [afterLook, of_drifted (not_contains_kind mutable)
    (Bool.eq_false_iff.2 (mt settled_iff.2 unsettled))]
  rfl

end Mutable

/-- An application goes in one of these ways, and can go in each of them. -/
theorem apply_goes_iff (accepted : Manifest.ofBody wanted.body = .ok wanted) :
    (Attempt.result <$> a.apply Dialogue.store wanted owner).Runs log result ↔
      Goes a wanted owner log result := by
  have metadata := (owner.metadata_attachTo (Manifest.hasMetadata_of_ofBody accepted)).1
  rw [apply_dialogue]
  constructor
  · intro ran
    obtain ⟨look, rest, rfl, later⟩ := runs_ask_iff.1 ran
    change (Attempt.result <$> afterLook a wanted owner look).Runs rest result at later
    rcases look with error | _ | live
    · obtain ⟨rfl, rfl⟩ := runs_done_iff.1 later
      exact .unread
    · obtain ⟨made, rest, rfl, ended⟩ := runs_ask_iff.1 later
      obtain ⟨rfl, rfl⟩ := runs_done_iff.1 ended
      cases made with
      | ok object => exact .created
      | error error => exact .uncreated
    · by_cases immutable : wanted.kind ∈ a.immutable
      · rw [afterLook_of_immutable immutable] at later
        obtain ⟨rfl, rfl⟩ := runs_done_iff.1 later
        exact .left immutable
      · by_cases settled : Settled wanted owner live
        · rw [afterLook_of_settled immutable settled] at later
          obtain ⟨rfl, rfl⟩ := runs_done_iff.1 later
          exact .kept immutable settled
        · rw [afterLook_of_unsettled immutable settled] at later
          have patches := patches_document live metadata
          obtain ⟨patched, rest, rfl, ended⟩ := runs_ask_iff.1 later
          obtain ⟨rfl, rfl⟩ := runs_done_iff.1 ended
          rcases patched with error | object
          · cases conflict : error.isConflict with
            | true =>
              rw [ofPatch_conflict conflict]
              exact .conflicted immutable settled patches conflict
            | false =>
              rw [ofPatch_failure conflict]
              exact .unpatched immutable settled patches conflict
          · exact .updated immutable settled patches
  · intro goes
    cases goes with
    | unread => exact .ask (.done _)
    | created => exact .ask (.ask (.done _))
    | uncreated => exact .ask (.ask (.done _))
    | left immutable =>
      refine .ask ?_
      rw [afterLook_of_immutable immutable]
      exact .done _
    | kept mutable settled =>
      refine .ask ?_
      rw [afterLook_of_settled mutable settled]
      exact .done _
    | updated mutable unsettled patches =>
      -- Any document that is the patch member by member is the one that is sent.
      obtain rfl := (patches_iff metadata).1 patches
      refine .ask ?_
      rw [afterLook_of_unsettled mutable unsettled]
      exact .ask (.done _)
    | @conflicted live patch error mutable unsettled patches conflict =>
      obtain rfl := (patches_iff metadata).1 patches
      have ended (d : Difference) :
          (Attempt.ofPatch d (.error error)).result = .ok .conflicted := by
        rw [ofPatch_conflict conflict]
        rfl
      refine .ask ?_
      rw [afterLook_of_unsettled mutable unsettled]
      exact .ask (runs_done_iff.2 ⟨rfl, (ended _).symm⟩)
    | @unpatched live patch error mutable unsettled patches failure =>
      obtain rfl := (patches_iff metadata).1 patches
      have ended (d : Difference) : (Attempt.ofPatch d (.error error)).result = .error error := by
        rw [ofPatch_failure failure]
        rfl
      refine .ask ?_
      rw [afterLook_of_unsettled mutable unsettled]
      exact .ask (runs_done_iff.2 ⟨rfl, (ended _).symm⟩)

/-! ## An instance -/

section Instance

/-- The calls of an application of the settings to the stocked store. -/
def settingsCalls : List Exchange :=
  (Attempt.result <$> standard.apply Dialogue.store settings team).log stocked

theorem apply_settings_goes :
    Manifest.ofBody settings.body = .ok settings ∧
      settingsCalls.map (·.call.writes) = [false, true] ∧
      Goes standard settings team settingsCalls (.ok (.updated ⟨1, 1, 0⟩)) := by
  have updated : ((Attempt.result <$> standard.apply Dialogue.store settings team).hold stocked).1 =
      .ok (.updated ⟨1, 1, 0⟩) := by decide +kernel
  have ran := runs_log (Attempt.result <$> standard.apply Dialogue.store settings team) stocked
  rw [updated] at ran
  exact ⟨rfl, by decide +kernel, (apply_goes_iff rfl).1 ran⟩

end Instance

end Applier

end DesiredState
