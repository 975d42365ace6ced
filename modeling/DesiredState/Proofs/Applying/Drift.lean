import DesiredState.Proofs.Applying.Calls

/-!
# The decision that an object has drifted

An application lays the wanted body over the live object, leaves the bookkeeping out and counts the
differences. What this decides can be read off the two objects: nothing is written exactly if the
live one covers the wanted one (`apply_unchanged_iff`). So what others add to an object, at any
depth, and another spelling of a quantity are never taken for drift (`Agrees.extended`).
-/

namespace DesiredState

open Json Bookkeeping Plan Dialogue

namespace Applier

variable {a : Applier} {wanted : Manifest} {owner : OwnerIdentity} {live : Json}

/-- The live object covers the wanted one, bookkeeping aside. Without a namespace of the live
object that of the wanted one does not count. -/
def Agrees (wanted : Manifest) (owner : OwnerIdentity) (live : Json) : Prop :=
  covers none (strip wanted.kind live)
    (strip wanted.kind (fitted (owner.attachTo wanted.body) live)) = true

/-- Laying the wanted object over a live one changes nothing exactly if the live one covers it. -/
theorem settled_iff_agrees : Settled wanted owner live ↔ Agrees wanted owner live := by
  rw [settled_iff]
  exact isEmpty_drift_iff

/-- Members that others add, at any depth, and other spellings of quantities are no drift. -/
theorem Agrees.extended {grown : Json} (agrees : Agrees wanted owner live)
    (more : covers none grown live = true) (place : namespaced grown = namespaced live) :
    Agrees wanted owner grown := by
  have body : fitted (owner.attachTo wanted.body) grown =
      fitted (owner.attachTo wanted.body) live := by
    unfold fitted
    rw [place]
  unfold Agrees
  rw [body]
  exact covers_trans ((Respects.strip wanted.kind).covers more) agrees

/-- An application that finds an object of a kind that may change comes to nothing but that look
exactly if the object covers the wanted one, and else it makes a patch. -/
theorem apply_unchanged_iff (mutable : wanted.kind ∉ a.immutable) :
    ((Attempt.result <$> a.apply Dialogue.store wanted owner).Runs
        [⟨.get wanted.key, .ok (some live)⟩] (.ok .unchanged) ↔ Agrees wanted owner live) ∧
      ∀ later result,
        (Attempt.result <$> a.apply Dialogue.store wanted owner).Runs
          (⟨.get wanted.key, .ok (some live)⟩ :: later) result →
        (result = .ok .unchanged ↔ Agrees wanted owner live) ∧
          ((∀ x ∈ later, x.call.writes = false) ↔ Agrees wanted owner live) := by
  rw [apply_dialogue]
  have from_look {later : List Exchange} {result : Result Applied} :
      (Attempt.result <$> Dialogue.ask (.get wanted.key) (afterLook a wanted owner)).Runs
          (⟨.get wanted.key, .ok (some live)⟩ :: later) result ↔
        (Attempt.result <$> afterLook a wanted owner (.ok (some live))).Runs later result :=
    ⟨fun | .ask ran => ran, fun ran => Runs.ask ran⟩
  simp only [from_look]
  by_cases settled : Settled wanted owner live
  · have agrees := settled_iff_agrees.1 settled
    rw [afterLook_of_settled mutable settled]
    refine ⟨iff_of_true (.done _) agrees, fun later result ran => ?_⟩
    obtain ⟨rfl, rfl⟩ := runs_done_iff.1 ran
    exact ⟨iff_of_true rfl agrees, iff_of_true nofun agrees⟩
  · have drifted := mt settled_iff_agrees.2 settled
    rw [afterLook_of_unsettled mutable settled]
    refine ⟨iff_of_false nofun drifted, fun later result ran => ?_⟩
    obtain ⟨patched, rest, rfl, ended⟩ := runs_ask_iff.1 ran
    obtain ⟨rfl, rfl⟩ := runs_done_iff.1 ended
    refine ⟨iff_of_false (fun unchanged => ?_) drifted, iff_of_false (fun quiet => ?_) drifted⟩
    · rcases patched with error | object
      · cases conflict : error.isConflict with
        | true => rw [ofPatch_conflict conflict] at unchanged; cases unchanged
        | false => rw [ofPatch_failure conflict] at unchanged; cases unchanged
      · cases unchanged
    · cases quiet _ List.mem_cons_self

/-! ### An instance -/

section Instance

/-- A quota with these members of metadata and of its spec, and with these other members. -/
def quotaOf (place spec others : List (String × Json)) : Json :=
  .object ([("apiVersion", .str "v1"), ("kind", .str "ResourceQuota"),
    ("metadata", .object (("name", .str "quota") :: place)), ("spec", .object spec)] ++ others)

/-- The quota that is wanted. -/
def quota : Manifest :=
  ⟨.of ⟨"", "v1", "ResourceQuota"⟩ (some "team") "quota",
    quotaOf [("namespace", .str "team")]
      [("hard", .object [("cpu", .str "2")]),
        ("scopes", .arr [.object [("name", .str "Terminating")]])] []⟩

/-- The quota as it was made, with this amount, and with what others have added since. -/
def liveQuota (amount : String) : Json :=
  quotaOf
    [("namespace", .str "team"), ("uid", .str "quota-uid"), ("resourceVersion", .str "7"),
      ("labels", .object [("tier", .str "gold")]),
      ("ownerReferences", .arr [team.reference.setMember "note" (.str "seen")])]
    [("hard", .object [("cpu", .str amount), ("memory", .str "1Gi")]),
      ("scopes", .arr [.object [("name", .str "Terminating"), ("since", .str "1")]])]
    [("status", .object [("used", .object [("cpu", .str "1")])])]

/-- Another spelling of the amount is no drift, and another amount is. -/
theorem apply_quota :
    (Attempt.result <$> standard.apply Dialogue.store quota team).Runs
        [⟨.get quota.key, .ok (some (liveQuota "2000m"))⟩] (.ok .unchanged) ∧
      ∀ later result,
        (Attempt.result <$> standard.apply Dialogue.store quota team).Runs
          (⟨.get quota.key, .ok (some (liveQuota "3"))⟩ :: later) result →
        ∃ x ∈ later, x.call.writes = true := by
  have mutable : quota.kind ∉ standard.immutable := by decide
  refine ⟨(apply_unchanged_iff mutable).1.2 ?_, fun later result ran => by_contra fun silent => ?_⟩
  · unfold Agrees
    decide +kernel
  · have agrees := ((apply_unchanged_iff mutable).2 later result ran).2.1 (by simpa using silent)
    unfold Agrees at agrees
    revert agrees
    decide +kernel

end Instance

end Applier

end DesiredState
