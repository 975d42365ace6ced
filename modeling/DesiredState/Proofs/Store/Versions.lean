import DesiredState.Proofs.Store.Memory
import Std.Data.String.ToNat

/-!
# Versions of stored objects

In a `Valid` store every object has metadata and states a version that was given out. An operation
is a `Transition`: it writes one object at most, at a version that was not given out before. So a
valid store *advances* whatever is done to it: it stays valid, no object goes away, and an object
that is no longer the same states a version that was not given out before. A version that is still
stated under a key means that the object is still the same (`Later.eq_of_version`).
-/

namespace DesiredState.MemoryStore

open Json

variable {s t u : MemoryStore} {key : ObjectKey}

/-! ## Valid stores and later ones -/

/-- Every object has metadata and states a version that was given out. -/
def Valid (s : MemoryStore) : Prop :=
  ∀ k object, s.object? k = some object → object.hasMetadata = true ∧
    ∃ v, v ≤ s.version ∧ versionOf object = some (toString v)

/-- Every object is still there, either the same or at a version given out since. -/
structure Later (s t : MemoryStore) : Prop where
  version : s.version ≤ t.version
  kept : ∀ k x, s.object? k = some x → ∃ y, t.object? k = some y ∧
    (y = x ∨ ∃ v, s.version < v ∧ versionOf y = some (toString v))

/-- The second store is valid and later than the first one. -/
structure Advance (s t : MemoryStore) : Prop where
  valid : Valid t
  later : Later s t

theorem valid_emptyOf (family : String) : Valid (emptyOf family) := fun _ _ h => nomatch h

theorem Later.refl (s : MemoryStore) : Later s s := ⟨Nat.le_refl _, fun _ x h => ⟨x, h, .inl rfl⟩⟩

theorem Later.trans (h : Later s t) (h' : Later t u) : Later s u where
  version := Nat.le_trans h.version h'.version
  kept k x there := by
    obtain ⟨y, there', cases⟩ := h.kept k x there
    obtain ⟨z, there'', cases'⟩ := h'.kept k y there'
    refine ⟨z, there'', ?_⟩
    rcases cases' with rfl | ⟨v, lt, version⟩
    · exact cases
    · exact .inr ⟨v, Nat.lt_of_le_of_lt h.version lt, version⟩

theorem Later.present (h : Later s t) {k : ObjectKey} (there : s.object? k ≠ none) :
    t.object? k ≠ none := by
  obtain ⟨x, there⟩ := Option.ne_none_iff_exists'.1 there
  obtain ⟨y, there', -⟩ := h.kept k x there
  rw [there']
  exact nofun

/-- An object that still states the version of an earlier one is that one. -/
theorem Later.eq_of_version (valid : Valid s) (h : Later s t) {k : ObjectKey} {x y : Json}
    (before : s.object? k = some x) (after : t.object? k = some y)
    (version : versionOf x = versionOf y) : y = x := by
  obtain ⟨y', there, cases⟩ := h.kept k x before
  obtain rfl := Option.some.inj (after.symm.trans there)
  rcases cases with same | ⟨v, lt, newer⟩
  · exact same
  · obtain ⟨-, w, le, older⟩ := valid k x before
    rw [older, newer] at version
    have same : w = v := Nat.repr_injective (Option.some.inj version)
    omega

/-- A statement of an earlier object's version that is not stale is about that object. -/
theorem Later.eq_of_fresh (valid : Valid s) (h : Later s t) {k : ObjectKey} {x y stated : Json}
    (before : s.object? k = some x) (after : t.object? k = some y)
    (copied : versionOf stated = versionOf x) (fresh : staleVersion? stated y = none) : y = x := by
  obtain ⟨-, v, -, version⟩ := valid k x before
  refine h.eq_of_version valid before after ?_
  rw [version_of_fresh (copied.trans version) fresh, version]

theorem Advance.refl (valid : Valid s) : Advance s s := ⟨valid, .refl s⟩

/-- Without a write, a store advances if no version is taken back. -/
theorem advance_of_same (valid : Valid s) (same : SameObjects s t) (le : s.version ≤ t.version) :
    Advance s t where
  valid k object there := by
    obtain ⟨metadata, v, le', version⟩ := valid k object ((same k).trans there)
    exact ⟨metadata, v, Nat.le_trans le' le, version⟩
  later := ⟨le, fun k x there => ⟨x, (same k).symm.trans there, .inl rfl⟩⟩

theorem versionOf_stamped (s : MemoryStore) {j : Json} (h : j.hasMetadata = true) :
    versionOf (s.stamped j) = some (toString s.version) := by
  rw [versionOf_eq, (metadata_stamped s h).2, SortedMap.get?_insert, if_pos rfl]
  rfl

/-! ## Versions that were given out -/

/-- What stored objects state as their versions was given out. Nothing is asked of their metadata,
so whatever is done to a store keeps this. -/
def Issued (s : MemoryStore) : Prop :=
  ∀ k object version, s.object? k = some object → versionOf object = some version →
    ∃ v, v ≤ s.version ∧ version = toString v

theorem Valid.issued (valid : Valid s) : Issued s := by
  intro k object version there stated
  obtain ⟨-, v, le, eq⟩ := valid k object there
  exact ⟨v, le, Option.some.inj (stated.symm.trans eq)⟩

theorem issued_emptyOf (family : String) : Issued (emptyOf family) := (valid_emptyOf family).issued

/-- A stamped object states the latest version, or its metadata hold none. -/
theorem versionOf_stamped_or (s : MemoryStore) (j : Json) :
    versionOf (s.stamped j) = some (toString s.version) ∨ versionOf (s.stamped j) = none := by
  by_cases h : (s.stamped j).hasMetadata = true
  · left
    cases j with
    | obj fields =>
      rw [hasMetadata, stamped, member?_updateMember, if_pos rfl, Option.any_some,
        isObject_mapObject] at h
      obtain ⟨m, eq⟩ := eq_obj_of_isObject h
      rw [versionOf_eq, stamped, metadataFields, member?_updateMember, if_pos rfl, eq]
      show (Entries.get? (SortedMap.insert m _ _) _).bind asString? = _
      rw [SortedMap.get?_insert, if_pos rfl]
      rfl
    | _ => cases h
  · right
    rw [versionOf, stringAt?]
    cases there : (s.stamped j).path? ["metadata", "resourceVersion"] with
    | none => rfl
    | some v => exact absurd (hasMetadata_of_path there) h

namespace Issued

variable (issued : Issued s)

include issued

theorem ofSame (same : SameObjects s t) (le : s.version ≤ t.version) : Issued t := by
  intro k object version there stated
  obtain ⟨v, le', eq⟩ := issued k object version ((same k).trans there) stated
  exact ⟨v, Nat.le_trans le' le, eq⟩

theorem put (same : SameObjects s t) (le : s.version ≤ t.version) (key : ObjectKey)
    (object : Json) : Issued (t.put key (t.stamped object)) := by
  intro k found version there stated
  rw [object?_put] at there
  split at there
  · obtain rfl := Option.some.inj there
    rcases versionOf_stamped_or t object with eq | eq
    · exact ⟨t.version, Nat.le_refl _, Option.some.inj (stated.symm.trans eq)⟩
    · rw [eq] at stated
      cases stated
  · exact issued.ofSame same le k found version there stated

theorem attempt {α : Type} {op : Operation} {act : MemoryStore → Result α × MemoryStore}
    (acts : Issued (act (s.count op)).2) : Issued (s.attempt op act).2 := by
  rcases attempt_cases s op act with ⟨error, ran⟩ | ran
  · rw [ran]
    exact issued
  · rw [ran]
    exact acts

theorem get (key : ObjectKey) : Issued (s.get key).2 := issued.attempt issued

theorem list (kind : GroupVersionKind) (ns? : Option String) : Issued (s.list kind ns?).2 :=
  issued.attempt issued

theorem create (key : ObjectKey) (body : Json) : Issued (s.create key body).2 := by
  refine issued.attempt ?_
  dsimp only
  split
  · exact issued
  · exact issued.put (t := (s.count .create).nextVersion.issueUid) (fun _ => rfl)
      (Nat.le_succ _) key _

theorem patch (key : ObjectKey) (patch : Json) : Issued (s.patch key patch).2 := by
  refine issued.attempt ?_
  dsimp only
  split
  · exact issued
  · split
    · exact issued
    · split
      · exact issued
      · exact issued.put (t := (s.count .patch).nextVersion) (fun _ => rfl) (Nat.le_succ _) key _

theorem updateStatus (key : ObjectKey) (object : Json) : Issued (s.updateStatus key object).2 := by
  refine issued.attempt ?_
  dsimp only
  split
  · exact issued
  · split
    · exact issued
    · exact issued.put (t := (s.count .updateStatus).nextVersion) (fun _ => rfl)
        (Nat.le_succ _) key _

theorem insert (object : Json) : Issued (s.insert object).2 := by
  unfold MemoryStore.insert
  split
  · exact issued
  · exact issued.put (t := s.nextVersion.issueUid) (fun _ => rfl) (Nat.le_succ _) _ _

theorem amend (key : ObjectKey) (f : Json → Json) : Issued (s.amend key f).2 := by
  unfold MemoryStore.amend
  dsimp only
  split
  · exact issued.ofSame (fun _ => rfl) (Nat.le_succ _)
  · exact issued.put (t := s.nextVersion) (fun _ => rfl) (Nat.le_succ _) key _

end Issued

/-! ## What an operation does -/

/-- All objects stay as they are, or one is written, at a version that was not given out before. -/
inductive Transition (s t : MemoryStore) : Prop where
  | kept (same : SameObjects s t) (version : s.version ≤ t.version)
  | wrote (key : ObjectKey) (object : Json) (written : Written s t key object)
      (metadata : object.hasMetadata = true) (version : s.version < t.version)
      (stated : versionOf object = some (toString t.version))

/-- A valid store advances by whatever an operation does. -/
theorem Transition.advance (h : Transition s t) (valid : Valid s) : Advance s t := by
  rcases h with ⟨same, le⟩ | ⟨key, object, written, metadata, lt, stated⟩
  · exact advance_of_same valid same le
  · refine ⟨fun k x there => ?_, Nat.le_of_lt lt, fun k x there => ?_⟩
    · rw [written] at there
      split at there
      · obtain rfl := Option.some.inj there
        exact ⟨metadata, t.version, Nat.le_refl _, stated⟩
      · obtain ⟨metadata', v, le, version⟩ := valid k x there
        exact ⟨metadata', v, by omega, version⟩
    · by_cases eq : k = key
      · exact ⟨object, (written k).trans (if_pos eq), .inr ⟨t.version, lt, stated⟩⟩
      · exact ⟨x, (written k).trans ((if_neg eq).trans there), .inl rfl⟩

/-- A write of a stamped object at the next version. -/
theorem Transition.put (same : SameObjects s t) (next : t.version = s.version + 1) {object : Json}
    (h : object.hasMetadata = true) (key : ObjectKey) :
    Transition s (t.put key (t.stamped object)) := by
  refine .wrote key (t.stamped object) (fun k => ?_) (metadata_stamped t h).1
    (show s.version < t.version by omega) (versionOf_stamped t h)
  rw [object?_put, same k]

theorem Transition.attempt {α : Type} {op : Operation}
    {act : MemoryStore → Result α × MemoryStore} (h : Transition s (act (s.count op)).2) :
    Transition s (s.attempt op act).2 := by
  rcases attempt_cases s op act with ⟨error, ran⟩ | ran
  · rw [ran]
    exact .kept (fun _ => rfl) (Nat.le_refl _)
  · rw [ran]
    exact h

theorem transition_get (s : MemoryStore) (key : ObjectKey) : Transition s (s.get key).2 :=
  .attempt (.kept (fun _ => rfl) (Nat.le_refl _))

theorem transition_list (s : MemoryStore) (kind : GroupVersionKind) (ns? : Option String) :
    Transition s (s.list kind ns?).2 :=
  .attempt (.kept (fun _ => rfl) (Nat.le_refl _))

theorem transition_create (s : MemoryStore) (key : ObjectKey) {body : Json}
    (h : body.hasMetadata = true) : Transition s (s.create key body).2 := by
  refine .attempt ?_
  dsimp only
  split
  · exact .kept (fun _ => rfl) (Nat.le_refl _)
  · have bare := (metadata_eraseMember (by decide : "status" ≠ "metadata") h).1
    exact .put (s := s) (t := (s.count .create).nextVersion.issueUid) (fun _ => rfl) rfl
      (metadata_updateMember _ bare).1 key

theorem transition_patch (s : MemoryStore) (key : ObjectKey) {patch : Json}
    (keeps : ∀ live, s.object? key = some live →
      (live.patched (effective patch)).hasMetadata = true) :
    Transition s (s.patch key patch).2 := by
  refine .attempt ?_
  dsimp only
  split
  · exact .kept (fun _ => rfl) (Nat.le_refl _)
  · rename_i live there
    split
    · exact .kept (fun _ => rfl) (Nat.le_refl _)
    · split
      · exact .kept (fun _ => rfl) (Nat.le_refl _)
      · have there := keeps live there
        refine .put (s := s) (t := (s.count .patch).nextVersion) (fun _ => rfl) rfl ?_ key
        rcases merged_eq_or live patch with eq | ⟨next, eq⟩
        · rwa [eq]
        · rw [eq]
          exact (metadata_updateMember _ there).1

theorem transition_insert (s : MemoryStore) (object : Json) : Transition s (s.insert object).2 := by
  unfold insert
  cases keyed : Manifest.keyOf object with
  | error error => exact .kept (fun _ => rfl) (Nat.le_refl _)
  | ok key =>
    exact .put (s := s) (t := s.nextVersion.issueUid) (fun _ => rfl) rfl
      (metadata_updateMember _ (Manifest.hasMetadata_of_keyOf keyed)).1 key

section Operations

variable (valid : Valid s)

include valid

theorem transition_updateStatus (key : ObjectKey) (object : Json) :
    Transition s (s.updateStatus key object).2 := by
  refine .attempt ?_
  dsimp only
  split
  · exact .kept (fun _ => rfl) (Nat.le_refl _)
  · rename_i live there
    split
    · exact .kept (fun _ => rfl) (Nat.le_refl _)
    · exact .put (s := s) (t := (s.count .updateStatus).nextVersion) (fun _ => rfl) rfl
        (metadata_setMember _ (by decide) (valid key live there).1).1 key

theorem transition_amend (key : ObjectKey) {f : Json → Json}
    (keeps : ∀ j, j.hasMetadata = true → (f j).hasMetadata = true) :
    Transition s (s.amend key f).2 := by
  unfold amend
  dsimp only
  split
  · exact .kept (fun _ => rfl) (Nat.le_succ _)
  · rename_i object there
    exact .put (s := s) (t := s.nextVersion) (fun _ => rfl) rfl
      (keeps object (valid key object there).1) key

theorem transition_touch (key : ObjectKey) : Transition s (s.touch key).2 :=
  transition_amend valid key fun _ h => h

theorem transition_setStatus (key : ObjectKey) (status : Json) :
    Transition s (s.setStatus key status).2 :=
  transition_amend valid key fun _ h => (metadata_setMember status (by decide) h).1

/-! ## Operations on valid stores -/

theorem advance_get (key : ObjectKey) : Advance s (s.get key).2 :=
  (transition_get s key).advance valid

theorem advance_list (kind : GroupVersionKind) (ns? : Option String) :
    Advance s (s.list kind ns?).2 :=
  (transition_list s kind ns?).advance valid

theorem advance_create (key : ObjectKey) {body : Json} (h : body.hasMetadata = true) :
    Advance s (s.create key body).2 :=
  (transition_create s key h).advance valid

theorem advance_patch (key : ObjectKey) {patch : Json}
    (keeps : ∀ live, s.object? key = some live →
      (live.patched (effective patch)).hasMetadata = true) : Advance s (s.patch key patch).2 :=
  (transition_patch s key keeps).advance valid

theorem advance_updateStatus (key : ObjectKey) (object : Json) :
    Advance s (s.updateStatus key object).2 :=
  (transition_updateStatus valid key object).advance valid

theorem advance_insert (object : Json) : Advance s (s.insert object).2 :=
  (transition_insert s object).advance valid

theorem advance_touch (key : ObjectKey) : Advance s (s.touch key).2 :=
  (transition_touch valid key).advance valid

theorem advance_setStatus (key : ObjectKey) (status : Json) :
    Advance s (s.setStatus key status).2 :=
  (transition_setStatus valid key status).advance valid

end Operations

end DesiredState.MemoryStore
