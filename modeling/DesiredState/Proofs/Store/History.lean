import DesiredState.Proofs.Readiness.Generations
import DesiredState.Proofs.Store.Versions

/-!
# Histories of a store

What holds of versions, uids and generations throughout the history of a store, from the empty one
on, whatever is done to it (`run_orderly`). Created bodies and patches may be without metadata; then
they act like ones whose metadata are empty, so what is known of the others applies to them.

Versions are numbers that only grow, and no two objects ever have the same one (`Sound`). An object
that was created keeps its uid, and its generation counts the patches that revised it (`Tracked`).
-/

namespace DesiredState

/-! ## Objects without metadata -/

namespace Json

/-- An object whose metadata are an object if there are any. -/
def admitsMetadata (j : Json) : Bool := j.isObject && (j.member? "metadata").all isObject

/-- The object with its metadata, which are empty if there were none. -/
def withMetadata (j : Json) : Json := j.updateMember "metadata" id

theorem hasMetadata_withMetadata {j : Json} (h : j.admitsMetadata = true) :
    j.withMetadata.hasMetadata = true := by
  unfold admitsMetadata at h
  rw [Bool.and_eq_true] at h
  obtain ⟨object, fits⟩ := h
  obtain ⟨fields, rfl⟩ := eq_obj_of_isObject object
  rw [member?_obj] at fits
  rw [hasMetadata, withMetadata, member?_updateMember, if_pos rfl, Option.any_some,
    isObject_mapObject]
  cases there : fields.get? "metadata" with
  | none => rfl
  | some m => rwa [there] at fits

theorem metadataFields_withMetadata (j : Json) :
    j.withMetadata.metadataFields = j.metadataFields := by
  unfold metadataFields withMetadata
  cases j with
  | obj fields =>
    rw [member?_updateMember, if_pos rfl, member?_obj]
    cases fields.get? "metadata" with
    | none => rfl
    | some m => cases m <;> rfl
  | _ => rfl

/-- Adding empty metadata makes no difference to a change of the metadata. -/
theorem updateMember_withMetadata (j : Json) (f : Object → Object) :
    j.withMetadata.updateMember "metadata" f = j.updateMember "metadata" f := by
  cases j with
  | obj fields =>
    refine congrArg obj (Entries.ext fun k => ?_)
    simp only [SortedMap.get?_insert]
    split
    · cases (fields.get? "metadata").getD emptyObject <;> rfl
    · rfl
  | _ => rfl

theorem eraseMember_withMetadata (j : Json) {name : String} (ne : name ≠ "metadata") :
    j.withMetadata.eraseMember name = (j.eraseMember name).withMetadata := by
  cases j with
  | obj fields =>
    refine congrArg obj (Entries.ext fun k => ?_)
    simp only [SortedMap.get?_insert, Entries.get?_erase, if_neg (Ne.symm ne)]
    by_cases erased : k = name
    · rw [if_pos erased, if_pos erased, if_neg (erased ▸ ne)]
    · rw [if_neg erased, if_neg erased]
  | _ => rfl

end Json

namespace MemoryStore

open Json

variable {s t : MemoryStore} {key : ObjectKey}

theorem effective_withMetadata (patch : Json) : effective patch.withMetadata = effective patch := by
  rw [effective, eraseMember_withMetadata _ (by decide), updateMember_withMetadata, effective]

theorem versionOf_withMetadata (j : Json) : versionOf j.withMetadata = versionOf j := by
  rw [versionOf_eq, versionOf_eq, metadataFields_withMetadata]

theorem merged_withMetadata (live patch : Json) :
    merged live patch.withMetadata = merged live patch := by
  unfold merged merge
  rw [effective_withMetadata]

theorem create_withMetadata (s : MemoryStore) (key : ObjectKey) (body : Json) :
    s.create key body.withMetadata = s.create key body := by
  unfold create
  rw [eraseMember_withMetadata body (by decide)]
  simp only [updateMember_withMetadata]

theorem patch_withMetadata (s : MemoryStore) (key : ObjectKey) (patch : Json) :
    s.patch key patch.withMetadata = s.patch key patch := by
  simp only [MemoryStore.patch, staleVersion?, versionOf_withMetadata, effective_withMetadata,
    merged_withMetadata]

/-! ## Actions -/

/-- What can be done to a store. -/
inductive Action where
  | insert (object : Json)
  | create (key : ObjectKey) (body : Json)
  | patch (key : ObjectKey) (change : Json)
  | updateStatus (key : ObjectKey) (object : Json)
  | setStatus (key : ObjectKey) (status : Json)
  | touch (key : ObjectKey)
  | get (key : ObjectKey)
  | list (kind : GroupVersionKind) (ns? : Option String)
  | failNext (op : Operation) (error : Error)

namespace Action

/-- The store after an action. -/
def after (s : MemoryStore) : Action → MemoryStore
  | insert object => (s.insert object).2
  | create key body => (s.create key body).2
  | patch key change => (s.patch key change).2
  | updateStatus key object => (s.updateStatus key object).2
  | setStatus key status => (s.setStatus key status).2
  | touch key => (s.touch key).2
  | get key => (s.get key).2
  | list kind ns? => (s.list kind ns?).2
  | failNext op error => s.failNext op error

/-- Created bodies and patches are objects, and so are their metadata if there are any. -/
def isProper : Action → Bool
  | create _ body => body.admitsMetadata
  | patch _ change => change.admitsMetadata
  | _ => true

/-- All actions but the queueing of failures are operations. -/
def isOperation : Action → Bool
  | failNext .. => false
  | _ => true

/-- The action puts an object in under the key, over one that is there. -/
def overwrites (key : ObjectKey) : Action → Prop
  | insert object => Manifest.keyOf object = .ok key
  | _ => False

/-- The action is a patch of the object under the key. -/
def patches (key : ObjectKey) : Action → Bool
  | patch k _ => decide (k = key)
  | _ => false

/-- Only operations are patches. -/
theorem revision_le (a : Action) (key : ObjectKey) (b : Bool) :
    (a.patches key && b).toNat ≤ a.isOperation.toNat := by
  cases a with
  | patch => exact Bool.toNat_le _
  | _ => exact Nat.zero_le _

end Action

/-- The store after a history, which starts with the empty store. -/
def run (family : String) (history : List Action) : MemoryStore :=
  history.foldl Action.after (emptyOf family)

/-- The object under the key is another one outside its metadata and its status. -/
def revised (key : ObjectKey) (s t : MemoryStore) : Bool :=
  (s.object? key).any fun before =>
    (t.object? key).any fun after => !(counted after).same (counted before)

/-- How many patches of a history change what lies outside the metadata and the status of the
object under the key. -/
def revisions (key : ObjectKey) : MemoryStore → List Action → Nat
  | _, [] => 0
  | s, a :: rest =>
    (a.patches key && revised key s (a.after s)).toNat + revisions key (a.after s) rest

theorem run_append (family : String) (xs ys : List Action) :
    run family (xs ++ ys) = ys.foldl Action.after (run family xs) := List.foldl_append

theorem run_snoc (family : String) (xs : List Action) (a : Action) :
    run family (xs ++ [a]) = a.after (run family xs) := run_append family xs [a]

/-- Whatever a proper action does, it is a transition. -/
theorem Action.transition (valid : Valid s) {a : Action} (proper : a.isProper = true) :
    Transition s (a.after s) := by
  cases a with
  | insert object => exact transition_insert s object
  | create key body =>
    have h := transition_create s key (hasMetadata_withMetadata proper)
    rwa [create_withMetadata] at h
  | patch key change =>
    have h := transition_patch s key fun live _ =>
      (metadata_patched_effective live (hasMetadata_withMetadata proper)).1
    rwa [patch_withMetadata] at h
  | updateStatus key object => exact transition_updateStatus valid key object
  | setStatus key status => exact transition_setStatus valid key status
  | touch key => exact transition_touch valid key
  | get key => exact transition_get s key
  | list kind ns? => exact transition_list s kind ns?
  | failNext op error => exact .kept (fun _ => rfl) (Nat.le_refl _)

/-! ## Versions -/

/-- A valid store in which no two objects are at the same version. -/
structure Sound (s : MemoryStore) : Prop where
  valid : Valid s
  distinct : ∀ k k' x y, s.object? k = some x → s.object? k' = some y →
    versionOf x = versionOf y → k = k'

theorem sound_emptyOf (family : String) : Sound (emptyOf family) :=
  ⟨valid_emptyOf family, fun _ _ _ _ h => nomatch h⟩

/-- In a valid store, what is stored is not at a version above the latest. -/
theorem Valid.not_above (valid : Valid s) {k : ObjectKey} {x : Json} (there : s.object? k = some x)
    {n : Nat} (above : s.version < n) : versionOf x ≠ some (toString n) := by
  intro stated
  obtain ⟨-, v, le, eq⟩ := valid k x there
  have same : v = n := Nat.repr_injective (Option.some.inj (eq.symm.trans stated))
  omega

theorem Sound.next (sound : Sound s) (h : Transition s t) : Sound t := by
  refine ⟨(h.advance sound.valid).valid, fun k k' x y there there' same => ?_⟩
  rcases h with ⟨unchanged, -⟩ | ⟨key, object, written, -, lt, stated⟩
  · exact sound.distinct k k' x y ((unchanged k).trans there) ((unchanged k').trans there') same
  · rw [written] at there there'
    by_cases eq : k = key <;> by_cases eq' : k' = key
    · exact eq.trans eq'.symm
    · rw [if_pos eq] at there
      rw [if_neg eq'] at there'
      obtain rfl := Option.some.inj there
      exact absurd (same.symm.trans stated) (sound.valid.not_above there' lt)
    · rw [if_neg eq] at there
      rw [if_pos eq'] at there'
      obtain rfl := Option.some.inj there'
      exact absurd (same.trans stated) (sound.valid.not_above there lt)
    · rw [if_neg eq] at there
      rw [if_neg eq'] at there'
      exact sound.distinct k k' x y there there' same

/-- A sound store stays sound and only advances. -/
theorem sound_foldl {xs : List Action} (sound : Sound s) (proper : ∀ a ∈ xs, a.isProper = true) :
    Sound (xs.foldl Action.after s) ∧ Later s (xs.foldl Action.after s) := by
  induction xs generalizing s with
  | nil => exact ⟨sound, .refl s⟩
  | cons a rest ih =>
    have step := Action.transition sound.valid (proper a List.mem_cons_self)
    obtain ⟨last, later⟩ := ih (sound.next step) fun b mem => proper b (List.mem_cons_of_mem a mem)
    exact ⟨last, .trans (step.advance sound.valid).later later⟩

/-! ## Refusals -/

section Refusals

variable {live stated : Json} {version : String}

theorem staleVersion?_of_ne (states : versionOf stated = some version)
    (ne : versionOf live ≠ some version) : staleVersion? stated live = some version := by
  unfold staleVersion?
  rw [states, Option.filter_some, if_pos (decide_eq_true ne)]

variable (there : s.object? key = some live) (states : versionOf stated = some version)
  (ne : versionOf live ≠ some version)

include there states ne

/-- A patch that states another version is refused. -/
theorem patch_of_stale : (s.patch key stated).1 =
      .error ((s.queued .patch).head?.getD (staleError key version)) ∧
    SameObjects s (s.patch key stated).2 := by
  unfold MemoryStore.patch attempt
  cases s.queued .patch with
  | cons e rest => exact ⟨rfl, fun _ => rfl⟩
  | nil =>
    dsimp only
    rw [show (s.count .patch).object? key = some live from there]
    dsimp only
    rw [staleVersion?_of_ne states ne]
    exact ⟨rfl, fun _ => rfl⟩

/-- A status write that states another version is refused. -/
theorem updateStatus_of_stale : (s.updateStatus key stated).1 =
      .error ((s.queued .updateStatus).head?.getD (staleError key version)) ∧
    SameObjects s (s.updateStatus key stated).2 := by
  unfold updateStatus attempt
  cases s.queued .updateStatus with
  | cons e rest => exact ⟨rfl, fun _ => rfl⟩
  | nil =>
    dsimp only
    rw [show (s.count .updateStatus).object? key = some live from there]
    dsimp only
    rw [staleVersion?_of_ne states ne]
    exact ⟨rfl, fun _ => rfl⟩

end Refusals

/-! ## Uids and generations -/

theorem toSigned?_int {bits : Nat} {n : Int} (h : Word.HoldsSigned bits n) :
    (Number.int n).toSigned? bits = some n := if_pos h

/-- The generation after a number that a word holds with room to spare. -/
theorem nextGeneration_eq {metadata : Object} {n : Nat}
    (stated : metadata.get? "generation" = some (.int n)) (below : n + 1 < twoTo 63) :
    nextGeneration metadata = .int ((n + 1 : Nat) : Int) := by
  have holds : ∀ m : Nat, m < twoTo 63 → Word.HoldsSigned 64 m := by
    intro m lt
    have := twoTo_pos 63
    exact ⟨by show -(twoTo 63 : Int) ≤ m; omega, by show (m : Int) < (twoTo 63 : Int); omega⟩
  have read : ((metadata.get? "generation").bind asNumber?).bind (·.toSigned? 64) =
      some (n : Int) := by
    rw [stated, Json.int, Option.bind_some, asNumber?, Option.bind_some]
    exact toSigned?_int (holds n (by omega))
  unfold nextGeneration countGeneration
  dsimp only
  rw [read, Option.getD_some, @Word.unchecked_of_holds 63 (n + 1) (holds (n + 1) below)]
  rfl

/-- The object has this uid and is of this generation. -/
structure Marked (uid : String) (n : Nat) (object : Json) : Prop where
  metadata : object.hasMetadata = true
  uid : object.metadataFields.get? "uid" = some (.str uid)
  generation : object.metadataFields.get? "generation" = some (.int n)

namespace Marked

variable {uid : String} {n : Nat} {live : Json}

theorem stamped (h : Marked uid n live) (s : MemoryStore) : Marked uid n (s.stamped live) := by
  obtain ⟨there, fields⟩ := metadata_stamped s h.metadata
  refine ⟨there, ?_, ?_⟩
  · rw [fields, SortedMap.get?_insert, if_neg (by decide), h.uid]
  · rw [fields, SortedMap.get?_insert, if_neg (by decide), h.generation]

theorem setStatus (h : Marked uid n live) (status : Json) :
    Marked uid n (live.setMember "status" status) := by
  obtain ⟨there, fields⟩ :=
    metadata_setMember status (by decide : "status" ≠ "metadata") h.metadata
  exact ⟨there, fields ▸ h.uid, fields ▸ h.generation⟩

/-- What the store makes is of the first generation. -/
theorem made (s : MemoryStore) {body : Json} (h : body.hasMetadata = true) :
    Marked (uidText s.family s.issued) 1 (s.made body) := by
  obtain ⟨there, fields⟩ := metadata_made s h
  refine ⟨there, ?_, ?_⟩
  · rw [fields]
    simp only [SortedMap.get?_insert]
    rfl
  · rw [fields]
    simp only [SortedMap.get?_insert]
    rfl

/-- A patch leaves the uid, and the generation unless it changes what is counted. -/
theorem changed (h : Marked uid n live) (s : MemoryStore) {patch : Json}
    (hp : patch.hasMetadata = true) (below : n + 1 < twoTo 63) :
    Marked uid (n + if (counted (s.changed live patch)).same (counted live) then 0 else 1)
      (s.changed live patch) := by
  refine ⟨(metadata_stamped _ (metadata_merged live hp).1).1, (uid_changed s live hp).trans h.uid,
    ?_⟩
  cases same : (counted (s.changed live patch)).same (counted live) with
  | true => exact (generation_changed_of_same s hp same).trans h.generation
  | false =>
    rw [generation_changed s hp same, nextGeneration_eq h.generation below]
    rfl

end Marked

/-- A call that only looks leaves all objects. -/
theorem sameObjects_attempt {α : Type} {op : Operation}
    {act : MemoryStore → Result α × MemoryStore} (h : SameObjects s (act (s.count op)).2) :
    SameObjects s (s.attempt op act).2 := by
  rcases attempt_cases s op act with ⟨e, ran⟩ | ran
  · rw [ran]
    exact fun _ => rfl
  · rwa [ran]

/-- The object under the key has this uid and is of this generation. -/
def Tracked (key : ObjectKey) (uid : String) (n : Nat) (s : MemoryStore) : Prop :=
  ∃ object, s.object? key = some object ∧ Marked uid n object

namespace Tracked

variable {uid : String} {n : Nat}

theorem ofSame (h : Tracked key uid n s) (same : SameObjects s t) : Tracked key uid n t := by
  obtain ⟨object, there, marked⟩ := h
  exact ⟨object, (same key).symm.trans there, marked⟩

theorem ofWritten {k : ObjectKey} {object : Json} (h : Tracked key uid n s)
    (written : Written s t k object)
    (marked : k = key → ∀ live, s.object? key = some live → Marked uid n live →
      Marked uid n object) : Tracked key uid n t := by
  obtain ⟨live, there, before⟩ := h
  by_cases eq : k = key
  · exact ⟨object, (written key).trans (if_pos eq.symm), marked eq live there before⟩
  · exact ⟨live, (written key).trans ((if_neg (Ne.symm eq)).trans there), before⟩

theorem amend (h : Tracked key uid n s) (k : ObjectKey) {f : Json → Json}
    (keeps : ∀ live, Marked uid n live → Marked uid n (f live)) :
    Tracked key uid n (s.amend k f).2 := by
  unfold MemoryStore.amend
  dsimp only
  split
  · exact h.ofSame fun _ => rfl
  · rename_i live there
    refine h.ofWritten (t := s.nextVersion.put k _) (object?_put s.nextVersion k _) ?_
    rintro rfl live' there' marked
    obtain rfl := Option.some.inj (there.symm.trans there')
    exact (keeps _ marked).stamped _

/-- A patch counts a generation if it revises the object. -/
theorem patch (h : Tracked key uid n s) {change : Json} (proper : change.admitsMetadata = true)
    (below : n + 1 < twoTo 63) :
    Tracked key uid (n + (revised key s (s.patch key change).2).toNat) (s.patch key change).2 := by
  have unrevised : ∀ {t}, SameObjects s t → revised key s t = false := by
    intro t same
    unfold revised
    rw [← same key]
    cases s.object? key with
    | none => rfl
    | some live => simp [same_self]
  rcases patch_cases s key change.withMetadata with
    ⟨e, t, ran, same⟩ | ⟨live, there, -, ⟨t, ran, -, same⟩ | ⟨t, ran, -, written⟩⟩
  all_goals rw [patch_withMetadata] at ran
  · rw [ran, unrevised same]
    exact h.ofSame same
  · rw [ran, unrevised same]
    exact h.ofSame same
  · obtain ⟨live', there', marked⟩ := h
    obtain rfl := Option.some.inj (there.symm.trans there')
    have now := (written key).trans (if_pos rfl)
    have counts := marked.changed s (hasMetadata_withMetadata proper) below
    have differ : revised key s t =
        !(counted (s.changed live change.withMetadata)).same (counted live) := by
      unfold revised
      rw [there, now]
      rfl
    rw [ran, differ]
    refine ⟨_, now, ?_⟩
    revert counts
    cases (counted (s.changed live change.withMetadata)).same (counted live) <;> exact id

/-- An action that does not put another object in leaves the uid, and counts a generation if it is
a patch that revises the object. -/
theorem after (h : Tracked key uid n s) {a : Action} (proper : a.isProper = true)
    (kept : ¬ a.overwrites key) (below : n + a.isOperation.toNat < twoTo 63) :
    Tracked key uid (n + (a.patches key && revised key s (a.after s)).toNat) (a.after s) := by
  cases a with
  | insert object =>
    show Tracked key uid n (s.insert object).2
    unfold MemoryStore.insert
    cases keyed : Manifest.keyOf object with
    | error e => exact h
    | ok k =>
      refine h.ofWritten (t := s.nextVersion.issueUid.put k _)
        (object?_put s.nextVersion.issueUid k _) ?_
      rintro rfl
      exact absurd keyed kept
  | create k body =>
    show Tracked key uid n (s.create k body).2
    rcases create_cases s k body with ⟨e, t, ran, same⟩ | ⟨t, ran, absent, written⟩
    · rw [ran]
      exact h.ofSame same
    · rw [ran]
      refine h.ofWritten written ?_
      rintro rfl live there
      rw [absent] at there
      cases there
  | patch k change =>
    by_cases eq : k = key
    · subst eq
      have counts := h.patch proper below
      rwa [← Bool.true_and (revised k s _), ← decide_eq_true (Eq.refl k)] at counts
    · have other : (Action.patch k change).patches key = false := decide_eq_false eq
      rw [other, Bool.false_and]
      show Tracked key uid n (s.patch k change).2
      rcases patch_cases s k change with
        ⟨e, t, ran, same⟩ | ⟨live, -, -, ⟨t, ran, -, same⟩ | ⟨t, ran, -, written⟩⟩
      · rw [ran]
        exact h.ofSame same
      · rw [ran]
        exact h.ofSame same
      · rw [ran]
        exact h.ofWritten written fun same => absurd same eq
  | updateStatus k object =>
    show Tracked key uid n (s.updateStatus k object).2
    rcases updateStatus_cases s k object with ⟨e, t, ran, same⟩ | ⟨live, t, there, -, ran, written⟩
    · rw [ran]
      exact h.ofSame same
    · rw [ran]
      refine h.ofWritten written ?_
      rintro rfl live' there' marked
      obtain rfl := Option.some.inj (there.symm.trans there')
      exact (marked.setStatus _).stamped _
  | setStatus k status => exact h.amend k fun live marked => marked.setStatus status
  | touch k => exact h.amend k fun live marked => marked
  | get k => exact h.ofSame (sameObjects_attempt fun _ => rfl)
  | list kind ns? => exact h.ofSame (sameObjects_attempt fun _ => rfl)
  | failNext op error => exact h

/-- Along a history that puts no other object in, generations count the revisions. -/
theorem foldl {xs : List Action} (h : Tracked key uid n s)
    (proper : ∀ a ∈ xs, a.isProper = true) (kept : ∀ a ∈ xs, ¬ a.overwrites key)
    (below : n + xs.countP Action.isOperation < twoTo 63) :
    Tracked key uid (n + revisions key s xs) (xs.foldl Action.after s) := by
  induction xs generalizing s n with
  | nil => exact h
  | cons a rest ih =>
    have total : (a :: rest).countP Action.isOperation =
        a.isOperation.toNat + rest.countP Action.isOperation := by
      rw [List.countP_cons]
      cases a.isOperation
      · simp
      · simp [Nat.add_comm]
    have count := a.revision_le key (revised key s (a.after s))
    rw [total] at below
    have next := h.after (proper a List.mem_cons_self) (kept a List.mem_cons_self) (by omega)
    have last := ih next (fun b mem => proper b (List.mem_cons_of_mem a mem))
      (fun b mem => kept b (List.mem_cons_of_mem a mem)) (by omega)
    rw [revisions, ← Nat.add_assoc]
    exact last

end Tracked

/-! ## Histories -/

/-- What holds throughout a history. The moments of a history are the stores after its beginnings,
and a store that an action meets is the moment before it. -/
structure Orderly (family : String) (history : List Action) : Prop where
  /-- At every moment, all objects are at versions of their own. -/
  distinct : ∀ xs, xs <+: history → ∀ k k' x y, (run family xs).object? k = some x →
    (run family xs).object? k' = some y → versionOf x = versionOf y → k = k'
  /-- Under a key, what is at the same version at two moments is the same object. -/
  identical : ∀ xs ys, xs <+: history → ys <+: history → ∀ k x y,
    (run family xs).object? k = some x → (run family ys).object? k = some y →
    versionOf x = versionOf y → x = y
  /-- An action that changes what is under a key leaves an object there, at a version above all
  versions at this moment and before. -/
  rising : ∀ xs a, xs ++ [a] <+: history → ∀ k,
    (a.after (run family xs)).object? k ≠ (run family xs).object? k →
    ∃ (object : Json) (n : Nat), (a.after (run family xs)).object? k = some object ∧
      versionOf object = some (toString n) ∧
      ∀ ys, ys <+: xs → ∀ k' x, (run family ys).object? k' = some x →
        ∃ m : Nat, versionOf x = some (toString m) ∧ m < n
  /-- A patch that merges to the same object leaves all objects as they are. -/
  moot : ∀ xs key change, xs ++ [.patch key change] <+: history → ∀ live,
    (run family xs).object? key = some live →
    (live.patched (effective change)).same live = true →
    SameObjects (run family xs) ((run family xs).patch key change).2
  /-- Whoever states another version than that of the object is refused, and no object changes. -/
  refused : ∀ xs, xs <+: history → ∀ key live stated version,
    (run family xs).object? key = some live → versionOf stated = some version →
    versionOf live ≠ some version →
    (((run family xs).patch key stated).1 = .error
        (((run family xs).queued .patch).head?.getD (staleError key version)) ∧
      SameObjects (run family xs) ((run family xs).patch key stated).2) ∧
    ((run family xs).updateStatus key stated).1 = .error
        (((run family xs).queued .updateStatus).head?.getD (staleError key version)) ∧
      SameObjects (run family xs) ((run family xs).updateStatus key stated).2
  /-- An object that was created, with nothing put in over it since, has the uid that it got, and
  its generation is one more than the number of the patches that revised it. -/
  tracked : ∀ xs key body ys, xs ++ .create key body :: ys <+: history → ∀ created,
    ((run family xs).create key body).1 = .ok created → (∀ a ∈ ys, ¬ a.overwrites key) →
    ∃ uid object, created.stringAt? ["metadata", "uid"] = some uid ∧
      (run family (xs ++ .create key body :: ys)).object? key = some object ∧
      object.stringAt? ["metadata", "uid"] = some uid ∧
      object.path? ["metadata", "generation"] =
        some (.int (1 + revisions key (run family (xs ++ [.create key body])) ys : Nat))

section Histories

variable {family : String} {history : List Action}

/-- Every moment is sound, and later than those before. -/
theorem sound_run {xs : List Action} (proper : ∀ a ∈ history, a.isProper = true)
    (moment : xs <+: history) :
    Sound (run family xs) ∧ ∀ ys, ys <+: xs → Later (run family ys) (run family xs) := by
  have sound : ∀ {zs}, zs <+: history → Sound (run family zs) := fun beginning =>
    (sound_foldl (sound_emptyOf family) fun a mem => proper a (beginning.subset mem)).1
  refine ⟨sound moment, ?_⟩
  rintro ys ⟨zs, rfl⟩
  rw [run_append]
  refine (sound_foldl (sound ((List.prefix_append ys zs).trans moment)) fun a mem => ?_).2
  exact proper a (moment.subset (List.mem_append_right ys mem))

theorem run_identical {xs ys : List Action} (proper : ∀ a ∈ history, a.isProper = true)
    (earlier : xs <+: ys) (moment : ys <+: history) {k : ObjectKey} {x y : Json}
    (before : (run family xs).object? k = some x) (after : (run family ys).object? k = some y)
    (same : versionOf x = versionOf y) : y = x :=
  ((sound_run proper moment).2 xs earlier).eq_of_version
    (sound_run proper (earlier.trans moment)).1.valid before after same

theorem run_rising {xs : List Action} {a : Action} (proper : ∀ a ∈ history, a.isProper = true)
    (moment : xs ++ [a] <+: history) {k : ObjectKey}
    (differ : (a.after (run family xs)).object? k ≠ (run family xs).object? k) :
    ∃ (object : Json) (n : Nat), (a.after (run family xs)).object? k = some object ∧
      versionOf object = some (toString n) ∧
      ∀ ys, ys <+: xs → ∀ k' x, (run family ys).object? k' = some x →
        ∃ m : Nat, versionOf x = some (toString m) ∧ m < n := by
  have beginning : xs <+: history := (List.prefix_append xs [a]).trans moment
  obtain ⟨sound, later⟩ : Sound (run family xs) ∧ _ := sound_run proper beginning
  have fits : a.isProper = true := proper a (moment.subset (by simp))
  rcases Action.transition sound.valid fits with ⟨same, -⟩ | ⟨key, object, written, -, lt, stated⟩
  · exact absurd (same k).symm differ
  · have eq : k = key := by
      apply Decidable.byContradiction
      intro ne
      exact differ ((written k).trans (if_neg ne))
    refine ⟨object, _, (written k).trans (if_pos eq), stated, fun ys earlier k' x there => ?_⟩
    obtain ⟨-, m, le, version⟩ :=
      (sound_run proper (earlier.trans beginning)).1.valid k' x there
    exact ⟨m, version, by have := (later ys earlier).version; omega⟩

theorem patch_of_moot {live change : Json} (there : s.object? key = some live)
    (moot : (live.patched (effective change)).same live = true) :
    SameObjects s (s.patch key change).2 := by
  rcases patch_cases s key change with
    ⟨e, t, ran, same⟩ | ⟨live', there', -, ⟨t, ran, -, same⟩ | ⟨t, ran, differs, -⟩⟩
  · rw [ran]
    exact same
  · rw [ran]
    exact same
  · obtain rfl := Option.some.inj (there.symm.trans there')
    rw [moot] at differs
    cases differs

theorem run_tracked {xs ys : List Action} {body created : Json}
    (proper : ∀ a ∈ history, a.isProper = true)
    (few : history.countP Action.isOperation < twoTo 63)
    (moment : xs ++ .create key body :: ys <+: history)
    (ran : ((run family xs).create key body).1 = .ok created)
    (kept : ∀ a ∈ ys, ¬ a.overwrites key) :
    ∃ uid, created.stringAt? ["metadata", "uid"] = some uid ∧
      Tracked key uid (1 + revisions key (run family (xs ++ [.create key body])) ys)
        (run family (xs ++ .create key body :: ys)) := by
  have fits : body.admitsMetadata = true := proper (.create key body) (moment.subset (by simp))
  obtain ⟨uid, marked⟩ : ∃ uid, Marked uid 1 ((run family xs).made body.withMetadata) :=
    ⟨_, Marked.made (run family xs) (hasMetadata_withMetadata fits)⟩
  have created_cases := create_cases (run family xs) key body.withMetadata
  rw [create_withMetadata] at created_cases
  rcases created_cases with ⟨e, t, failed, -⟩ | ⟨t, done, -, written⟩
  · rw [failed] at ran
    cases ran
  rw [done] at ran
  obtain rfl := Except.ok.inj ran
  refine ⟨uid, ?_, ?_⟩
  · rw [stringAt?_metadata, marked.uid]
    rfl
  · have first : Tracked key uid 1 (run family (xs ++ [.create key body])) := by
      refine ⟨_, ?_, marked⟩
      rw [run_snoc]
      show ((run family xs).create key body).2.object? key = _
      rw [done]
      exact (written key).trans (if_pos rfl)
    have room : 1 + ys.countP Action.isOperation < twoTo 63 := by
      have le := moment.sublist.countP_le (p := Action.isOperation)
      rw [List.countP_append, List.countP_cons] at le
      have operation : (Action.create key body).isOperation = true := rfl
      rw [if_pos operation] at le
      omega
    have last := first.foldl (fun a mem => proper a (moment.subset (by simp [mem]))) kept room
    rw [← run_append, List.append_assoc] at last
    exact last

/-- A store keeps its books from the first action on. -/
theorem run_orderly (proper : ∀ a ∈ history, a.isProper = true)
    (few : history.countP Action.isOperation < twoTo 63) : Orderly family history where
  distinct xs moment := (sound_run proper moment).1.distinct
  identical xs ys moment moment' k x y there there' same := by
    rcases List.prefix_or_prefix_of_prefix moment moment' with earlier | earlier
    · exact (run_identical proper earlier moment' there there' same).symm
    · exact run_identical proper earlier moment there' there same.symm
  rising xs a moment k differ := run_rising proper moment differ
  moot xs key change _ live there moot := patch_of_moot there moot
  refused xs _ key live stated version there states ne :=
    ⟨patch_of_stale there states ne, updateStatus_of_stale there states ne⟩
  tracked xs key body ys moment created ran kept := by
    obtain ⟨uid, stated, object, there, marked⟩ := run_tracked proper few moment ran kept
    refine ⟨uid, object, stated, there, ?_, ?_⟩
    · rw [stringAt?_metadata, marked.uid]
      rfl
    · rw [path?_metadata, marked.generation]

end Histories

section Instance

/-- Settings of a team, with some data. -/
def levelOf (level : String) : Json :=
  .object [("apiVersion", .str "v1"), ("kind", .str "ConfigMap"),
    ("metadata", .object [("name", .str "settings"), ("namespace", .str "team")]),
    ("data", .object [("level", .str level)])]

def levelKey : ObjectKey := .of ⟨"", "v1", "ConfigMap"⟩ (some "team") "settings"

/-- The settings are made, revised, relabelled by a patch that sets a generation, and given a
status; then a patch states a version that is no longer theirs. -/
def upkeep : List Action :=
  [.create levelKey (levelOf "info"),
    .patch levelKey (.object [("data", .object [("level", .str "debug")])]),
    .patch levelKey (.object [("metadata", .object [("generation", .int 9),
      ("labels", .object [("tier", .str "core")])])]),
    .failNext .get (.notFound "settings"),
    .setStatus levelKey (.object [("phase", .str "Active")]),
    .patch levelKey (.object [("metadata", .object [("resourceVersion", .str "1")]),
      ("data", .object [("level", .str "info")])])]

theorem upkeep_orderly : (∀ a ∈ upkeep, a.isProper = true) ∧
    upkeep.countP Action.isOperation < twoTo 63 ∧ Orderly defaultFamily upkeep := by
  have proper : ∀ a ∈ upkeep, a.isProper = true := by decide +kernel
  have few : upkeep.countP Action.isOperation < twoTo 63 := by decide +kernel
  exact ⟨proper, few, run_orderly proper few⟩

example : ((run defaultFamily upkeep).object? levelKey).bind
    (·.intAt? 64 ["metadata", "generation"]) = some 2 := by decide +kernel

end Instance

end MemoryStore

end DesiredState
