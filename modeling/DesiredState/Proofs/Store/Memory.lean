import DesiredState.Proofs.Json.MergePatch
import DesiredState.Proofs.Object.Metadata
import DesiredState.Store.Memory

/-!
# What the store in memory does

Each operation in terms of what is stored before and after it. A call that fails changes no
object; one that succeeds writes at most its own key, and what it writes there is `made` or
`changed`, which are looked into member by member.
-/

namespace DesiredState.MemoryStore

open Json

variable {s : MemoryStore} {key : ObjectKey}

/-! ## Look-ups -/

theorem object?_put (s : MemoryStore) (key : ObjectKey) (object : Json) (k : ObjectKey) :
    (s.put key object).object? k = if k = key then some object else s.object? k :=
  SortedMap.get?_insert s.objects key object k

theorem contains_count (s : MemoryStore) (op : Operation) (key : ObjectKey) :
    (s.count op).objects.contains key = (s.object? key).isSome := rfl

/-- The stores hold the same objects. -/
def SameObjects (s t : MemoryStore) : Prop := ∀ k, s.object? k = t.object? k

/-- The stores hold the same objects, except that `t` holds this one under its key. -/
def Written (s t : MemoryStore) (key : ObjectKey) (object : Json) : Prop :=
  ∀ k, t.object? k = if k = key then some object else s.object? k

theorem SameObjects.symm {s t : MemoryStore} (h : SameObjects s t) : SameObjects t s :=
  fun k => (h k).symm

theorem SameObjects.trans {s t u : MemoryStore} (h : SameObjects s t) (h' : SameObjects t u) :
    SameObjects s u := fun k => (h k).trans (h' k)

theorem Written.after {s t u : MemoryStore} {object : Json} (h : SameObjects s t)
    (w : Written t u key object) : Written s u key object := fun k => by
  rw [w k, h k]

theorem Written.before {s t u : MemoryStore} {object : Json} (w : Written s t key object)
    (h : SameObjects t u) : Written s u key object := fun k => by
  rw [← h k, w k]

/-! ## Calls with and without a failure -/

section Attempts

variable {α : Type} {op : Operation} {act : MemoryStore → Result α × MemoryStore}

theorem attempt_of_quiet (h : s.queued op = []) : s.attempt op act = act (s.count op) := by
  rw [attempt, h]

theorem attempt_of_queued {e : Error} {rest : List Error} (h : s.queued op = e :: rest) :
    s.attempt op act = (.error e, (s.count op).unqueue op) := by
  rw [attempt, h]

/-- A call fails by a failure in the queue, without an effect on objects, or acts. -/
theorem attempt_cases (s : MemoryStore) (op : Operation)
    (act : MemoryStore → Result α × MemoryStore) :
    (∃ e, s.attempt op act = (.error e, (s.count op).unqueue op)) ∨
      s.attempt op act = act (s.count op) := by
  cases h : s.queued op with
  | nil => exact .inr (attempt_of_quiet h)
  | cons e rest => exact .inl ⟨e, attempt_of_queued h⟩

end Attempts

/-! ## Objects as they are written -/

theorem metadata_stamped (s : MemoryStore) {j : Json} (h : j.hasMetadata = true) :
    (s.stamped j).hasMetadata = true ∧ (s.stamped j).metadataFields =
      SortedMap.insert j.metadataFields "resourceVersion" (.str (toString s.version)) :=
  metadata_updateMember _ h

theorem member?_stamped (s : MemoryStore) {j : Json} (h : j.isObject = true) {k : String}
    (ne : k ≠ "metadata") : (s.stamped j).member? k = j.member? k :=
  member?_updateMetadata _ h ne

/-! ## Versions -/

theorem versionOf_eq (j : Json) :
    versionOf j = (j.metadataFields.get? "resourceVersion").bind asString? :=
  stringAt?_metadata j "resourceVersion"

/-- An object that states the live version is not stale. -/
theorem fresh_of_version {stated live : Json} (h : versionOf stated = versionOf live) :
    staleVersion? stated live = none := by
  unfold staleVersion?
  rw [h]
  cases versionOf live with
  | none => rfl
  | some version => simp

/-- An object that is not stale states the live version, if it states one. -/
theorem version_of_fresh {stated live : Json} {version : String}
    (h : versionOf stated = some version) (fresh : staleVersion? stated live = none) :
    versionOf live = some version := by
  unfold staleVersion? at fresh
  rw [h] at fresh
  rw [Option.filter_some] at fresh
  split at fresh
  · cases fresh
  · rename_i same
    exact Decidable.not_not.1 fun ne => same (decide_eq_true ne)

/-! ## Objects as they are made -/

/-- The object that the store makes of a body. -/
def made (s : MemoryStore) (body : Json) : Json :=
  s.nextVersion.stamped ((body.eraseMember "status").updateMember "metadata" fun m =>
    (m.insert "uid" s.freshUid).insert "generation" (.int 1))

/-- The object that the store makes of a live one by a patch. -/
def changed (s : MemoryStore) (live patch : Json) : Json :=
  s.nextVersion.stamped (merged live patch)

section Made

variable {body : Json} (s : MemoryStore) (h : body.hasMetadata = true)

include h in
theorem metadata_made :
    (s.made body).hasMetadata = true ∧ (s.made body).metadataFields =
      SortedMap.insert (SortedMap.insert (SortedMap.insert body.metadataFields "uid" s.freshUid)
        "generation" (.int 1)) "resourceVersion" (.str (toString (s.version + 1))) := by
  obtain ⟨there, fields⟩ := metadata_eraseMember (by decide : "status" ≠ "metadata") h
  obtain ⟨there', fields'⟩ := metadata_updateMember (fun m =>
    SortedMap.insert (SortedMap.insert m "uid" s.freshUid) "generation" (.int 1)) there
  obtain ⟨there'', fields''⟩ := metadata_stamped s.nextVersion there'
  refine ⟨there'', fields''.trans ?_⟩
  rw [fields', fields]
  rfl

include h in
theorem member?_made {k : String} (ne : k ≠ "metadata") :
    (s.made body).member? k = if k = "status" then none else body.member? k := by
  have bare : (body.eraseMember "status").isObject = true := by
    rw [eraseMember, isObject_mapObject]
    exact isObject_of_hasMetadata h
  rw [made, member?_stamped _ (by rw [updateMember, isObject_mapObject]; exact bare) ne,
    member?_updateMetadata _ bare ne, member?_eraseMember]

end Made

/-! ## Patches -/

section Patches

variable {live patch : Json}

theorem metadata_effective (h : patch.hasMetadata = true) :
    (effective patch).hasMetadata = true ∧
      (effective patch).metadataFields = fixedNames.foldl Entries.erase patch.metadataFields := by
  obtain ⟨there, fields⟩ := metadata_eraseMember (by decide : "status" ≠ "metadata") h
  obtain ⟨there', fields'⟩ := metadata_updateMember (fixedNames.foldl Entries.erase) there
  exact ⟨there', fields'.trans (by rw [fields])⟩

theorem member?_effective (h : patch.hasMetadata = true) {k : String} (ne : k ≠ "metadata") :
    (effective patch).member? k = if k = "status" then none else patch.member? k := by
  have bare : (patch.eraseMember "status").isObject = true := by
    rw [eraseMember, isObject_mapObject]
    exact isObject_of_hasMetadata h
  rw [effective, member?_updateMetadata _ bare ne, member?_eraseMember]

/-- Outside metadata and status, a patch changes what it names. -/
theorem member?_patched_effective (live : Json) (h : patch.hasMetadata = true) {k : String}
    (ne : k ≠ "metadata") :
    (live.patched (effective patch)).member? k =
      if k = "status" then live.member? k
      else patchedMember (live.member? k) (patch.member? k) := by
  rw [member?_patched _ (isObject_of_hasMetadata (metadata_effective h).1),
    member?_effective h ne]
  split <;> rfl

/-- Inside metadata, a patch changes what it names, apart from the names that are fixed. -/
theorem metadata_patched_effective (live : Json) (h : patch.hasMetadata = true) :
    (live.patched (effective patch)).hasMetadata = true ∧
      ∀ k, (live.patched (effective patch)).metadataFields.get? k =
        if k ∈ fixedNames then live.metadataFields.get? k
        else patchedMember (live.metadataFields.get? k) (patch.metadataFields.get? k) := by
  obtain ⟨there, fields⟩ := metadata_effective h
  have inner : (live.patched (effective patch)).member? "metadata" =
      some (obj (patchedFields live.metadataFields (effective patch).metadataFields)) := by
    rw [member?_patched _ (isObject_of_hasMetadata there), member?_metadata there]
    show some (patched _ (obj _)) = _
    rw [patched_obj, metadataFields_eq live]
  obtain ⟨has, eq⟩ := hasMetadata_of_member inner
  refine ⟨has, fun k => ?_⟩
  rw [eq, get?_patchedFields, fields, Entries.get?_foldl_erase]
  split <;> rfl

theorem merged_of_same {live patch : Json}
    (same : (counted (live.patched (effective patch))).same (counted live) = true) :
    merged live patch = live.patched (effective patch) := by
  unfold merged merge
  dsimp only
  rw [if_pos same]
  rfl

theorem merged_of_differ {live patch : Json}
    (differ : (counted (live.patched (effective patch))).same (counted live) = false) :
    merged live patch = (live.patched (effective patch)).updateMember "metadata" fun m =>
      m.insert "generation" (nextGeneration (live.patched (effective patch)).metadataFields) := by
  unfold merged merge
  dsimp only
  rw [differ]
  rfl

/-- Counting a generation touches nothing else. -/
theorem merged_eq_or (live patch : Json) :
    merged live patch = live.patched (effective patch) ∨
      ∃ next, merged live patch =
        (live.patched (effective patch)).updateMember "metadata" fun m =>
          m.insert "generation" next := by
  cases same : (counted (live.patched (effective patch))).same (counted live) with
  | true => exact .inl (merged_of_same same)
  | false => exact .inr ⟨_, merged_of_differ same⟩

theorem member?_merged (live : Json) (h : patch.hasMetadata = true) {k : String}
    (ne : k ≠ "metadata") :
    (merged live patch).member? k =
      if k = "status" then live.member? k
      else patchedMember (live.member? k) (patch.member? k) := by
  rw [← member?_patched_effective live h ne]
  rcases merged_eq_or live patch with eq | ⟨next, eq⟩
  · rw [eq]
  · rw [eq]
    exact member?_updateMetadata _
      (isObject_patched _ (isObject_of_hasMetadata (metadata_effective h).1)) ne

theorem metadata_merged (live : Json) (h : patch.hasMetadata = true) :
    (merged live patch).hasMetadata = true ∧
      ∀ k, k ≠ "generation" → (merged live patch).metadataFields.get? k =
        if k ∈ fixedNames then live.metadataFields.get? k
        else patchedMember (live.metadataFields.get? k) (patch.metadataFields.get? k) := by
  obtain ⟨there, look⟩ := metadata_patched_effective live h
  rcases merged_eq_or live patch with eq | ⟨next, eq⟩
  · rw [eq]
    exact ⟨there, fun k _ => look k⟩
  · rw [eq]
    obtain ⟨there', fields⟩ := metadata_updateMember
      (fun m => SortedMap.insert m "generation" next) there
    refine ⟨there', fun k ne => ?_⟩
    rw [fields, SortedMap.get?_insert, if_neg ne]
    exact look k

end Patches

/-! ## Operations -/

/-- The object that the store makes of a live one by the status of another. -/
def restated (s : MemoryStore) (live object : Json) : Json :=
  s.nextVersion.stamped (live.setMember "status" (.ofOption (object.member? "status")))

/-! ### Statuses, whatever else is in the documents -/

theorem status_stamped (s : MemoryStore) (j : Json) :
    (s.stamped j).member? "status" = j.member? "status" :=
  member?_updateMember_of_ne j _ (by decide)

/-- No object is made with a status. -/
theorem status_made (s : MemoryStore) (body : Json) : (s.made body).member? "status" = none := by
  rw [made, status_stamped, member?_updateMember_of_ne _ _ (by decide), member?_eraseMember,
    if_pos rfl]

/-- A patch leaves the status as it is, or the object is none any more. -/
theorem status_changed (s : MemoryStore) (live patch : Json) :
    (s.changed live patch).member? "status" = live.member? "status" ∨
      (s.changed live patch).member? "status" = none := by
  have bare : (effective patch).member? "status" = none := by
    rw [effective, member?_updateMember_of_ne _ _ (by decide), member?_eraseMember, if_pos rfl]
  have same : (s.changed live patch).member? "status" =
      (live.patched (effective patch)).member? "status" := by
    rw [changed, status_stamped]
    rcases merged_eq_or live patch with eq | ⟨next, eq⟩ <;> rw [eq]
    exact member?_updateMember_of_ne _ _ (by decide)
  rw [same]
  by_cases object : (effective patch).isObject = true
  · rw [member?_patched live object, bare]
    exact .inl rfl
  · rw [patched_leaf (asObject?_eq_none_iff.2 (Bool.eq_false_iff.2 object))]
    exact .inr bare

/-- After a status write, the status is the one that was written, unless the object is none that
could have a status. -/
theorem status_restated (s : MemoryStore) (current : Json) (object : Object) (status : Json) :
    ((s.restated current ((obj object).setMember "status" status)).member? "status" = none ∧
        current.member? "status" = none) ∨
      (s.restated current ((obj object).setMember "status" status)).member? "status" =
        some status := by
  rw [restated, status_stamped, member?_setMember, if_pos rfl]
  cases current with
  | obj fields => exact .inr ((member?_setMember _ _ _ _).trans (if_pos rfl))
  | _ => exact .inl ⟨rfl, rfl⟩

theorem get_cases (s : MemoryStore) (key : ObjectKey) :
    (∃ e t, s.get key = (.error e, t) ∧ SameObjects s t) ∨
      ∃ t, s.get key = (.ok (s.object? key), t) ∧ SameObjects s t := by
  rcases attempt_cases s .get fun s => (.ok (s.object? key), s) with ⟨e, h⟩ | h
  · exact .inl ⟨e, _, h, fun _ => rfl⟩
  · exact .inr ⟨_, h, fun _ => rfl⟩

theorem object?_of_get {live : Option Json} (h : (s.get key).1 = .ok live) :
    s.object? key = live := by
  rcases get_cases s key with ⟨e, t, got, -⟩ | ⟨t, got, -⟩
  · rw [got] at h
    cases h
  · rw [got] at h
    exact Except.ok.inj h

/-- A create fails, or there was no object and now there is the one that is made. -/
theorem create_cases (s : MemoryStore) (key : ObjectKey) (body : Json) :
    (∃ e t, s.create key body = (.error e, t) ∧ SameObjects s t) ∨
      ∃ t, s.create key body = (.ok (s.made body), t) ∧ s.object? key = none ∧
        Written s t key (s.made body) := by
  unfold create
  rcases attempt_cases s .create _ with ⟨e, h⟩ | h
  · exact .inl ⟨e, _, h, fun _ => rfl⟩
  · rw [h]
    cases there : s.object? key with
    | some o =>
      rw [if_pos (by rw [contains_count, there]; rfl)]
      exact .inl ⟨_, _, rfl, fun _ => rfl⟩
    | none =>
      rw [if_neg (by rw [contains_count, there]; exact Bool.false_ne_true)]
      exact .inr ⟨_, rfl, rfl, object?_put _ key _⟩

/-- A create that succeeds finds no object and leaves one. -/
theorem present_of_create {body object : Json} (h : (s.create key body).1 = .ok object) :
    s.object? key = none ∧ (s.create key body).2.object? key ≠ none := by
  rcases create_cases s key body with ⟨e, t, ran, -⟩ | ⟨t, ran, absent, written⟩
  · rw [ran] at h
    cases h
  · rw [ran, written, if_pos rfl]
    exact ⟨absent, nofun⟩

/-- A create that meets an object fails, for that reason unless a failure is queued. -/
theorem create_of_present (there : s.object? key ≠ none) (body : Json) :
    (s.create key body).1 = .error ((s.queued .create).head?.getD (.alreadyExists key.text)) ∧
      SameObjects s (s.create key body).2 := by
  unfold create attempt
  cases s.queued .create with
  | cons e rest => exact ⟨rfl, fun _ => rfl⟩
  | nil =>
    dsimp only
    rw [if_pos (by rw [contains_count]; exact Option.isSome_iff_ne_none.2 there)]
    exact ⟨rfl, fun _ => rfl⟩

/-- A patch fails, or finds the object as it leaves it, or changes it. -/
theorem patch_cases (s : MemoryStore) (key : ObjectKey) (patch : Json) :
    (∃ e t, s.patch key patch = (.error e, t) ∧ SameObjects s t) ∨
      ∃ live, s.object? key = some live ∧ staleVersion? patch live = none ∧
        ((∃ t, s.patch key patch = (.ok live, t) ∧
            (live.patched (effective patch)).same live = true ∧ SameObjects s t) ∨
          ∃ t, s.patch key patch = (.ok (s.changed live patch), t) ∧
            (live.patched (effective patch)).same live = false ∧
            Written s t key (s.changed live patch)) := by
  rcases attempt_cases s .patch _ with ⟨e, h⟩ | h
  · exact .inl ⟨e, _, h, fun _ => rfl⟩
  · rw [MemoryStore.patch, h]
    show _ ∨ ∃ live, s.object? key = some live ∧ _
    have eq : (s.count .patch).object? key = s.object? key := rfl
    rw [eq]
    cases s.object? key with
    | none => exact .inl ⟨_, _, rfl, fun _ => rfl⟩
    | some live =>
      dsimp only
      cases stale : staleVersion? patch live with
      | some version => exact .inl ⟨_, _, rfl, fun _ => rfl⟩
      | none =>
        refine .inr ⟨live, rfl, stale, ?_⟩
        dsimp only
        by_cases same : (live.patched (effective patch)).same live = true
        · rw [if_pos same]
          exact .inl ⟨_, rfl, same, fun _ => rfl⟩
        · rw [if_neg same]
          exact .inr ⟨_, rfl, Bool.eq_false_iff.2 same, object?_put _ key _⟩

/-- A status write fails, or gives the live object the status. -/
theorem updateStatus_cases (s : MemoryStore) (key : ObjectKey) (object : Json) :
    (∃ e t, s.updateStatus key object = (.error e, t) ∧ SameObjects s t) ∨
      ∃ live t, s.object? key = some live ∧ staleVersion? object live = none ∧
        s.updateStatus key object = (.ok (s.restated live object), t) ∧
        Written s t key (s.restated live object) := by
  rcases attempt_cases s .updateStatus _ with ⟨e, h⟩ | h
  · exact .inl ⟨e, _, h, fun _ => rfl⟩
  · rw [updateStatus, h]
    have eq : (s.count .updateStatus).object? key = s.object? key := rfl
    rw [eq]
    cases s.object? key with
    | none => exact .inl ⟨_, _, rfl, fun _ => rfl⟩
    | some live =>
      dsimp only
      cases stale : staleVersion? object live with
      | some version => exact .inl ⟨_, _, rfl, fun _ => rfl⟩
      | none => exact .inr ⟨live, _, rfl, stale, rfl, object?_put _ key _⟩

/-! ## Stores without queued failures -/

/-- No call to come is going to fail by a queued failure. -/
def Quiet (s : MemoryStore) : Prop := ∀ op, s.queued op = []

theorem quiet_count (h : Quiet s) (op : Operation) : Quiet (s.count op) := h

theorem quiet_attempt {α : Type} {op : Operation} {act : MemoryStore → Result α × MemoryStore}
    (h : Quiet s) (acts : ∀ u, Quiet u → Quiet (act u).2) : Quiet (s.attempt op act).2 := by
  rw [attempt_of_quiet (h op)]
  exact acts _ h

theorem get_of_quiet (h : Quiet s) (key : ObjectKey) :
    s.get key = (.ok (s.object? key), s.count .get) := attempt_of_quiet (h .get)

/-- A get that fails meets a queued failure. -/
theorem get_error {e : Error} {t : MemoryStore} (h : s.get key = (.error e, t)) :
    ¬ Quiet s ∧ SameObjects s t := by
  rcases get_cases s key with ⟨_, u, got, same⟩ | ⟨u, got, -⟩
  · rw [h] at got
    refine ⟨fun quiet => ?_, (Prod.mk.inj got).2 ▸ same⟩
    rw [get_of_quiet quiet] at h
    cases h
  · rw [h] at got
    cases got

/-- A get that does not fail finds what is stored. -/
theorem get_ok {found : Option Json} {t : MemoryStore} (h : s.get key = (.ok found, t)) :
    s.object? key = found ∧ SameObjects s t ∧ (Quiet s → Quiet t) := by
  rcases get_cases s key with ⟨_, u, got, -⟩ | ⟨u, got, same⟩
  · rw [h] at got
    cases got
  · rw [h] at got
    obtain ⟨eq, rfl⟩ := Prod.mk.inj got
    refine ⟨(Except.ok.inj eq).symm, same, fun quiet => ?_⟩
    rw [get_of_quiet quiet] at h
    exact (Prod.mk.inj h).2 ▸ quiet_count quiet .get

theorem create_of_quiet (h : Quiet s) (absent : s.object? key = none) (body : Json) :
    (s.create key body).1 = .ok (s.made body) := by
  rw [create, attempt_of_quiet (h .create)]
  rw [if_neg (by rw [contains_count, absent]; exact Bool.false_ne_true)]
  rfl

theorem patch_of_quiet (h : Quiet s) {live patch : Json} (there : s.object? key = some live)
    (fresh : staleVersion? patch live = none) : ∃ object, (s.patch key patch).1 = .ok object := by
  rw [MemoryStore.patch, attempt_of_quiet (h .patch)]
  rw [show (s.count .patch).object? key = some live from there]
  dsimp only
  rw [fresh]
  dsimp only
  split <;> exact ⟨_, rfl⟩

theorem updateStatus_of_quiet (h : Quiet s) {live object : Json}
    (there : s.object? key = some live) (fresh : staleVersion? object live = none) :
    (s.updateStatus key object).1 = .ok (s.restated live object) := by
  rw [updateStatus, attempt_of_quiet (h .updateStatus)]
  rw [show (s.count .updateStatus).object? key = some live from there]
  dsimp only
  rw [fresh]
  rfl

theorem quiet_create (h : Quiet s) (key : ObjectKey) (body : Json) :
    Quiet (s.create key body).2 := by
  refine quiet_attempt h fun u hu => ?_
  dsimp only
  split <;> exact hu

theorem quiet_patch (h : Quiet s) (key : ObjectKey) (patch : Json) :
    Quiet (s.patch key patch).2 := by
  refine quiet_attempt h fun u hu => ?_
  dsimp only
  split
  · exact hu
  · split
    · exact hu
    · split <;> exact hu

theorem quiet_updateStatus (h : Quiet s) (key : ObjectKey) (object : Json) :
    Quiet (s.updateStatus key object).2 := by
  refine quiet_attempt h fun u hu => ?_
  dsimp only
  split
  · exact hu
  · split <;> exact hu

/-! ## Statuses that are set from outside -/

theorem written_setStatus {live : Json} (there : s.object? key = some live) (status : Json) :
    Written s (s.setStatus key status).2 key
      (s.nextVersion.stamped (live.setMember "status" status)) := by
  unfold setStatus amend
  dsimp only
  rw [show s.nextVersion.object? key = some live from there]
  exact object?_put s.nextVersion key _

theorem quiet_setStatus (h : Quiet s) (key : ObjectKey) (status : Json) :
    Quiet (s.setStatus key status).2 := by
  unfold setStatus amend
  dsimp only
  split <;> exact h

end DesiredState.MemoryStore
