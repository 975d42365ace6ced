import DesiredState.Proofs.Applying.Repetition
import DesiredState.Proofs.Interleaving.Pool

/-!
# No update is lost

Whatever the schedule is, an update and a status write meet the very object that they were made
from, and no object is created twice (`run_loses_no_update`). A write states the version of the
copy that it was made from, and the store advances: if that version is still the live one, the
object is still the same.
-/

namespace DesiredState

open Json MemoryStore Dialogue

variable {ι : Type}

/-! ## The calls of a job -/

/-- How far an application has come, by its calls. -/
inductive Applying (a : Applier) (wanted : Manifest) (owner : OwnerIdentity) (who : Option ι) :
    List (Entry ι) → Dialogue Report → Prop where
  | ready : Applying a wanted owner who []
      (.ask (.get wanted.key) fun look => .applied <$> afterLook a wanted owner look)
  | looked (look : MemoryStore) : Applying a wanted owner who [⟨who, .get wanted.key, look⟩]
      (.applied <$> afterLook a wanted owner (look.get wanted.key).1)
  | created (look write : MemoryStore) : Applying a wanted owner who
      [⟨who, .get wanted.key, look⟩,
        ⟨who, .create wanted.key (owner.attachTo wanted.body) a.manager, write⟩]
      (.done (.applied (.ofCreate (write.create wanted.key (owner.attachTo wanted.body)).1)))
  | patched (look write : MemoryStore) {live document : Json} {difference : Difference}
      (read : (look.get wanted.key).1 = .ok (some live))
      (made : document = Plan.document (Plan.fitted (owner.attachTo wanted.body) live) live) :
      Applying a wanted owner who
        [⟨who, .get wanted.key, look⟩, ⟨who, .patch wanted.key document a.manager, write⟩]
        (.done (.applied (.ofPatch difference (write.patch wanted.key document).1)))

namespace Applying

variable {a : Applier} {wanted : Manifest} {owner : OwnerIdentity} {who : Option ι}
  {calls : List (Entry ι)} {d : Dialogue Report}

/-- The calls of an application after its look. -/
theorem ofLook {look : MemoryStore} {rest : List (Entry ι)} {answer : Result (Option Json)}
    (read : (look.get wanted.key).1 = answer)
    (h : Trace who (.applied <$> afterLook a wanted owner answer) rest d) :
    Applying a wanted owner who (⟨who, .get wanted.key, look⟩ :: rest) d := by
  have looked : Applying a wanted owner who [⟨who, .get wanted.key, look⟩] _ := .looked look
  rw [read] at looked
  have ended : ∀ {report}, Report.applied <$> afterLook a wanted owner answer = .done report →
      Applying a wanted owner who (⟨who, .get wanted.key, look⟩ :: rest) d := fun eq => by
    rw [eq] at h
    obtain ⟨rfl, rfl⟩ := h.of_done
    rwa [eq] at looked
  rcases answer with e | _ | live
  · exact ended rfl
  · rcases Trace.of_ask h with ⟨rfl, rfl⟩ | ⟨write, rest, rfl, later⟩
    · exact looked
    · obtain ⟨rfl, rfl⟩ := Trace.of_done later
      exact .created look write
  · cases immutable : a.immutable.contains (wanted.ownedBy owner).kind with
    | true => exact ended (by rw [afterLook, Plan.of_immutable immutable]; rfl)
    | false =>
      cases agrees : (Plan.drift (wanted.ownedBy owner).kind
        (Plan.fitted (wanted.ownedBy owner).body live) live).isEmpty with
      | true => exact ended (by rw [afterLook, Plan.of_agreeing immutable agrees]; rfl)
      | false =>
        rw [afterLook, Plan.of_drifted immutable agrees] at h looked
        rcases Trace.of_ask h with ⟨rfl, rfl⟩ | ⟨write, rest, rfl, later⟩
        · exact looked
        · obtain ⟨rfl, rfl⟩ := Trace.of_done later
          exact .patched look write read rfl

/-- The calls of an application are one of these. -/
theorem ofTrace {accepted : Manifest.ofBody wanted.body = .ok wanted}
    (h : Trace who (Job.apply a wanted owner accepted).program calls d) :
    Applying a wanted owner who calls d := by
  rw [Job.program_apply] at h
  rcases h.of_ask with ⟨rfl, rfl⟩ | ⟨look, rest, rfl, later⟩
  · exact .ready
  · exact ofLook rfl later

/-- An application that ends with its look read nothing or wrote nothing. -/
theorem report_of_look {answer : Result (Option Json)} {attempt : Attempt}
    (h : Report.applied <$> afterLook a wanted owner answer = .done (.applied attempt)) :
    (∃ e, attempt = .notRead e) ∨ attempt = .succeeded .skippedImmutable ∨
      attempt = .succeeded .unchanged := by
  rcases answer with e | live
  · cases h
    exact .inl ⟨e, rfl⟩
  · have h : Report.applied <$> carryOut a wanted.key
      (.of a.immutable (wanted.ownedBy owner) live) = .done (.applied attempt) := h
    cases plan : Plan.of a.immutable (wanted.ownedBy owner) live with
    | create body => rw [plan] at h; cases h
    | leave => rw [plan] at h; cases h; exact .inr (.inl rfl)
    | keep => rw [plan] at h; cases h; exact .inr (.inr rfl)
    | patch document difference => rw [plan] at h; cases h

theorem ofCreate_cases {result : Result Json} {applied : Applied}
    (h : Attempt.ofCreate result = .succeeded applied) :
    applied = .created ∧ ∃ object, result = .ok object := by
  cases result with
  | ok object => cases h; exact ⟨rfl, object, rfl⟩
  | error e => cases h

theorem ofPatch_cases {result : Result Json} {difference : Difference} {applied : Applied}
    (h : Attempt.ofPatch difference result = .succeeded applied) :
    applied = .conflicted ∨ applied = .updated difference ∧ ∃ object, result = .ok object := by
  cases result with
  | ok object => cases h; exact .inr ⟨rfl, object, rfl⟩
  | error e =>
    unfold Attempt.ofPatch at h
    dsimp only at h
    split at h
    · cases h; exact .inl rfl
    · cases h

/-- An update looked, found an object and patched it. -/
theorem updated {difference : Difference} (h : Applying a wanted owner who calls d)
    (ended : d = .done (.applied (.succeeded (.updated difference)))) :
    ∃ live document look write object,
      calls = [⟨who, .get wanted.key, look⟩, ⟨who, .patch wanted.key document a.manager, write⟩] ∧
      (look.get wanted.key).1 = .ok (some live) ∧
      document = Plan.document (Plan.fitted (owner.attachTo wanted.body) live) live ∧
      (write.patch wanted.key document).1 = .ok object := by
  cases h with
  | ready => cases ended
  | looked look =>
    rcases report_of_look ended with ⟨e, h⟩ | h | h <;> cases h
  | created look write =>
    obtain ⟨h, -⟩ := ofCreate_cases (Report.applied.inj (Dialogue.done.inj ended))
    cases h
  | @patched look write live document difference' read made =>
    rcases ofPatch_cases (Report.applied.inj (Dialogue.done.inj ended)) with h | ⟨-, object, ok⟩
    · cases h
    · exact ⟨live, document, look, write, object, rfl, read, made, ok⟩

/-- What was created was created by a call that succeeded. -/
theorem created_by (h : Applying a wanted owner who calls d)
    (ended : d = .done (.applied (.succeeded .created))) :
    ∃ write object,
      ⟨who, .create wanted.key (owner.attachTo wanted.body) a.manager, write⟩ ∈ calls ∧
      (write.create wanted.key (owner.attachTo wanted.body)).1 = .ok object := by
  cases h with
  | ready => cases ended
  | looked look =>
    rcases report_of_look ended with ⟨e, h⟩ | h | h <;> cases h
  | created look write =>
    obtain ⟨-, object, ok⟩ := ofCreate_cases (Report.applied.inj (Dialogue.done.inj ended))
    exact ⟨write, object, List.mem_cons_of_mem _ (List.mem_singleton_self _), ok⟩
  | patched look write =>
    rcases ofPatch_cases (Report.applied.inj (Dialogue.done.inj ended)) with h | ⟨h, -⟩ <;> cases h

/-- An application that made a call to create is over. -/
theorem ended_of_create {key : ObjectKey} {body : Json} {manager : String} {write : MemoryStore}
    (h : Applying a wanted owner who calls d)
    (mem : ⟨who, .create key body manager, write⟩ ∈ calls) :
    key = wanted.key ∧ d = .done (.applied (.ofCreate (write.create key body).1)) := by
  cases h with
  | ready => cases mem
  | looked look => cases List.mem_singleton.1 mem
  | created look write' =>
    rcases List.mem_cons.1 mem with eq | mem
    · cases eq
    · cases List.mem_singleton.1 mem
      exact ⟨rfl, rfl⟩
  | patched look write' =>
    rcases List.mem_cons.1 mem with eq | mem
    · cases eq
    · cases List.mem_singleton.1 mem

end Applying

/-- A status write that reports a write made one call, which succeeded. -/
theorem flushed_of_trace {ω : Type} {r : Reconciler Dialogue ω}
    {store : r.engine.store = Dialogue.store} {key : ObjectKey} {live : Json}
    {before after : OwnerStatus} {who : Option ι} {calls : List (Entry ι)}
    (h : Trace who (Job.flush r store key live before after).program calls
      (.done (.flushed (.ok true)))) :
    ∃ write, calls = [⟨who, .updateStatus key (live.setMember "status" after.encode)
        r.engine.applier.manager, write⟩] ∧
      ∃ object, (write.updateStatus key (live.setMember "status" after.encode)).1 = .ok object := by
  rw [Job.program_flush] at h
  split at h
  · obtain ⟨-, reported⟩ := h.of_done
    cases reported
  · rcases h.of_ask with ⟨-, reported⟩ | ⟨write, rest, rfl, later⟩
    · cases reported
    · obtain ⟨rfl, reported⟩ := Trace.of_done later
      refine ⟨write, rfl, ?_⟩
      cases answer : (write.updateStatus key (live.setMember "status" after.encode)).1 with
      | ok object => exact ⟨object, rfl⟩
      | error error =>
        have reported : Dialogue.done (Report.flushed (.ok true)) =
          .done (.flushed (writeReport
            (write.updateStatus key (live.setMember "status" after.encode)).1)) := reported
        rw [answer] at reported
        unfold writeReport at reported
        dsimp only at reported
        split at reported <;> cases reported

/-! ## Reads and writes of one run -/

theorem MemoryStore.isStamped_of_valid {s : MemoryStore} (valid : Valid s) {key : ObjectKey}
    {live : Json} (there : s.object? key = some live) : live.isStamped = true := by
  obtain ⟨metadata, v, -, version⟩ := valid key live there
  rw [isStamped, Bool.and_eq_true]
  exact ⟨metadata, by rw [version]; rfl⟩

/-- Of two calls of a log, one meets a store later than the one that the other leaves. -/
theorem Pool.Ordered.later_or {s : MemoryStore} {log : List (Entry ι)} (h : Pool.Ordered s log)
    {e f : Entry ι} (he : e ∈ log) (hf : f ∈ log) (ne : e ≠ f) :
    Later e.after f.before ∨ Later f.after e.before := by
  obtain ⟨earlier, later, rfl⟩ := List.append_of_mem he
  have order := List.pairwise_append.1 h.order
  rcases List.mem_append.1 hf with mem | mem
  · exact .inr (order.2.2 f mem e List.mem_cons_self)
  · rcases List.mem_cons.1 mem with rfl | mem
    · exact absurd rfl ne
    · exact .inl ((List.pairwise_cons.1 order.2.1).1 f mem)

/-- Of two calls of a log, the second one meets a store later than the first one met. -/
theorem Pool.Ordered.later_of_mem {s : MemoryStore} {earlier rest : List (Entry ι)}
    {e f : Entry ι} (h : Pool.Ordered s (earlier ++ e :: rest)) (mem : f ∈ earlier) :
    Valid f.before ∧ Later f.before e.before := by
  have among : f ∈ earlier ++ e :: rest := List.mem_append_left _ mem
  exact ⟨h.valid f among, (h.step f among).trans
    ((List.pairwise_append.1 h.order).2.2 f mem e List.mem_cons_self)⟩

namespace Pool

variable [DecidableEq ι]

theorem mem_of_callsOf {i : ι} {log : List (Entry ι)} {e : Entry ι} (h : e ∈ callsOf i log) :
    e ∈ log := (List.mem_filter.1 h).1

theorem Ordered.callsOf {s : MemoryStore} {log : List (Entry ι)} (h : Ordered s log) (i : ι) :
    Ordered s (callsOf i log) where
  valid e mem := h.valid e (mem_of_callsOf mem)
  first e mem := h.first e (mem_of_callsOf mem)
  step e mem := h.step e (mem_of_callsOf mem)
  order := h.order.filter _

section Clauses

variable (family : String) (jobs : ι → Job) (moves : List (Move ι))

section Applications

variable {a : Applier} {wanted : Manifest} {owner : OwnerIdentity}
  {accepted : Manifest.ofBody wanted.body = .ok wanted} {i : ι}
  (job : jobs i = .apply a wanted owner accepted)

include job

theorem applying : Applying a wanted owner (some i)
    (callsOf i (run moves (start family jobs)).1)
    ((run moves (start family jobs)).2.client i) := by
  have trace := run_trace moves (start family jobs) i
  rw [show (start family jobs).client i = (jobs i).program from rfl, job] at trace
  exact .ofTrace trace

/-- The object that an update patches is the one that was read. -/
theorem updated_as_read {difference : Difference}
    (ended : (run moves (start family jobs)).2.client i =
      .done (.applied (.succeeded (.updated difference)))) :
    ∃ live document look write,
      callsOf i (run moves (start family jobs)).1 =
        [⟨some i, .get wanted.key, look⟩, ⟨some i, .patch wanted.key document a.manager, write⟩] ∧
      (look.get wanted.key).1 = .ok (some live) ∧ write.object? wanted.key = some live := by
  have ordered := ((run_sound (sound_start family jobs) moves).2).callsOf i
  obtain ⟨live, document, look, write, object, calls, read, made, ok⟩ :=
    (applying family jobs moves job).updated ended
  refine ⟨live, document, look, write, calls, read, ?_⟩
  rw [calls, ← List.singleton_append] at ordered
  obtain ⟨valid, later⟩ := ordered.later_of_mem (List.mem_singleton_self _)
  have there := object?_of_get read
  have body := Manifest.hasMetadata_of_ofBody accepted
  have fits := (Plan.metadata_fitted live (owner.metadata_attachTo body).1).1
  rcases patch_cases write wanted.key document with ⟨e, t, failed, -⟩ | ⟨current, there', fresh, -⟩
  · rw [failed] at ok
    cases ok
  · rw [there', later.eq_of_fresh valid there there'
      (made ▸ Plan.versionOf_document fits (isStamped_of_valid valid there)) fresh]

end Applications

/-- The owner that a status write changes is the copy that it was given, if that copy was stored
when an earlier call was made, as it was for a call that read it. -/
theorem flushed_as_read {ω : Type} {r : Reconciler Dialogue ω}
    {store : r.engine.store = Dialogue.store} {key : ObjectKey} {live : Json}
    {before after : OwnerStatus} {i : ι} (job : jobs i = .flush r store key live before after)
    (ended : (run moves (start family jobs)).2.client i = .done (.flushed (.ok true))) :
    ∃ earlier write later,
      (run moves (start family jobs)).1 =
        earlier ++ ⟨some i, .updateStatus key (live.setMember "status" after.encode)
          r.engine.applier.manager, write⟩ :: later ∧
      ∀ e ∈ earlier, e.before.object? key = some live → write.object? key = some live := by
  have ordered := (run_sound (sound_start family jobs) moves).2
  have trace := run_trace moves (start family jobs) i
  rw [show (start family jobs).client i = (jobs i).program from rfl, job, ended] at trace
  obtain ⟨write, calls, object, ok⟩ := flushed_of_trace trace
  obtain ⟨earlier, later, log⟩ := List.append_of_mem
    (mem_of_callsOf (by rw [calls]; exact List.mem_singleton_self _))
  refine ⟨earlier, write, later, log, fun e mem there => ?_⟩
  rw [log] at ordered
  obtain ⟨valid, later⟩ := ordered.later_of_mem mem
  rcases updateStatus_cases write key (live.setMember "status" after.encode) with
    ⟨e, t, failed, -⟩ | ⟨current, t, there', fresh, -⟩
  · rw [failed] at ok
    cases ok
  · have copied : versionOf (live.setMember "status" after.encode) = versionOf live := by
      rw [versionOf_eq, versionOf_eq,
        (metadata_setMember after.encode (by decide) (valid key live there).1).2]
    rw [there', later.eq_of_fresh valid there there' copied fresh]

section Creations

variable {a a' : Applier} {wanted wanted' : Manifest} {owner owner' : OwnerIdentity}
  {accepted : Manifest.ofBody wanted.body = .ok wanted}
  {accepted' : Manifest.ofBody wanted'.body = .ok wanted'} {i j : ι}

/-- Of the applications to one key, one creates its object at most. -/
theorem created_once (job : jobs i = .apply a wanted owner accepted)
    (job' : jobs j = .apply a' wanted' owner' accepted') (same : wanted.key = wanted'.key)
    (ended : (run moves (start family jobs)).2.client i = .done (.applied (.succeeded .created)))
    (ended' : (run moves (start family jobs)).2.client j =
      .done (.applied (.succeeded .created))) : i = j := by
  have ordered := (run_sound (sound_start family jobs) moves).2
  obtain ⟨write, object, mem, ok⟩ := (applying family jobs moves job).created_by ended
  obtain ⟨write', object', mem', ok'⟩ := (applying family jobs moves job').created_by ended'
  obtain ⟨absent, present⟩ := present_of_create ok
  obtain ⟨absent', present'⟩ := present_of_create ok'
  by_contra ne
  -- The call that comes second meets the object that the first one made.
  rcases ordered.later_or (mem_of_callsOf mem) (mem_of_callsOf mem')
    (fun eq => ne (Option.some.inj (congrArg Entry.who eq))) with later | later
  · exact later.present (same ▸ present) absent'
  · exact later.present (same.symm ▸ present') absent

/-- A call to create that meets an object fails, for that reason unless a failure was queued, and
changes no object. -/
theorem create_lost (job : jobs i = .apply a wanted owner accepted) {body : Json}
    {manager : String} {write : MemoryStore}
    (mem : ⟨some i, .create wanted.key body manager, write⟩ ∈ (run moves (start family jobs)).1)
    (there : write.object? wanted.key ≠ none) :
    SameObjects write (write.create wanted.key body).2 ∧
      (run moves (start family jobs)).2.client i = .done (.applied (.notCreated
        ((write.queued .create).head?.getD (.alreadyExists wanted.key.text)))) := by
  obtain ⟨-, ended⟩ := (applying family jobs moves job).ended_of_create
    (List.mem_filter.2 ⟨mem, by simp⟩)
  obtain ⟨failed, same⟩ := create_of_present there body
  rw [ended, failed]
  exact ⟨same, rfl⟩

end Creations

end Clauses

/-- Whatever the schedule, no update is lost.

1. Where an application reports an update, its patch met the very object that it had read.
2. Where a status write reports a write, it met the very owner that it was made from, if that copy
   was stored when some earlier call was made.
3. Of the applications to one key, one reports a creation at most.
4. An application whose call to create met an object fails, for that reason unless a failure was
   queued, and changed no object. -/
theorem run_loses_no_update (family : String) (jobs : ι → Job) (moves : List (Move ι)) :
    let log := (run moves (start family jobs)).1
    let client := (run moves (start family jobs)).2.client
    (∀ i a wanted owner accepted difference, jobs i = .apply a wanted owner accepted →
      client i = .done (.applied (.succeeded (.updated difference))) →
      ∃ live document look write,
        callsOf i log = [⟨some i, .get wanted.key, look⟩,
          ⟨some i, .patch wanted.key document a.manager, write⟩] ∧
        (look.get wanted.key).1 = .ok (some live) ∧ write.object? wanted.key = some live) ∧
    (∀ i {ω : Type} (r : Reconciler Dialogue ω) store key live before after,
      jobs i = .flush r store key live before after → client i = .done (.flushed (.ok true)) →
      ∃ earlier write later,
        log = earlier ++ ⟨some i, .updateStatus key (live.setMember "status" after.encode)
          r.engine.applier.manager, write⟩ :: later ∧
        ∀ e ∈ earlier, e.before.object? key = some live → write.object? key = some live) ∧
    (∀ i j a a' wanted wanted' owner owner' accepted accepted',
      jobs i = .apply a wanted owner accepted → jobs j = .apply a' wanted' owner' accepted' →
      wanted.key = wanted'.key → client i = .done (.applied (.succeeded .created)) →
      client j = .done (.applied (.succeeded .created)) → i = j) ∧
    (∀ i a wanted owner accepted body manager write, jobs i = .apply a wanted owner accepted →
      ⟨some i, .create wanted.key body manager, write⟩ ∈ log → write.object? wanted.key ≠ none →
      SameObjects write (write.create wanted.key body).2 ∧
        client i = .done (.applied (.notCreated
          ((write.queued .create).head?.getD (.alreadyExists wanted.key.text))))) := by
  refine ⟨?_, ?_, ?_, ?_⟩
  · intro i a wanted owner accepted difference job ended
    exact updated_as_read family jobs moves job ended
  · intro i ω r store key live before after job ended
    exact flushed_as_read family jobs moves job ended
  · intro i j a a' wanted wanted' owner owner' accepted accepted' job job' same ended ended'
    exact created_once family jobs moves job job' same ended ended'
  · intro i a wanted owner accepted body manager write job mem there
    exact create_lost family jobs moves job mem there

/-! ## An instance -/

section Instance

/-- Two clients apply the same settings. -/
def rivals : Bool → Job := fun _ => .apply .standard Applier.settings Applier.team rfl

/-- Both look at older settings before either of them writes. -/
def contended : List (Move Bool) :=
  [.insert (Applier.settingsOf [("namespace", .str "team")] [("level", .str "info")]),
    .client false, .client true, .client false, .client true]

theorem contended_update :
    (∃ live document look write,
      callsOf false (run contended (start defaultFamily rivals)).1 =
        [⟨some false, .get Applier.settings.key, look⟩,
          ⟨some false, .patch Applier.settings.key document Applier.standard.manager, write⟩] ∧
      (look.get Applier.settings.key).1 = .ok (some live) ∧
      write.object? Applier.settings.key = some live) ∧
      ((run contended (start defaultFamily rivals)).2.client true).report? =
        some (.applied (.succeeded .conflicted)) := by
  have updated : ((run contended (start defaultFamily rivals)).2.client false).report? =
      some (.applied (.succeeded (.updated ⟨1, 1, 0⟩))) := by decide +kernel
  exact ⟨(run_loses_no_update defaultFamily rivals contended).1 false .standard Applier.settings
    Applier.team rfl ⟨1, 1, 0⟩ rfl (report?_eq_some.1 updated), by decide +kernel⟩

end Instance

end Pool

end DesiredState
