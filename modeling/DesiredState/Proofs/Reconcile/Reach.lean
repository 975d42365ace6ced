import DesiredState.Proofs.Readiness.Generations
import DesiredState.Proofs.Reconcile.Soundness

/-!
# What a pass can touch

A pass touches only its own (`reconcileKey_reaches_own`). What is neither the owner nor a child
stays as it is, and the owner changes at most in its status. A child that was there keeps its uid
and its status, and its generation never falls (`Tended`), whatever the wanted manifest says of
these: one patch at most comes to it, and a patch cannot set them. An owner that bars the way to
its children leaves them all alone (`Barred`).
-/

namespace DesiredState

open Json MemoryStore

/-- The object states a generation that can be counted on from. -/
def Counts (live : Json) : Prop :=
  ∃ n ∈ live.intAt? 64 ["metadata", "generation"], n < (twoTo 63 : Int) - 1

instance (live : Json) : Decidable (Counts live) :=
  inferInstanceAs (Decidable (∃ n ∈ live.intAt? 64 ["metadata", "generation"],
    n < (twoTo 63 : Int) - 1))

theorem Counts.hasMetadata {live : Json} (h : Counts live) : live.hasMetadata = true := by
  obtain ⟨n, stated, -⟩ := h
  rw [Option.mem_def, intAt?] at stated
  cases there : live.path? ["metadata", "generation"] with
  | some v => exact hasMetadata_of_path there
  | none =>
    rw [there] at stated
    cases stated

/-! ## Children -/

/-- A child that was there, and what became of it: its uid and its status are as before, and its
generation is no earlier one. -/
structure Tended (live object : Json) : Prop where
  uid : object.path? ["metadata", "uid"] = live.path? ["metadata", "uid"]
  status : object.member? "status" = live.member? "status"
  generation : ∀ n ∈ live.intAt? 64 ["metadata", "generation"],
    ∃ m ∈ object.intAt? 64 ["metadata", "generation"], n ≤ m

theorem Tended.refl (live : Json) : Tended live live := ⟨rfl, rfl, fun n h => ⟨n, h, Int.le_refl n⟩⟩

/-- A patch cannot set a uid, a status or a generation, and counts the generation up by one at
most. -/
theorem tended_changed (s : MemoryStore) {live patch : Json} (hp : patch.hasMetadata = true)
    (counts : Counts live) : Tended live (s.changed live patch) := by
  refine ⟨?_, ?_, fun n stated => ?_⟩
  · rw [path?_metadata, path?_metadata, uid_changed s live hp]
  · rw [changed, status_stamped, member?_merged live hp (by decide), if_pos rfl]
  · cases same : (counted (s.changed live patch)).same (counted live) with
    | true =>
      refine ⟨n, ?_, Int.le_refl n⟩
      rwa [intAt?_metadata, generation_changed_of_same s hp same, ← intAt?_metadata]
    | false =>
      obtain ⟨n', stated', below⟩ := counts
      obtain rfl : n = n' := Option.some.inj (stated.symm.trans stated')
      refine ⟨n + 1, ?_, by omega⟩
      rw [Option.mem_def, intAt?_metadata] at stated
      rw [Option.mem_def, intAt?_metadata, generation_changed s hp same]
      exact toSigned?_nextGeneration stated below

namespace Applier

variable {a : Applier} {wanted : Manifest} {owner : OwnerIdentity} {s t : MemoryStore}

/-- However an application ends, an object that was there is tended. -/
theorem Effect.tended {attempt : Attempt} (h : Effect a wanted owner s t attempt)
    (body : wanted.body.hasMetadata = true) {live : Json} (there : s.object? wanted.key = some live)
    (counts : Counts live) : ∃ object, t.object? wanted.key = some object ∧ Tended live object := by
  have unchanged : SameObjects s t →
      ∃ object, t.object? wanted.key = some object ∧ Tended live object := fun same =>
    ⟨live, (same _).symm.trans there, .refl live⟩
  cases h with
  | failed _ same => exact unchanged same
  | conflicted _ _ _ same => exact unchanged same
  | left _ _ same => exact unchanged same
  | kept _ _ _ same => exact unchanged same
  | idle _ _ _ _ same => exact unchanged same
  | created _ absent =>
    rw [there] at absent
    cases absent
  | patched u live' there' _ _ written =>
    obtain rfl : live = live' := Option.some.inj (there.symm.trans there')
    have owned := (owner.metadata_attachTo body).1
    have document := (Plan.metadata_document live (Plan.metadata_fitted live owned).1).1
    exact ⟨_, (written _).trans (if_pos rfl), tended_changed u document counts⟩

end Applier

namespace Engine

variable {ω : Type} {e : Engine (StateM MemoryStore) ω} {owner : ω} {identity : OwnerIdentity}
  {wanted : Manifest} {l : List Manifest} {s t : MemoryStore} {result : Result Bool}
  {attempts : List Attempt} {live : Json}

theorem Child.tended (h : Child e owner identity wanted s t result attempts)
    (body : wanted.body.hasMetadata = true) (there : s.object? wanted.key = some live)
    (counts : Counts live) : ∃ object, t.object? wanted.key = some object ∧ Tended live object := by
  cases h with
  | failed _ idle => exact ⟨live, (idle.same _).symm.trans there, .refl live⟩
  | waiting _ idle => exact ⟨live, (idle.same _).symm.trans there, .refl live⟩
  | applied _ _ effect => exact effect.tended body there counts

/-- However a round ends, a child that was there is tended. As keys are distinct, no child has more
than one turn. -/
theorem Round.tended (h : Round e owner identity l s t result attempts)
    (distinct : (l.map Manifest.key).Nodup) (mem : wanted ∈ l)
    (body : wanted.body.hasMetadata = true) (there : s.object? wanted.key = some live)
    (counts : Counts live) : ∃ object, t.object? wanted.key = some object ∧ Tended live object := by
  induction h with
  | all => cases mem
  | @stopped first rest s t result attempts child halt =>
    rw [List.map_cons, List.nodup_cons] at distinct
    rcases List.mem_cons.1 mem with rfl | mem
    · exact child.tended body there counts
    · have ne : wanted.key ≠ first.key := fun eq => distinct.1 (eq ▸ List.mem_map_of_mem mem)
      exact ⟨live, (child.frame ne).trans there, .refl live⟩
  | @next first rest s t u result attempts later child others ih =>
    rw [List.map_cons, List.nodup_cons] at distinct
    rcases List.mem_cons.1 mem with rfl | mem
    · obtain ⟨object, there', tended⟩ := child.tended body there counts
      exact ⟨object, (others.frame distinct.1).trans there', tended⟩
    · have ne : wanted.key ≠ first.key := fun eq => distinct.1 (eq ▸ List.mem_map_of_mem mem)
      exact ih distinct.2 mem ((child.frame ne).trans there)

end Engine

namespace Phase

open Progress

variable {ω : Type} [Owner ω] {e : Engine (StateM MemoryStore) ω} {p : Progress ω}
  {s t : MemoryStore} {ending : Ending} {attempts : List Attempt}

/-- Phases come to a round over the children at most, with nothing written before and after it. -/
theorem Phases.round (h : Phases e p s t ending attempts) :
    SameObjects s t ∨ Owner.isDeleted p.owner = false ∧ ∃ u v result, SameObjects s u ∧
      e.Round p.owner p.identity p.resources.manifests u v result attempts ∧ SameObjects v t := by
  cases h with
  | deleted _ idle => exact .inl idle.same
  | stopped staying before round _ after =>
    exact .inr ⟨staying, _, _, _, before.same, round, after.same⟩
  | checked staying before round between check after =>
    exact .inr ⟨staying, _, _, _, before.same, round,
      SameObjects.trans between.same (SameObjects.trans check.idle.same after.same)⟩

/-- Phases write under the keys of the children alone. -/
theorem Phases.frame (h : Phases e p s t ending attempts) {k : ObjectKey}
    (new : k ∉ p.resources.keys) : t.object? k = s.object? k := by
  rcases h.round with same | ⟨-, u, v, _, before, round, after⟩
  · exact (same k).symm
  · rw [← after k, round.frame new, before k]

/-- However phases end, a child that was there is tended. -/
theorem Phases.tended (h : Phases e p s t ending attempts) {wanted : Manifest}
    (mem : wanted ∈ p.resources.manifests) (body : wanted.body.hasMetadata = true) {live : Json}
    (there : s.object? wanted.key = some live) (counts : Counts live) :
    ∃ object, t.object? wanted.key = some object ∧ Tended live object := by
  rcases h.round with same | ⟨-, u, v, _, before, round, after⟩
  · exact ⟨live, (same _).symm.trans there, .refl live⟩
  · obtain ⟨object, there', tended⟩ :=
      round.tended p.resources.distinct mem body ((before _).symm.trans there) counts
    exact ⟨object, (after _).symm.trans there', tended⟩

end Phase

/-! ## Owners -/

/-- An owner and what became of it: it is the same apart from its status and its version. -/
structure Relabelled (live object : Json) : Prop where
  members : ∀ k, k ≠ "metadata" → k ≠ "status" → object.member? k = live.member? k
  metadata : ∀ k, k ≠ "resourceVersion" →
    object.path? ["metadata", k] = live.path? ["metadata", k]

theorem Relabelled.refl (live : Json) : Relabelled live live := ⟨fun _ _ _ => rfl, fun _ _ => rfl⟩

theorem relabelled_restated (s : MemoryStore) {live : Json} (h : live.hasMetadata = true)
    (object : Json) : Relabelled live (s.restated live object) := by
  have plain := isObject_of_hasMetadata h
  obtain ⟨there, fields⟩ := metadata_setMember (.ofOption (object.member? "status"))
    (by decide : "status" ≠ "metadata") h
  refine ⟨fun k metadata status => ?_, fun k version => ?_⟩
  · rw [restated, member?_stamped _ (isObject_of_hasMetadata there) metadata,
      member?_setMember_of_ne plain _ status]
  · rw [path?_metadata, path?_metadata, restated, (metadata_stamped _ there).2,
      SortedMap.get?_insert, if_neg version, fields]

namespace Reconciler

open Phase

variable {ω : Type} [Owner ω] {e : Engine (StateM MemoryStore) ω} {key : ObjectKey}
  {s t : MemoryStore} {pass : Pass}

/-- A hook fails on one of the manifests, each met in the store that the one before it left. -/
def FailsOn (hooks : Hooks (StateM MemoryStore) ω) (owner : ω) :
    List Manifest → MemoryStore → Prop
  | [], _ => False
  | wanted :: rest, s =>
    (∃ error, ((hooks.mutate owner wanted).run.run s).1 = .error error) ∨
      FailsOn hooks owner rest ((hooks.mutate owner wanted).run.run s).2

/-- What keeps a pass over the owner of a key from its children. -/
inductive Barred (e : Engine (StateM MemoryStore) ω) (key : ObjectKey) (s : MemoryStore) :
    Prop where
  | undecoded {live : Json} {fault : DecodeError} (there : s.object? key = some live)
      (decoded : Owner.decode (ω := ω) live = .error fault)
  | unidentified {live : Json} {owner : ω} {error : Error} (there : s.object? key = some live)
      (decoded : Owner.decode live = .ok owner) (identity : Owner.identity owner = .error error)
  | deleted {live : Json} {owner : ω} (there : s.object? key = some live)
      (decoded : Owner.decode live = .ok owner) (leaving : Owner.isDeleted owner = true)
  | ungenerated {live : Json} {owner : ω} {error : Error} (there : s.object? key = some live)
      (decoded : Owner.decode live = .ok owner) (generated : e.hooks.generate owner = .error error)
  | unmutated {live : Json} {owner : ω} {wanted : List Manifest}
      (there : s.object? key = some live) (decoded : Owner.decode live = .ok owner)
      (generated : e.hooks.generate owner = .ok wanted)
      (fails : FailsOn e.hooks owner wanted (s.get key).2)

omit [Owner ω] in
theorem gather_of_failsOn (r : Reconciler (StateM MemoryStore) ω) {owner : ω}
    {wanted : List Manifest} (fails : FailsOn r.engine.hooks owner wanted s) (set : ResourceSet) :
    ∃ error, ((r.gather owner wanted set).run.run s).1 = .error error := by
  induction wanted generalizing set s with
  | nil => exact fails.elim
  | cons first rest ih =>
    rw [run_gather_cons]
    rcases met : (r.engine.hooks.mutate owner first).run.run s with ⟨error | mutation, u⟩
    · exact ⟨error, rfl⟩
    · rcases fails with ⟨error, failed⟩ | fails
      · rw [met] at failed
        cases failed
      · rw [met] at fails
        exact ih fails _

/-- Whatever bars a pass, either it does not start, or its owner is being deleted. -/
theorem Barred.start (barred : Barred e key s) {start : Progress ω}
    (starts : startAt e key s = some start) : Owner.isDeleted start.owner = true := by
  obtain ⟨live, first, resources, there, decoded, gathered, rfl⟩ := startAt_eq_some.1 starts
  obtain ⟨identity, decoded, identified, -⟩ := ofLive_eq_ok.1 decoded
  have same : ∀ {live' : Json}, s.object? key = some live' → live' = live := fun there' =>
    Option.some.inj (there'.symm.trans there)
  have owned : ∀ {live' : Json} {owner : ω}, s.object? key = some live' →
      Owner.decode live' = .ok owner → owner = first.owner := by
    intro live' owner there' decoded'
    rw [same there'] at decoded'
    exact Except.ok.inj (decoded'.symm.trans decoded)
  cases barred with
  | undecoded there' failed =>
    rw [same there', decoded] at failed
    cases failed
  | unidentified there' decoded' failed =>
    rw [owned there' decoded', identified] at failed
    cases failed
  | deleted there' decoded' leaving => exact owned there' decoded' ▸ leaving
  | ungenerated there' decoded' generated =>
    rw [owned there' decoded'] at generated
    unfold Reconciler.resources at gathered
    rw [show (standard e).engine.hooks = e.hooks from rfl, generated] at gathered
    cases gathered
  | unmutated there' decoded' generated fails =>
    rw [owned there' decoded'] at generated fails
    unfold Reconciler.resources at gathered
    rw [show (standard e).engine.hooks = e.hooks from rfl, generated] at gathered
    obtain ⟨error, failed⟩ := gather_of_failsOn (standard e) fails .empty
    cases failed.symm.trans gathered

/-! ## Passes -/

/-- A pass starts with the phases over some resources, or it writes nothing. -/
theorem Passes.reach (calm : e.Harmless) (h : Passes e key s t pass) :
    SameObjects s t ∨ ∃ start, startAt e key s = some start ∧
      ∃ u v ending attempts, SameObjects s u ∧ Phases e start u v ending attempts ∧
        (SameObjects v t ∨ ∃ live object, v.object? key = some live ∧
          MemoryStore.Written v t key (v.restated live object)) := by
  cases h with
  | unread _ same => exact .inl same
  | absent _ same => exact .inl same
  | undecoded _ _ same => exact .inl same
  | ungathered _ _ _ _ same => exact .inl same
  | @ran live start p resources u v w ending attempts written there decoded read starts gathered
      phases follows ready noted wrote =>
    have idle := idle_resources calm start.owner u
    rw [gathered] at idle
    refine .inr ⟨_, starts, v, w, ending, attempts, SameObjects.trans read.same idle.same, phases,
      ?_⟩
    rcases writeStatus_cases calm.store wrote with ⟨-, same⟩ | ⟨-, current, there, only⟩
    · exact .inl same
    · exact .inr ⟨current, _, there, only⟩

/-- Reconciling touches only its own. Objects that are neither the owner nor among its children are
as before, the owner changes at most in its status and its version, children that were there are
tended, and an owner that bars the way to its children leaves them all as they are. -/
theorem reconcileKey_reaches_own {b b' : Backoff} (calm : e.Harmless)
    (counts : ∀ k live, s.object? k = some live → Counts live)
    (apart : ∀ start, startAt e key s = some start → ∀ wanted ∈ start.resources.manifests,
      wanted.key ≠ key ∧ Manifest.ofBody wanted.body = .ok wanted)
    (ran : (((standard e).reconcileKey key).run b).run s = ((pass, b'), t)) :
    (∀ k, k ≠ key → (∀ start, startAt e key s = some start → k ∉ start.resources.keys) →
        t.object? k = s.object? k) ∧
      Option.Rel Relabelled (s.object? key) (t.object? key) ∧
      (∀ start, startAt e key s = some start → ∀ wanted ∈ start.resources.manifests,
        ∀ live, s.object? wanted.key = some live →
          ∃ object, t.object? wanted.key = some object ∧ Tended live object) ∧
      (Barred e key s → ∀ k, k ≠ key → t.object? k = s.object? k) := by
  rcases ((trace_of_reconcileKey calm.store ran).passes calm).reach calm with
    same | ⟨start, starts, u, v, ending, attempts, before, phases, after⟩
  · refine ⟨fun k _ _ => (same k).symm, ?_, fun start _ wanted _ live there => ?_,
      fun _ k _ => (same k).symm⟩
    · rw [same key]
      cases t.object? key with
      | none => exact .none
      | some live => exact .some (.refl live)
    · exact ⟨live, (same _).symm.trans there, .refl live⟩
  · -- What the status write leaves is what the phases left, but for the owner.
    have elsewhere : ∀ k, k ≠ key → t.object? k = v.object? k := by
      intro k ne
      rcases after with same | ⟨live, object, -, written⟩
      · exact (same k).symm
      · rw [written k, if_neg ne]
    have own : v.object? key = s.object? key := by
      rw [before key]
      refine phases.frame fun mem => ?_
      obtain ⟨wanted, mem, eq⟩ := List.mem_map.1 mem
      exact (apart start starts wanted mem).1 eq
    refine ⟨fun k ne new => ?_, ?_, fun start' starts' wanted mem live there => ?_,
      fun barred k ne => ?_⟩
    · rw [elsewhere k ne, phases.frame (new start starts), before k]
    · rcases after with same | ⟨live, object, there, written⟩
      · rw [← same key, own]
        cases s.object? key with
        | none => exact .none
        | some live => exact .some (.refl live)
      · rw [written key, if_pos rfl, ← own, there]
        rw [own] at there
        exact .some (relabelled_restated v (counts key live there).hasMetadata object)
    · obtain rfl := Option.some.inj (starts.symm.trans starts')
      obtain ⟨ne, accepted⟩ := apart start starts wanted mem
      rw [elsewhere _ ne]
      exact phases.tended mem (Manifest.hasMetadata_of_ofBody accepted)
        ((before _).symm.trans there) (counts _ live there)
    · rw [elsewhere k ne]
      have leaving := barred.start starts
      rcases phases.round with same | ⟨staying, -⟩
      · rw [← same k, before k]
      · rw [leaving] at staying
        cases staying

/-! ## An instance -/

section Instance

open Applier

/-- The settings that were there are patched, and keep their uid and their status. -/
theorem tenantPass_reaches_own :
    (tenantPass [settings] staffed).1.1.attempts = [.succeeded (.updated ⟨1, 1, 0⟩)] ∧
      (∀ k, k ≠ tenantKey → k ≠ settings.key →
        (tenantPass [settings] staffed).2.object? k = staffed.object? k) ∧
      Option.Rel Relabelled (staffed.object? tenantKey)
        ((tenantPass [settings] staffed).2.object? tenantKey) ∧
      ∀ live, staffed.object? settings.key = some live →
        ∃ object, (tenantPass [settings] staffed).2.object? settings.key = some object ∧
          Tended live object := by
  have counted : staffed.objects.toList.all (fun o => decide (Counts o.2)) = true := by
    decide +kernel
  have ran : tenantPass [settings] staffed = (((tenantPass [settings] staffed).1.1,
    (tenantPass [settings] staffed).1.2), (tenantPass [settings] staffed).2) := rfl
  have started : (startAt (tenantEngine [settings]) tenantKey staffed).isSome = true := by
    decide +kernel
  obtain ⟨start, starts⟩ := Option.isSome_iff_exists.1 started
  have mem : settings ∈ start.resources.manifests :=
    manifests_tenantEngine starts ▸ List.mem_singleton_self settings
  obtain ⟨others, own, children, -⟩ := reconcileKey_reaches_own
    (harmless_tenantEngine [settings])
    (fun k live there => of_decide_eq_true
      (List.all_eq_true.1 counted (k, live) (Entries.mem_toList_of_get? there)))
    (fun first starts wanted mem => by
      rw [manifests_tenantEngine starts, List.mem_singleton] at mem
      exact mem ▸ ⟨by decide, rfl⟩)
    ran
  refine ⟨by decide +kernel, fun k ne ne' => others k ne fun first starts mem => ?_, own,
    children start starts settings mem⟩
  rw [ResourceSet.keys, manifests_tenantEngine starts, List.map_singleton,
    List.mem_singleton] at mem
  exact ne' mem

end Instance

end Reconciler

end DesiredState
