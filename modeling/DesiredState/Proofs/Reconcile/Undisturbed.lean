import DesiredState.Proofs.Reconcile.Quiescence
import DesiredState.Proofs.Reconcile.Reach

/-!
# Passes in which no call fails

Where no call fails, a round forms every child that the hooks admit. It admits all of them if their
turns keep what the hooks ask for (`Round.forms_all`). A pass then ends as its phases do, and the
status that they came to is stored (`Trace.undisturbed`).
-/

namespace DesiredState

open Json Bookkeeping MemoryStore Applier

/-! ## Rounds -/

namespace Engine

variable {ω : Type} {e : Engine (StateM MemoryStore) ω} {owner : ω} {identity : OwnerIdentity}
  {wanted : Manifest} {l : List Manifest} {good : MemoryStore → Prop} {s t : MemoryStore}
  {result : Result Bool} {attempts : List Attempt}

/-- In good stores no call fails and the hooks admit every child, whose turn leaves a good store. -/
structure Clears (e : Engine (StateM MemoryStore) ω) (owner : ω) (identity : OwnerIdentity)
    (l : List Manifest) (good : MemoryStore → Prop) : Prop where
  quiet : ∀ {s}, good s → Quiet s
  go : ∀ wanted ∈ l, ∀ {s}, good s → ((e.hooks.mayApply owner wanted).run.run s).1 = .ok true
  keeps : ∀ wanted ∈ l, ∀ {s t result attempts}, good s →
    Child e owner identity wanted s t result attempts → good t

theorem Clears.rest {first : Manifest} (clears : e.Clears owner identity (first :: l) good) :
    e.Clears owner identity l good :=
  ⟨clears.quiet, fun wanted mem => clears.go wanted (List.mem_cons_of_mem first mem),
    fun wanted mem => clears.keeps wanted (List.mem_cons_of_mem first mem)⟩

/-- From a good store a round admits all children and forms each of them. -/
theorem Round.forms_all (h : Round e owner identity l s t result attempts) (calm : e.Harmless)
    (discreet : e.Discreet) (clears : e.Clears owner identity l good) (sound : good s)
    (distinct : (l.map Manifest.key).Nodup) (plain : ∀ wanted ∈ l, Plain wanted.body)
    (stamped : ∀ wanted ∈ l, ∀ live, s.object? wanted.key = some live → live.isStamped = true) :
    result = .ok true ∧ ∀ wanted ∈ l, ∃ object, t.object? wanted.key = some object ∧
      Formed e.applier wanted identity (s.object? wanted.key) object := by
  have formed : ∀ {first rest s u result attempts}, e.Clears owner identity (first :: rest) good →
      good s → Plain first.body →
      (∀ live, s.object? first.key = some live → live.isStamped = true) →
      Child e owner identity first s u result attempts → result = .ok true ∧
        ∃ object, u.object? first.key = some object ∧
          Formed e.applier first identity (s.object? first.key) object :=
    fun {first _ _ _ _ _} clears sound plain stamped child =>
      child.forms calm discreet (clears.quiet sound)
        (clears.go first List.mem_cons_self sound) plain stamped (.inl rfl)
  induction h with
  | all => exact ⟨rfl, nofun⟩
  | stopped child halt =>
    exact absurd (formed clears sound (plain _ List.mem_cons_self)
      (stamped _ List.mem_cons_self) child).1 halt
  | @next first rest s t u result attempts later child others ih =>
    obtain ⟨-, object, there, made⟩ := formed clears sound (plain _ List.mem_cons_self)
      (stamped _ List.mem_cons_self) child
    rw [List.map_cons, List.nodup_cons] at distinct
    -- The turn of the first child does not touch the later ones.
    have kept : ∀ wanted ∈ rest, t.object? wanted.key = s.object? wanted.key := fun wanted mem =>
      child.frame fun eq => distinct.1 (eq ▸ List.mem_map_of_mem mem)
    obtain ⟨ended, all⟩ := ih clears.rest (clears.keeps first List.mem_cons_self sound child)
      distinct.2 (fun wanted mem => plain wanted (List.mem_cons_of_mem first mem))
      fun wanted mem => kept wanted mem ▸ stamped wanted (List.mem_cons_of_mem first mem)
    refine ⟨ended, fun wanted mem => ?_⟩
    rcases List.mem_cons.1 mem with rfl | mem
    · exact ⟨object, (others.frame distinct.1).trans there, made⟩
    · exact kept wanted mem ▸ all wanted mem

/-- A child that its hook holds back ends the round and is left alone. -/
theorem Child.waits (h : Child e owner identity wanted s t result attempts)
    (waits : ((e.hooks.mayApply owner wanted).run.run s).1 = .ok false) :
    result = .ok false ∧ SameObjects s t := by
  cases h with
  | failed answer => rw [answer] at waits; cases waits
  | waiting _ idle => exact ⟨rfl, idle.same⟩
  | applied answer => rw [answer] at waits; cases waits

end Engine

/-! ## Passes -/

namespace Reconciler

open Phase Progress

variable {ω : Type} [Owner ω] {e : Engine (StateM MemoryStore) ω} {key : ObjectKey}
  {start : Progress ω} {s t : MemoryStore} {pass : Pass}

/-- What a pass comes to whose phases end like this, if no call fails. -/
structure Undisturbed (e : Engine (StateM MemoryStore) ω) (key : ObjectKey) (start : Progress ω)
    (ending : Ending) (p : Progress ω) (s t : MemoryStore) (pass : Pass) : Prop where
  result : pass.result = Pass.conclude ending (.ok true)
  quiet : Quiet t
  /-- Nothing but the owner is written after the phases. -/
  elsewhere : ∀ k, k ≠ key → t.object? k = s.object? k
  ready : storedReady ω key t = some (isComplete ending)
  /-- The next pass finds the owner as it was, with the status that the phases came to. -/
  owner : ∃ live next, t.object? key = some live ∧ Progress.ofLive live = .ok next ∧
    Owner.Akin start.owner next.owner ∧ next.identity = start.identity ∧ next.status = p.status

/-- A pass whose phases start, and in which no call fails, runs them and writes the status. -/
theorem Trace.of_start (h : Trace e key s t pass) (calm : e.Harmless) (discreet : e.Discreet)
    (quiet : Quiet s) (starts : startAt e key s = some start) :
    ∃ live first u v ending p written, s.object? key = some live ∧
      Progress.ofLive live = .ok first ∧ start = { first with resources := start.resources } ∧
      SameObjects s u ∧ Quiet u ∧
      (runAll e.now (Phase.standard e) start).run u = ((ending, p), v) ∧
      ((standard e).writeStatus key live first.status p.status).run v = (written, t) ∧
      pass = .ofEnding ending p written := by
  obtain ⟨live, first, resources, there, decoded, gathered, rfl⟩ := startAt_eq_some.1 starts
  have got := get_of_quiet quiet key
  cases h with
  | unread got' => rw [got] at got'; cases got'
  | absent got' => rw [got, there] at got'; cases got'
  | undecoded got' failed =>
    rw [got, there] at got'
    obtain ⟨eq, -⟩ := Prod.mk.inj got'
    obtain rfl := Option.some.inj (Except.ok.inj eq)
    rw [decoded] at failed
    cases failed
  | ungathered got' decoded' failed =>
    rw [got, there] at got'
    obtain ⟨eq, rfl⟩ := Prod.mk.inj got'
    obtain rfl := Option.some.inj (Except.ok.inj eq)
    obtain rfl := Except.ok.inj (decoded.symm.trans decoded')
    rw [got, failed] at gathered
    cases gathered
  | @ran _ _ p resources' _ u v ending written got' decoded' gathered' all wrote =>
    rw [got, there] at got'
    obtain ⟨eq, rfl⟩ := Prod.mk.inj got'
    obtain rfl := Option.some.inj (Except.ok.inj eq)
    obtain rfl := Except.ok.inj (decoded.symm.trans decoded')
    rw [got, gathered'] at gathered
    obtain rfl : resources = resources' := (Except.ok.inj gathered).symm
    have idle := idle_resources calm first.owner (s.count .get)
    rw [gathered'] at idle
    exact ⟨live, first, u, v, ending, p, written, there, decoded, rfl, idle.same,
      idle.quiet discreet (quiet_count quiet .get), all, wrote, rfl⟩

/-- A pass that gets to its phases, and in which no call fails, ends as they do. -/
theorem Trace.undisturbed [LawfulOwner ω] (h : Trace e key s t pass) (calm : e.Harmless)
    (discreet : e.Discreet) (quiet : Quiet s) (starts : startAt e key s = some start)
    (apart : key ∉ start.resources.keys) :
    ∃ u v ending p attempts, SameObjects s u ∧ Quiet u ∧
      (runAll e.now (Phase.standard e) start).run u = ((ending, p), v) ∧
      Phases e start u v ending attempts ∧ Undisturbed e key start ending p v t pass := by
  obtain ⟨live, first, u, v, ending, p, written, there, decoded, eq, same, still, all, wrote,
    rfl⟩ := h.of_start calm discreet quiet starts
  obtain ⟨ending', p', v', attempts, all', -, ready, noted, phases⟩ :=
    runAll_standard calm start u
  obtain ⟨ended, rfl⟩ := Prod.mk.inj (all'.symm.trans all)
  obtain ⟨rfl, rfl⟩ := Prod.mk.inj ended
  have silent : Quiet v' := phases.quiet discreet still
  have current : v'.object? key = some live := by
    rw [phases.frame apart, ← same, there]
  obtain ⟨⟨b, rfl⟩, stored⟩ := storedReady_written calm silent current decoded noted wrote
  obtain ⟨-, live', next, last, reread, akin, identity, status⟩ :=
    ofLive_written calm silent current decoded wrote
  refine ⟨u, v', ending', p', attempts, same, still, all, phases, ?_⟩
  constructor
  case result => cases ending' <;> rfl
  case quiet => exact quiet_writeStatus calm silent wrote
  case elsewhere => exact fun k ne => writeStatus_elsewhere calm.store wrote ne
  case ready => rw [stored, ready]
  case owner =>
    rw [eq]
    exact ⟨live', next, last, reread, akin, identity, status⟩

end Reconciler

end DesiredState
