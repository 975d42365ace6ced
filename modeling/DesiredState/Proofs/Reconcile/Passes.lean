import DesiredState.Proofs.Reconcile.Phases

/-!
# Passes over a store in memory

What a pass with the standard phases comes to (`pass_cases`): it ends early, or the phases run and
the status is written at the key of the owner alone.
-/

namespace DesiredState.Reconciler

open MemoryStore Phase Progress

variable {ω : Type} [Owner ω] {e : Engine (StateM MemoryStore) ω} {key : ObjectKey}
  {s t : MemoryStore}

/-! ## The set of resources -/

omit [Owner ω] in
theorem run_gather_cons {σ : Type} (r : Reconciler (StateM σ) ω) (owner : ω) (wanted : Manifest)
    (rest : List Manifest) (set : ResourceSet) (w : σ) :
    (r.gather owner (wanted :: rest) set).run.run w =
      match (r.engine.hooks.mutate owner wanted).run.run w with
      | (.ok mutation, v) => (r.gather owner rest (set.extend mutation.accepted)).run.run v
      | (.error error, v) => (.error error, v) := by
  rw [gather, ExceptT.run_bind, StateT.run_bind]
  rcases (r.engine.hooks.mutate owner wanted).run.run w with ⟨error | mutation, v⟩ <;> rfl

/-- Building the set of resources keeps what the hooks keep. -/
theorem kept_resources {R : MemoryStore → MemoryStore → Prop} (keeps : e.Keeps R) (owner : ω)
    (s : MemoryStore) : R s (((standard e).resources owner).run.run s).2 := by
  have wants : e.hooks.Wants keeps.guarantees fun _ => True := {
    generate := fun _ _ _ _ _ => trivial
    mutate := fun owner wanted _ s => ⟨keeps.mutate owner wanted s, by
      cases ((e.hooks.mutate owner wanted).run.run s).1 with
      | ok mutation => exact fun _ _ => trivial
      | error error => trivial⟩ }
  exact (ensures_resources (r := standard e) wants owner s).1

theorem idle_resources (calm : e.Harmless) (owner : ω) (s : MemoryStore) :
    e.Idle s (((standard e).resources owner).run.run s).2 :=
  kept_resources (Engine.Idle.keeps calm) owner s

/-- The clock has no part in what is wanted. -/
theorem gather_withClock (now : StateM MemoryStore Timestamp) (owner : ω) (l : List Manifest)
    (set : ResourceSet) :
    (standard { e with now }).gather owner l set = (standard e).gather owner l set := by
  induction l generalizing set with
  | nil => rfl
  | cons wanted rest ih =>
    rw [gather, gather]
    exact congrArg _ (funext fun mutation => ih _)

theorem resources_withClock (now : StateM MemoryStore Timestamp) (owner : ω) :
    (standard { e with now }).resources owner = (standard e).resources owner := by
  unfold Reconciler.resources
  rw [show (standard { e with now }).engine.hooks = (standard e).engine.hooks from rfl]
  split
  · exact gather_withClock now owner _ _
  · rfl

theorem ofLive_eq_ok {live : Json} {start : Progress ω} :
    Progress.ofLive live = .ok start ↔
      ∃ identity, Owner.decode live = .ok start.owner ∧
        Owner.identity start.owner = .ok identity ∧
        start = ⟨start.owner, Owner.key start.owner, identity, .empty,
          (Owner.status? start.owner).getD .empty, []⟩ := by
  unfold Progress.ofLive Progress.start
  cases decoded : Owner.decode (ω := ω) live with
  | error error => exact ⟨nofun, fun ⟨_, h, _⟩ => nomatch h⟩
  | ok owner =>
    show (Owner.identity owner).map _ = .ok start ↔ _
    cases identity : Owner.identity owner with
    | error error =>
      refine ⟨nofun, fun ⟨_, h, h', _⟩ => ?_⟩
      rw [← Except.ok.inj h, identity] at h'
      cases h'
    | ok identity' =>
      constructor
      · intro h
        obtain rfl := Except.ok.inj h
        exact ⟨identity', rfl, identity, rfl⟩
      · rintro ⟨_, h, h', eq⟩
        obtain rfl := Except.ok.inj h
        obtain rfl := Except.ok.inj (h'.symm.trans identity)
        exact congrArg Except.ok eq.symm

theorem attempts_ofLive {live : Json} {start : Progress ω} (h : Progress.ofLive live = .ok start) :
    start.attempts = [] := by
  obtain ⟨identity, -, -, eq⟩ := ofLive_eq_ok.1 h
  rw [eq]

/-- The progress with which the phases of a pass start, if it gets so far. -/
def startAt (e : Engine (StateM MemoryStore) ω) (key : ObjectKey) (s : MemoryStore) :
    Option (Progress ω) :=
  match s.object? key with
  | none => none
  | some live =>
    match Progress.ofLive live with
    | .error _ => none
    | .ok start =>
      match ((standard e).resources start.owner).run.run (s.get key).2 with
      | (.error _, _) => none
      | (.ok resources, _) => some { start with resources }

theorem startAt_eq_some {p : Progress ω} :
    startAt e key s = some p ↔
      ∃ live start resources, s.object? key = some live ∧ Progress.ofLive live = .ok start ∧
        (((standard e).resources start.owner).run.run (s.get key).2).1 = .ok resources ∧
        p = { start with resources } := by
  unfold startAt
  constructor
  · intro h
    split at h
    · cases h
    · rename_i live there
      split at h
      · cases h
      · rename_i start decoded
        split at h
        · cases h
        · rename_i resources u gathered
          exact ⟨live, start, resources, there, decoded, by rw [gathered], (Option.some.inj h).symm⟩
  · rintro ⟨live, start, resources, there, decoded, gathered, rfl⟩
    rw [there]
    dsimp only
    rw [decoded]
    dsimp only
    rcases ran : ((standard e).resources start.owner).run.run (s.get key).2 with ⟨result, u⟩
    rw [ran] at gathered
    obtain rfl : result = .ok resources := gathered
    rfl

/-! ## The status -/

theorem run_writeStatus (stored : e.store = store) (live : Json) (before after : OwnerStatus)
    (s : MemoryStore) :
    ((standard e).writeStatus key live before after).run s =
      if before = after then (.ok false, s)
      else
        match s.updateStatus key (live.setMember "status" after.encode) with
        | (.ok _, t) => (.ok true, t)
        | (.error error, t) => (if error.isConflict then .ok false else .error error, t) := by
  unfold writeStatus
  split
  · rfl
  · rw [StateT.run_bind, show (standard e).engine.store = store from stored,
      show (store.updateStatus key (live.setMember "status" after.encode)
        (standard e).engine.applier.manager).run.run s =
          s.updateStatus key (live.setMember "status" after.encode) from rfl]
    rcases s.updateStatus key (live.setMember "status" after.encode) with ⟨error | object, t⟩
    · show (if error.isConflict then _ else _ : StateM MemoryStore (Result Bool)).run t = _
      dsimp only
      by_cases conflict : error.isConflict = true
      · rw [if_pos conflict, if_pos conflict]
        rfl
      · rw [if_neg conflict, if_neg conflict]
        rfl
    · rfl

/-- A status write leaves the objects as they are, or changes the owner alone. -/
theorem writeStatus_cases (stored : e.store = store) {live : Json} {before after : OwnerStatus}
    {written : Result Bool}
    (wrote : ((standard e).writeStatus key live before after).run s = (written, t)) :
    written ≠ .ok true ∧ SameObjects s t ∨
      written = .ok true ∧ ∃ current, s.object? key = some current ∧
        MemoryStore.Written s t key
          (s.restated current (live.setMember "status" after.encode)) := by
  rw [run_writeStatus stored] at wrote
  split at wrote
  · obtain ⟨rfl, rfl⟩ := Prod.mk.inj wrote
    exact .inl ⟨nofun, fun _ => rfl⟩
  · rcases updateStatus_cases s key (live.setMember "status" after.encode) with
      ⟨error, u, ran, same⟩ | ⟨current, u, there, -, ran, only⟩
    · rw [ran] at wrote
      obtain ⟨rfl, rfl⟩ := Prod.mk.inj wrote
      refine .inl ⟨?_, same⟩
      split <;> exact nofun
    · rw [ran] at wrote
      obtain ⟨rfl, rfl⟩ := Prod.mk.inj wrote
      exact .inr ⟨rfl, current, there, only⟩

/-- A status write leaves everything but the owner alone. -/
theorem writeStatus_elsewhere (stored : e.store = store) {live : Json} {before after : OwnerStatus}
    {written : Result Bool}
    (wrote : ((standard e).writeStatus key live before after).run s = (written, t))
    {k : ObjectKey} (ne : k ≠ key) : t.object? k = s.object? k := by
  rcases writeStatus_cases stored wrote with ⟨-, same⟩ | ⟨-, _, -, only⟩
  · exact (same k).symm
  · rw [only, if_neg ne]

omit [Owner ω] in
/-- A pass wrote the status exactly if the store took it. -/
theorem statusWritten_ofEnding {ending : Ending} {p : Progress ω} {written : Result Bool} :
    (Pass.ofEnding ending p written).statusWritten = true ↔ written = .ok true := by
  unfold Pass.ofEnding
  rcases written with error | _ | _
  · exact ⟨nofun, nofun⟩
  · exact ⟨nofun, nofun⟩
  · exact ⟨fun _ => rfl, fun _ => rfl⟩

/-! ## Passes -/

/-- The runs that a pass with the standard phases is made of. -/
inductive Trace (e : Engine (StateM MemoryStore) ω) (key : ObjectKey) (s t : MemoryStore) :
    Pass → Prop where
  | unread {error : Error} (got : s.get key = (.error error, t)) : Trace e key s t (.early error)
  | absent (got : s.get key = (.ok none, t)) : Trace e key s t .absent
  | undecoded {live : Json} {error : Error} (got : s.get key = (.ok (some live), t))
      (decoded : Progress.ofLive (ω := ω) live = .error error) : Trace e key s t (.early error)
  | ungathered {live : Json} {start : Progress ω} {error : Error} {u : MemoryStore}
      (got : s.get key = (.ok (some live), u)) (decoded : Progress.ofLive live = .ok start)
      (gathered : ((standard e).resources start.owner).run.run u = (.error error, t)) :
      Trace e key s t (.early error)
  | ran {live : Json} {start p : Progress ω} {resources : ResourceSet} {u v w : MemoryStore}
      {ending : Ending} {written : Result Bool} (got : s.get key = (.ok (some live), u))
      (decoded : Progress.ofLive live = .ok start)
      (gathered : ((standard e).resources start.owner).run.run u = (.ok resources, v))
      (all : (runAll e.now (Phase.standard e) { start with resources }).run v = ((ending, p), w))
      (wrote : ((standard e).writeStatus key live start.status p.status).run w = (written, t)) :
      Trace e key s t (.ofEnding ending p written)

/-- What a pass with the standard phases comes to. -/
inductive Passes (e : Engine (StateM MemoryStore) ω) (key : ObjectKey) (s t : MemoryStore) :
    Pass → Prop where
  /-- The owner could not be read. -/
  | unread {error : Error} (loud : ¬ Quiet s) (same : SameObjects s t) :
      Passes e key s t (.early error)
  | absent (none : s.object? key = none) (same : SameObjects s t) : Passes e key s t .absent
  | undecoded {live : Json} {error : Error} (there : s.object? key = some live)
      (decoded : Progress.ofLive (ω := ω) live = .error error) (same : SameObjects s t) :
      Passes e key s t (.early error)
  /-- The set of resources could not be built. -/
  | ungathered {live : Json} {start : Progress ω} {error : Error} {u : MemoryStore}
      (there : s.object? key = some live) (decoded : Progress.ofLive live = .ok start)
      (read : e.Idle s u)
      (gathered : (((standard e).resources start.owner).run.run u).1 = .error error)
      (same : SameObjects s t) : Passes e key s t (.early error)
  /-- The phases ran. -/
  | ran {live : Json} {start p : Progress ω} {resources : ResourceSet} {u v w : MemoryStore}
      {ending : Ending} {attempts : List Attempt} {written : Result Bool}
      (there : s.object? key = some live) (decoded : Progress.ofLive live = .ok start)
      (read : e.Idle s u) (starts : startAt e key s = some { start with resources })
      (gathered : ((standard e).resources start.owner).run.run u = (.ok resources, v))
      (phases : Phases e { start with resources } v w ending attempts)
      (follows : Follows { start with resources } p attempts)
      (ready : p.status.ready = isComplete ending) (noted : p.status.conditions ≠ [])
      (wrote : ((standard e).writeStatus key live start.status p.status).run w = (written, t)) :
      Passes e key s t (.ofEnding ending p written)

theorem run_pass_error (stored : e.store = store) {error : Error}
    (h : s.get key = (.error error, t)) :
    ((standard e).pass key).run s = (.early error, t) := by
  unfold pass
  rw [StateT.run_bind, show (standard e).engine.store = store from stored,
    show (store.get key).run.run s = (.error error, t) from h]
  rfl

theorem run_pass_absent (stored : e.store = store) (h : s.get key = (.ok none, t)) :
    ((standard e).pass key).run s = (.absent, t) := by
  unfold pass
  rw [StateT.run_bind, show (standard e).engine.store = store from stored,
    show (store.get key).run.run s = (.ok none, t) from h]
  rfl

theorem run_pass_undecoded (stored : e.store = store) {live : Json} {error : Error}
    (h : s.get key = (.ok (some live), t))
    (decoded : Progress.ofLive (ω := ω) live = .error error) :
    ((standard e).pass key).run s = (.early error, t) := by
  unfold pass
  rw [StateT.run_bind, show (standard e).engine.store = store from stored,
    show (store.get key).run.run s = (.ok (some live), t) from h]
  show StateT.run (match (Progress.ofLive live : Result (Progress ω)) with
    | .error error => _
    | .ok start => _) t = _
  rw [decoded]
  rfl

theorem run_pass (stored : e.store = store) {live : Json} {start : Progress ω}
    (h : s.get key = (.ok (some live), t)) (decoded : Progress.ofLive live = .ok start) :
    ((standard e).pass key).run s = ((standard e).passOver key live start).run t := by
  unfold pass
  rw [StateT.run_bind, show (standard e).engine.store = store from stored,
    show (store.get key).run.run s = (.ok (some live), t) from h]
  show StateT.run (match (Progress.ofLive live : Result (Progress ω)) with
    | .error error => _
    | .ok start => _) t = _
  rw [decoded]

theorem run_passOver_ungathered {live : Json} {start : Progress ω} {error : Error}
    (h : ((standard e).resources start.owner).run.run s = (.error error, t)) :
    ((standard e).passOver key live start).run s = (.early error, t) := by
  unfold passOver
  rw [StateT.run_bind, h]
  rfl

theorem run_passOver {live : Json} {start p : Progress ω} {resources : ResourceSet}
    {u v : MemoryStore} {ending : Ending} {written : Result Bool}
    (h : ((standard e).resources start.owner).run.run s = (.ok resources, t))
    (all : (runAll e.now (Phase.standard e) { start with resources }).run t = ((ending, p), u))
    (wrote : ((standard e).writeStatus key live start.status p.status).run u = (written, v)) :
    ((standard e).passOver key live start).run s = (.ofEnding ending p written, v) := by
  unfold passOver
  rw [StateT.run_bind, h]
  show StateT.run (runAll e.now (Phase.standard e) { start with resources } >>= _) t = _
  rw [StateT.run_bind, all]
  show StateT.run ((standard e).writeStatus key live start.status p.status >>= _) u = _
  rw [StateT.run_bind, wrote]
  rfl

/-- A pass is made of these runs. -/
theorem pass_trace (stored : e.store = store) (key : ObjectKey) (s : MemoryStore) :
    ∃ pass t, ((standard e).pass key).run s = (pass, t) ∧ Trace e key s t pass := by
  rcases got : s.get key with ⟨error | _ | live, t⟩
  · exact ⟨_, t, run_pass_error stored got, .unread got⟩
  · exact ⟨_, t, run_pass_absent stored got, .absent got⟩
  cases decoded : Progress.ofLive (ω := ω) live with
  | error error => exact ⟨_, t, run_pass_undecoded stored got decoded, .undecoded got decoded⟩
  | ok start =>
    rw [run_pass stored got decoded]
    rcases gathered : ((standard e).resources start.owner).run.run t with ⟨error | resources, u⟩
    · exact ⟨_, u, run_passOver_ungathered gathered, .ungathered got decoded gathered⟩
    · rcases all : (runAll e.now (Phase.standard e) { start with resources }).run u with
        ⟨⟨ending, p⟩, v⟩
      rcases wrote : ((standard e).writeStatus key live start.status p.status).run v with
        ⟨written, w⟩
      exact ⟨_, w, run_passOver gathered all wrote, .ran got decoded gathered all wrote⟩

/-- The runs of a pass whose engine is harmless come to one of these. -/
theorem Trace.passes (calm : e.Harmless) {pass : Pass} (h : Trace e key s t pass) :
    Passes e key s t pass := by
  cases h with
  | unread got =>
    obtain ⟨loud, same⟩ := get_error got
    exact .unread loud same
  | absent got =>
    obtain ⟨there, same, -⟩ := get_ok got
    exact .absent there same
  | undecoded got decoded =>
    obtain ⟨there, same, -⟩ := get_ok got
    exact .undecoded there decoded same
  | @ungathered live start error u got decoded gathered =>
    obtain ⟨there, same, still⟩ := get_ok got
    have idle := idle_resources calm start.owner u
    rw [gathered] at idle
    exact .ungathered there decoded ⟨same, fun _ => still⟩ (by rw [gathered])
      (SameObjects.trans same idle.same)
  | @ran live start p resources u v w ending written got decoded gathered all wrote =>
    obtain ⟨there, same, still⟩ := get_ok got
    obtain ⟨ending', p', w', attempts, all', follows, ready, noted, phases⟩ :=
      runAll_standard calm { start with resources } v
    obtain ⟨⟨rfl, rfl⟩, rfl⟩ : (ending' = ending ∧ p' = p) ∧ w' = w := by
      rw [all] at all'
      exact ⟨⟨(Prod.mk.inj (Prod.mk.inj all').1).1.symm, (Prod.mk.inj (Prod.mk.inj all').1).2.symm⟩,
        (Prod.mk.inj all').2.symm⟩
    exact .ran there decoded ⟨same, fun _ => still⟩
      (startAt_eq_some.2 ⟨live, start, resources, there, decoded, by rw [got, gathered], rfl⟩)
      gathered phases follows ready noted wrote

/-- A pass comes to one of these. -/
theorem pass_cases (calm : e.Harmless) (key : ObjectKey) (s : MemoryStore) :
    ∃ pass t, ((standard e).pass key).run s = (pass, t) ∧ Passes e key s t pass := by
  obtain ⟨pass, t, ran, trace⟩ := pass_trace calm.store key s
  exact ⟨pass, t, ran, trace.passes calm⟩

theorem run_reconcileKey (r : Reconciler (StateM MemoryStore) ω) {pass : Pass} {b : Backoff}
    (h : (r.pass key).run s = (pass, t)) :
    ((r.reconcileKey key).run b).run s =
      ((pass, if pass.found then b else b.reset key.text), t) := by
  have lifted :
      (StateT.run (liftM (r.pass key) : StateT Backoff (StateM MemoryStore) Pass) b).run s =
        ((pass, b), t) := by
    show (r.pass key >>= fun pass => Pure.pure (pass, b)).run s = _
    rw [StateT.run_bind, h]
    rfl
  unfold reconcileKey
  rw [StateT.run_bind, StateT.run_bind, lifted]
  show (StateT.run (if pass.found then _ else _ : StateT Backoff (StateM MemoryStore) Pass) b).run
    t = _
  by_cases found : pass.found = true
  · rw [if_pos found, if_pos found]
    rfl
  · rw [if_neg found, if_neg found]
    rfl

/-- Reconciling the owner of a key is a pass, made of these runs. -/
theorem trace_of_reconcileKey {pass : Pass} {b b' : Backoff} (stored : e.store = store)
    (ran : (((standard e).reconcileKey key).run b).run s = ((pass, b'), t)) :
    Trace e key s t pass := by
  obtain ⟨pass', t', ran', trace⟩ := pass_trace stored key s
  rw [run_reconcileKey _ ran'] at ran
  obtain ⟨eq, rfl⟩ := Prod.mk.inj ran
  obtain ⟨rfl, -⟩ := Prod.mk.inj eq
  exact trace

end DesiredState.Reconciler
