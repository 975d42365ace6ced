import DesiredState.Proofs.Reconcile.Reentry
import DesiredState.Proofs.Reconcile.Rest

/-!
# Passes after a pass that is done

A pass that is done leaves nothing to do for the next one (`reconcileKey_quiescent`), unless it
made an object of an immutable kind, of which a later pass speaks differently.

1. A whole round forms every child and describes its application as later ones will be described
   (`Whole.formed`).
2. When all phases are complete, the status states each of them as complete, and later steps of the
   phases do not take back what earlier ones stated.
3. The owner reads back with that status, its children are formed and its hooks answer as they did,
   so the next pass starts at rest (`Completed.atRest`).
-/

namespace DesiredState

open Json Bookkeeping MemoryStore Applier Step Progress

variable {ω : Type} {e : Engine (StateM MemoryStore) ω} {s t : MemoryStore}

/-! ## Children of a whole round -/

/-- Unless it makes an object of an immutable kind, an application without failure or conflict is
described as the later ones are that have nothing to do. -/
theorem Applier.Effect.description_eq {a : Applier} {wanted : Manifest} {owner : OwnerIdentity}
    {applied : Applied}
    (h : Effect a wanted owner s t (.succeeded applied)) (smooth : applied ≠ .conflicted)
    (older : a.immutable.contains wanted.kind = true → s.object? wanted.key ≠ none) :
    applied.description = (a.resting wanted).description := by
  unfold resting
  cases h with
  | failed failure => cases failure
  | conflicted => exact absurd rfl smooth
  | created u absent =>
    rw [if_neg fun immutable => older immutable absent]
    rfl
  | left _ immutable => rw [if_pos immutable]
  | kept _ mutable => rw [if_neg (Bool.eq_false_iff.1 mutable)]
  | patched u live _ mutable =>
    rw [if_neg (Bool.eq_false_iff.1 mutable)]
    rfl
  | idle _ mutable =>
    rw [if_neg (Bool.eq_false_iff.1 mutable)]
    rfl

theorem ResourceReport.attempted_succeeded (key : ObjectKey) (created : Bool) (applied : Applied) :
    ResourceReport.attempted key created (.succeeded applied) =
      ⟨key, "PersistResource", true, applied.description⟩ := rfl

namespace Engine.Whole

variable {l : List Manifest} {p p' : Progress ω} {wanted : Manifest}

/-- Where no call fails, a whole round forms every child. It describes this as later rounds will
describe that there is nothing to do, unless it made an object of an immutable kind. -/
theorem formed (h : e.Whole l p s p' t) (calm : e.Harmless) (discreet : e.Discreet)
    (quiet : Quiet s) (distinct : (l.map Manifest.key).Nodup) (mem : wanted ∈ l)
    (plain : Plain wanted.body)
    (stamped : ∀ live, s.object? wanted.key = some live → live.isStamped = true) :
    ∃ applied object, t.object? wanted.key = some object ∧
      Formed e.applier wanted p.identity (s.object? wanted.key) object ∧
      p'.status.StatesResource (.attempted wanted.key true (.succeeded applied)) ∧
      ((e.applier.immutable.contains wanted.kind = true → s.object? wanted.key ≠ none) →
        applied.description = (e.applier.resting wanted).description) := by
  obtain ⟨u, v, w, applied, answer, ran, still, same, last, states⟩ :=
    h.child calm discreet distinct mem
  have idle := Idle.ofMayApply calm p.owner wanted u
  rw [answer] at idle
  have found : v.object? wanted.key = s.object? wanted.key :=
    (idle.same _).symm.trans (same _ (.inl rfl))
  rw [calm.store] at ran
  obtain ⟨attempt, w', ran', effect⟩ := e.applier.apply_effect wanted p.identity v
  obtain ⟨rfl, rfl⟩ := Prod.mk.inj (ran'.symm.trans ran)
  obtain ⟨applied', succeeded, smooth⟩ := apply_of_quiet e.applier p.identity
    (idle.quiet discreet (still quiet)) plain.hasMetadata fun live there =>
      stamped live (found.symm.trans there)
  obtain rfl : applied = applied' := by
    rw [ran'] at succeeded
    injection succeeded
  rw [← found] at stamped ⊢
  obtain ⟨object, there, formed⟩ := effect.formed plain smooth
  exact ⟨applied, object, last.trans there, formed, states, effect.description_eq smooth⟩

end Engine.Whole

/-! ## The status of complete phases -/

namespace Phase

variable [Owner ω] {p p' : Progress ω}

/-- When all phases are complete, the status says so of each of them. -/
theorem states_of_complete
    (all : (runAll e.now (standard e) p).run s = ((.complete, p'), t)) :
    p'.status.ready = true ∧ p'.status.dependenciesSatisfied = true ∧
      ∀ name ∈ names, p'.status.StatesPhase (.complete name) := by
  obtain ⟨-, q, u, v, w, whole, -, -, rfl, -⟩ := runAll_standard_iff.1 all
  obtain ⟨kept, -⟩ := whole.status
  have first : q.status.StatesPhase (.complete "PreFlight") := by
    rw [kept]
    exact OwnerStatus.statesPhase_setPhase _ _ (.complete "PreFlight")
  refine ⟨rfl, ?_, fun name mem => ?_⟩
  · show q.status.dependenciesSatisfied = true
    rw [kept]
    rfl
  · simp only [names, List.mem_cons, List.not_mem_nil, or_false] at mem
    rcases mem with rfl | rfl | rfl | rfl
    · refine OwnerStatus.statesPhase_setPhase_of_ne ?_ (by decide) _
      refine OwnerStatus.statesPhase_setPhase_of_ne ?_ (by decide) _
      exact OwnerStatus.statesPhase_setPhase_of_ne first (by decide) _
    · refine OwnerStatus.statesPhase_setPhase_of_ne ?_ (by decide) _
      refine OwnerStatus.statesPhase_setPhase_of_ne ?_ (by decide) _
      exact OwnerStatus.statesPhase_setPhase _ _ _
    · refine OwnerStatus.statesPhase_setPhase_of_ne ?_ (by decide) _
      exact OwnerStatus.statesPhase_setPhase _ _ _
    · exact OwnerStatus.statesPhase_setPhase _ _ _

/-- When all phases of a reading engine are complete, there was a whole round, and then all children
and the owner were found ready, without another write. -/
theorem whole_of_complete (reads : e.ReadOnly) (quiet : Quiet s)
    (all : (runAll e.now (standard e) p).run s = ((.complete, p'), t)) :
    Owner.isDeleted p.owner = false ∧ ∃ q u v,
      e.Whole p.resources.manifests (admitted (e.now.run s).1 p) (e.now.run s).2 q u ∧
        q.status.resources = p'.status.resources ∧ OnlyRead u t ∧
        e.rules.verdicts t p.resources.keys = .ok true ∧
        ((e.hooks.ownerReady p.owner).run.run v).1 = .ok true := by
  obtain ⟨staying, q, u, v, w, whole, asked, answer, rfl, rfl⟩ := runAll_standard_iff.1 all
  obtain ⟨attempts, round⟩ := whole.round reads.harmless
  have still : Quiet (e.now.run u).2 :=
    (reads.now u).quiet (round.quiet reads.discreet ((reads.now s).quiet quiet))
  have checked := kept_areReady reads.keeps e.rules p.resources.keys (e.now.run u).2
  have decided := reads.ownerReady p.owner v
  obtain ⟨result, v', ran, -, -, found⟩ := e.rules.areReady_cases (e.now.run u).2 p.resources.keys
  rw [reads.store, ran] at asked
  obtain ⟨rfl, rfl⟩ := Prod.mk.inj asked
  rw [ran] at checked
  rw [answer] at decided
  have later := checked.trans (decided.trans ((reads.now w).trans (reads.now _)))
  refine ⟨staying, q, u, v', whole, rfl, (reads.now u).trans later, ?_, by rw [answer]⟩
  rw [← Rulebook.verdicts_congr _ fun k _ => Rulebook.verdict_congr later.same k]
  exact (found.resolve_right fun loud => loud.1 still).symm

/-- When all phases of a reading engine are complete, the status marks every child as created. -/
theorem created_of_complete (reads : e.ReadOnly) (quiet : Quiet s)
    (all : (runAll e.now (standard e) p).run s = ((.complete, p'), t)) {wanted : Manifest}
    (mem : wanted ∈ p.resources.manifests) : p'.status.wasCreated wanted.key = true := by
  obtain ⟨-, q, u, v, whole, spoken, -⟩ := whole_of_complete reads quiet all
  obtain ⟨_, _, _, applied, -, -, -, -, -, states⟩ :=
    whole.child reads.harmless reads.discreet p.resources.distinct mem
  have stated : Dated.stated _ wanted.key q.status.resources = _ := states
  rw [OwnerStatus.wasCreated_eq, ← spoken, stated]
  rfl

end Phase

/-! ## Hooks that answer again as they did -/

namespace Rulebook

variable {b : Rulebook} {key : ObjectKey}

/-- Where no call fails, a namespace is ready exactly if the rules say so. -/
theorem namespaceReady_iff (quiet : Quiet s) :
    ((b.namespaceReady store key).run.run s).1 = .ok true ↔
      ∀ name, key.ns? = some name → b.verdict s (namespaceKey name) = .ok true := by
  cases place : key.ns? with
  | none =>
    unfold namespaceReady
    rw [place]
    exact ⟨fun _ => nofun, fun _ => rfl⟩
  | some name =>
    rw [b.namespaceReady_of_quiet quiet place]
    exact ⟨fun h _ eq => Option.some.inj eq ▸ h, fun h => h name rfl⟩

end Rulebook

/-- The answers of the hooks are the same for an owner whose status was written, whatever is
stored. Children may have to wait for their namespaces, though, if the owner is none: a namespace
whose status was written as that of an owner is not ready any more. -/
structure Engine.Predictable [Owner ω] (e : Engine (StateM MemoryStore) ω) (key : ObjectKey) :
    Prop where
  wants : e.hooks.SteadyWants Owner.Akin
  waits : (∀ {o o'} wanted, Owner.Akin o o' →
      Agree (e.hooks.mayApply o wanted) (e.hooks.mayApply o' wanted)) ∨
    (∀ owner wanted, e.hooks.mayApply owner wanted =
      e.rules.namespaceReady e.store wanted.key) ∧ ∀ name, Rulebook.namespaceKey name ≠ key
  ownerReady : ∀ {o o'}, Owner.Akin o o' → Agree (e.hooks.ownerReady o) (e.hooks.ownerReady o')

/-- A child that was admitted is admitted again, if the namespaces that were ready still are. -/
theorem Engine.Predictable.admits [Owner ω] {key : ObjectKey} {o o' : ω} {wanted : Manifest}
    (predictable : e.Predictable key) (stored : e.store = MemoryStore.store)
    (akin : Owner.Akin o o') (quiet : Quiet s) (quiet' : Quiet t)
    (answer : ((e.hooks.mayApply o wanted).run.run s).1 = .ok true)
    (ready : ∀ name, Rulebook.namespaceKey name ≠ key →
      e.rules.verdict s (Rulebook.namespaceKey name) = .ok true →
        e.rules.verdict t (Rulebook.namespaceKey name) = .ok true) :
    ((e.hooks.mayApply o' wanted).run.run t).1 = .ok true := by
  rcases predictable.waits with steady | ⟨gate, other⟩
  · exact (steady wanted akin s t).symm.trans answer
  · rw [gate, stored, Rulebook.namespaceReady_iff quiet] at answer
    rw [gate, stored, Rulebook.namespaceReady_iff quiet']
    exact fun name place => ready name (other name) (answer name place)

/-- What a whole round did at a child is what the next round finds done, if the child was not made
as one of an immutable kind, and nothing was written since but the owner. -/
theorem Engine.Whole.rested [Owner ω] {key : ObjectKey} {l : List Manifest} {p p' : Progress ω}
    {wanted : Manifest} {o' : ω} {v : MemoryStore} (h : e.Whole l p s p' v) (reads : e.ReadOnly)
    (predictable : e.Predictable key) (quiet : Quiet s) (distinct : (l.map Manifest.key).Nodup)
    (mem : wanted ∈ l) (plain : Plain wanted.body)
    (stamped : ∀ live, s.object? wanted.key = some live → live.isStamped = true)
    (older : e.applier.immutable.contains wanted.kind = true → s.object? wanted.key = none →
      v.object? wanted.key = none)
    (verdicts : ∀ k ∈ l.map Manifest.key, e.rules.verdict v k = .ok true)
    (akin : Owner.Akin p.owner o') (quiet' : Quiet t)
    (same : ∀ k, k ≠ key → t.object? k = v.object? k) :
    p'.status.StatesResource (.attempted wanted.key true (.succeeded (e.applier.resting wanted))) ∧
      ((e.hooks.mayApply o' wanted).run.run t).1 = .ok true ∧
      (wanted.key ≠ key → (e.applier.apply MemoryStore.store wanted p.identity).run t =
        (.succeeded (e.applier.resting wanted), t.count .get)) := by
  have calm := reads.harmless
  obtain ⟨attempts, round⟩ := h.round calm
  obtain ⟨applied, object, there, formed, states, described⟩ :=
    h.formed calm reads.discreet quiet distinct mem plain stamped
  obtain ⟨y, z, -, -, answer, -, silent, before, -⟩ := h.child calm reads.discreet distinct mem
  refine ⟨?_, ?_, fun ne => ?_⟩
  · rw [ResourceReport.attempted_succeeded] at states ⊢
    rw [← described fun immutable absent => by
      rw [older immutable absent] at there
      cases there]
    exact states
  · refine predictable.admits reads.store akin (silent quiet) quiet' (by rw [answer])
      fun name away found => ?_
    -- The namespace is a child, which was found ready in the end, or nothing wrote it.
    by_cases child : Rulebook.namespaceKey name ∈ l.map Manifest.key
    · rw [← verdicts _ child]
      exact Rulebook.verdict_congr_at (same _ away)
    · rw [← found]
      exact Rulebook.verdict_congr_at (by
        rw [same _ away, round.frame child, before _ (.inr child)])
  · exact apply_of_formed plain (fun live h => hasMetadata_of_isStamped (stamped live h)) quiet'
      ((same _ ne).trans there) formed

/-! ## The next pass -/

namespace Reconciler

variable [Owner ω] {key : ObjectKey} {live : Json}

theorem quiet_writeStatus (calm : e.Harmless) (quiet : Quiet s) {before after : OwnerStatus}
    {written : Result Bool}
    (wrote : ((standard e).writeStatus key live before after).run s = (written, t)) : Quiet t := by
  have still := quiet_updateStatus quiet key (live.setMember "status" after.encode)
  rw [run_writeStatus calm.store] at wrote
  split at wrote
  · exact (Prod.mk.inj wrote).2 ▸ quiet
  · rcases ran : s.updateStatus key (live.setMember "status" after.encode) with
      ⟨error | object, u⟩
    all_goals
      rw [ran] at still wrote
      exact (Prod.mk.inj wrote).2 ▸ still

section Complete

variable [LawfulOwner ω] {start p : Progress ω} {resources : ResourceSet}
  {u : MemoryStore} {written : Result Bool}

/-- When all phases were complete and the status was written, there is nothing left to do for the
owner that is read next. -/
theorem atRest_of_complete (reads : e.ReadOnly) (predictable : e.Predictable key)
    (later : StateM MemoryStore Timestamp) (quiet : Quiet s) (there : s.object? key = some live)
    (decoded : Progress.ofLive live = .ok start)
    (stamped : ∀ k live, s.object? k = some live → live.isStamped = true)
    (children : ∀ wanted ∈ resources.manifests, wanted.key ≠ key ∧ Plain wanted.body)
    (all : (Phase.runAll e.now (Phase.standard e) { start with resources }).run s =
      ((.complete, p), u))
    (wrote : ((standard e).writeStatus key live start.status p.status).run u = (written, t))
    (older : ∀ wanted ∈ resources.manifests, e.applier.immutable.contains wanted.kind = true →
      s.object? wanted.key = none → t.object? wanted.key = none) :
    ∃ live' start', t.object? key = some live' ∧ Progress.ofLive live' = .ok start' ∧
      Owner.Akin start.owner start'.owner ∧
      AtRest { e with now := later } { start' with resources } t := by
  have calm := reads.harmless
  have discreet := reads.discreet
  obtain ⟨ready, satisfied, phases⟩ := Phase.states_of_complete all
  obtain ⟨staying, q, v, x, whole, spoken, after, verdicts, decided⟩ :=
    Phase.whole_of_complete reads quiet all
  obtain ⟨attempts, round⟩ := whole.round calm
  have first := reads.now s
  have still : Quiet u := after.quiet (round.quiet discreet (first.quiet quiet))
  have mine : key ∉ resources.manifests.map Manifest.key := fun mem => by
    obtain ⟨wanted, child, eq⟩ := List.mem_map.1 mem
    exact (children wanted child).1 eq
  have current : u.object? key = some live := by
    rw [← after.same, round.frame mine, ← first.same, there]
  obtain ⟨-, live', start', last, decoded', akin, identity, status⟩ :=
    ofLive_written calm still current decoded wrote
  have silent : Quiet t := quiet_writeStatus calm still wrote
  have other : ∀ {k y}, OnlyRead t y → k ≠ key → y.object? k = v.object? k := fun since ne => by
    rw [← since.same, writeStatus_elsewhere calm.store wrote ne, ← after.same]
  refine ⟨live', start', last, decoded', akin, ?_⟩
  constructor
  case quiet => exact silent
  case staying => exact akin.isDeleted.trans staying
  case ready => exact (congrArg OwnerStatus.ready status).trans ready
  case satisfied => exact (congrArg OwnerStatus.dependenciesSatisfied status).trans satisfied
  case phases =>
    show ∀ name ∈ Phase.names, start'.status.StatesPhase (.complete name)
    rw [status]
    exact phases
  case verdicts =>
    show e.rules.verdicts t resources.keys = .ok true
    rw [← verdicts]
    refine Rulebook.verdicts_congr _ fun k mem => Rulebook.verdict_congr_at ?_
    rw [other (.refl t) (fun eq => mine (eq ▸ mem)), after.same]
  case decided => exact fun y _ => (predictable.ownerReady akin x y).symm.trans decided
  case children =>
    intro wanted mem
    obtain ⟨ne, plain⟩ := children wanted mem
    have rested := fun {y} since => whole.rested (t := y) reads predictable (first.quiet quiet)
      resources.distinct mem plain (fun live h => stamped _ live ((first.same _).trans h))
      (fun immutable absent => (other (.refl t) ne).symm.trans
        (older wanted mem immutable ((first.same _).trans absent)))
      (fun k child => (Rulebook.verdict_congr after.same k).trans
        (Rulebook.verdict_of_verdicts verdicts child)) akin (OnlyRead.quiet since silent)
      (fun k away => other since away)
    refine ⟨e.applier.resting wanted, ?_, fun y since => ⟨(rested since).2.1, fun z since' => ?_⟩⟩
    · show Dated.stated _ _ start'.status.resources = _
      rw [status, ← spoken]
      exact (rested (.refl t)).1
    · show (e.applier.apply store wanted start'.identity).run z = _
      rw [identity]
      exact (rested since').2.2 ne

end Complete

/-- After a pass that is done and made no object of an immutable kind, the next one is done again,
at whatever time. It writes no status and only reads. -/
theorem reconcileKey_quiescent [LawfulOwner ω] {later : StateM MemoryStore Timestamp}
    {pass : Pass} {b b' : Backoff} (reads : e.ReadOnly) (clock : ∀ s, OnlyRead s (later.run s).2)
    (predictable : e.Predictable key) (quiet : Quiet s)
    (stamped : ∀ k live, s.object? k = some live → live.isStamped = true)
    (children : ∀ start, startAt e key s = some start → ∀ wanted ∈ start.resources.manifests,
      wanted.key ≠ key ∧ Manifest.ofBody wanted.body = .ok wanted ∧ isPlain wanted.body = true)
    (ran : (((standard e).reconcileKey key).run b).run s = ((pass, b'), t))
    (done : pass.result = .ok .done)
    (older : ∀ start, startAt e key s = some start → ∀ wanted ∈ start.resources.manifests,
      e.applier.immutable.contains wanted.kind = true → s.object? wanted.key = none →
        t.object? wanted.key = none) (again : Backoff) :
    ∃ next u, (((standard { e with now := later }).reconcileKey key).run again).run t = (next, u) ∧
      next.1.result = .ok .done ∧ next.1.statusWritten = false ∧ OnlyRead t u := by
  have reads' := reads.withClock clock
  suffices ∃ next u, ((standard { e with now := later }).pass key).run t = (next, u) ∧
      next.result = .ok .done ∧ next.statusWritten = false ∧ OnlyRead t u by
    obtain ⟨next, u, ran, done⟩ := this
    exact ⟨_, u, run_reconcileKey _ ran, done⟩
  cases trace_of_reconcileKey reads.store ran with
  | unread => cases done
  | undecoded => cases done
  | ungathered => cases done
  | absent got =>
    obtain ⟨absent, same, still⟩ := get_ok got
    have got' := get_of_quiet (still quiet) key
    rw [← same, absent] at got'
    exact ⟨_, _, run_pass_absent reads'.store got', rfl, rfl, .ofCount _⟩
  | @ran live start p resources u v w ending written got decoded gathered all wrote =>
    obtain rfl := complete_of_done done
    have starts : startAt e key s = some { start with resources } := startAt_eq_some.2
      ⟨live, start, resources, (get_ok got).1, decoded, by rw [got, gathered], rfl⟩
    have read := reads.keeps.get s key
    have built := kept_resources reads.keeps start.owner u
    rw [got] at read
    rw [gathered] at built
    have since := read.trans built
    obtain ⟨live', start', there', decoded', akin, rest⟩ := atRest_of_complete reads predictable
      later (since.quiet quiet) ((since.same key).symm.trans (get_ok got).1) decoded
      (fun k live h => stamped k live ((since.same k).trans h))
      (fun wanted mem => by
        obtain ⟨ne, body, plain⟩ := children _ starts wanted mem
        exact ⟨ne, Plain.ofIsPlain (Manifest.hasMetadata_of_ofBody body) plain⟩)
      all wrote fun wanted mem immutable absent =>
        older _ starts wanted mem immutable ((since.same _).trans absent)
    have regathered : (((standard { e with now := later }).resources start'.owner).run.run
        (t.get key).2).1 = .ok resources := by
      rw [resources_withClock, ← resources_agree predictable.wants akin u, gathered]
    obtain ⟨attempts, w, next, after⟩ := run_pass_of_rest reads' (startAt_eq_some.2
      ⟨live', start', resources, there', decoded', regathered, rfl⟩) rest
    exact ⟨_, w, next, rfl, rfl, after⟩

/-! ## An instance -/

section Instance

/-- The engine that wants settings for every tenant and lets them wait for their namespace. -/
def patientEngine : Engine (StateM MemoryStore) Tenant :=
  { tenantEngine [settings] with
    hooks := { (tenantEngine [settings]).hooks with
      mayApply := fun _ wanted => Rulebook.standard.namespaceReady store wanted.key } }

theorem readOnly_patientEngine : patientEngine.ReadOnly where
  store := rfl
  mutate _ _ := .refl
  mayApply _ wanted s := Rulebook.standard.onlyRead_namespaceReady wanted.key s
  ownerReady _ := .refl
  now := .refl

theorem predictable_patientEngine : patientEngine.Predictable tenantKey where
  wants := ⟨(steady_tenantEngine [settings]).generate, (steady_tenantEngine [settings]).mutate⟩
  waits := .inr ⟨fun _ _ => rfl, fun _ same =>
    absurd (congrArg ObjectKey.kind same) (show "Namespace" ≠ "TenantNamespace" by decide)⟩
  ownerReady := (steady_tenantEngine [settings]).ownerReady

/-- The store with the tenant, its older settings and its namespace. -/
def furnished : MemoryStore :=
  (staffed.insert (.object [("apiVersion", .str "v1"), ("kind", .str "Namespace"),
    ("metadata", .object [("name", .str "team")]),
    ("status", .object [("phase", .str "Active")])])).2

/-- The pass over the tenant whose settings wait for their namespace. -/
def patientPass : (Pass × Backoff) × MemoryStore :=
  (((standard patientEngine).reconcileKey tenantKey).run .standard).run furnished

theorem patientPass_quiescent :
    (patientPass.1.1.attempts = [.succeeded (.updated ⟨1, 1, 0⟩)] ∧
        patientPass.1.1.statusWritten = true) ∧
      ∃ next u, (((standard { patientEngine with now := pure (.ofSeconds 60) }).reconcileKey
          tenantKey).run .standard).run patientPass.2 = (next, u) ∧
        next.1.result = .ok .done ∧ next.1.statusWritten = false ∧ OnlyRead patientPass.2 u := by
  have stamped : furnished.objects.toList.all (·.2.isStamped) = true := by decide +kernel
  have only : ∀ start, startAt patientEngine tenantKey furnished = some start →
      start.resources.manifests = [settings] := fun start starts => by
    obtain ⟨live, first, resources, -, -, gathered, rfl⟩ := startAt_eq_some.1 starts
    exact congrArg ResourceSet.manifests (Except.ok.inj gathered).symm
  have quiet : Quiet furnished := by
    intro op
    cases op <;> decide +kernel
  have ran : patientPass = ((patientPass.1.1, patientPass.1.2), patientPass.2) := rfl
  refine ⟨⟨by decide +kernel, by decide +kernel⟩, reconcileKey_quiescent readOnly_patientEngine
    (fun _ => .refl _) predictable_patientEngine quiet (fun k live there => ?_)
    (fun start starts wanted mem => ?_) ran (by decide +kernel)
    (fun start starts wanted mem => ?_) .standard⟩
  · exact List.all_eq_true.1 stamped (k, live) (Entries.mem_toList_of_get? there)
  · rw [only start starts] at mem
    obtain rfl := List.mem_singleton.1 mem
    exact ⟨by decide, rfl, by decide +kernel⟩
  · rw [only start starts] at mem
    obtain rfl := List.mem_singleton.1 mem
    exact fun immutable => absurd immutable (by decide)

end Instance

end Reconciler

end DesiredState
