import DesiredState.Proofs.Reconcile.Completion

/-!
# Passes that find nothing to do

A progress is *at rest* in a store if every child is as it is wanted, everything is ready, and the
status says all that a pass would say of it. From there a pass is done and only reads
(`run_pass_of_rest`): no call that could write is made, and neither the store nor the status
changes, whatever the clock says.
-/

namespace DesiredState

/-! ## Stores that are only read -/

namespace MemoryStore

/-- Only reads lie between the stores: nothing was written, no call was made that could write, and
no failure was queued. -/
structure OnlyRead (s t : MemoryStore) : Prop where
  family : t.family = s.family
  objects : t.objects = s.objects
  version : t.version = s.version
  issued : t.issued = s.issued
  creates : t.calls .create = s.calls .create
  patches : t.calls .patch = s.calls .patch
  statusUpdates : t.calls .updateStatus = s.calls .updateStatus
  quiet : Quiet s → Quiet t

namespace OnlyRead

variable {s t u : MemoryStore}

theorem refl (s : MemoryStore) : OnlyRead s s := ⟨rfl, rfl, rfl, rfl, rfl, rfl, rfl, id⟩

theorem trans (h : OnlyRead s t) (h' : OnlyRead t u) : OnlyRead s u where
  family := h'.family.trans h.family
  objects := h'.objects.trans h.objects
  version := h'.version.trans h.version
  issued := h'.issued.trans h.issued
  creates := h'.creates.trans h.creates
  patches := h'.patches.trans h.patches
  statusUpdates := h'.statusUpdates.trans h.statusUpdates
  quiet quiet := h'.quiet (h.quiet quiet)

theorem same (h : OnlyRead s t) : SameObjects s t := fun k => by
  rw [object?, object?, h.objects]

/-- A call that reads is counted. -/
theorem ofCount (s : MemoryStore) : OnlyRead s (s.count .get) :=
  ⟨rfl, rfl, rfl, rfl, rfl, rfl, rfl, id⟩

theorem ofGet (s : MemoryStore) (key : ObjectKey) : OnlyRead s (s.get key).2 := by
  have still := fun found t (got : s.get key = (.ok found, t)) => (get_ok got).2.2
  have loud := fun error t (got : s.get key = (.error error, t)) => (get_error got).1
  rcases attempt_cases s .get fun s => (.ok (s.object? key), s) with ⟨e, got⟩ | got
  all_goals
    rw [MemoryStore.get, got]
  · exact ⟨rfl, rfl, rfl, rfl, rfl, rfl, rfl, fun quiet => absurd quiet (loud _ _ got)⟩
  · exact ⟨rfl, rfl, rfl, rfl, rfl, rfl, rfl, still _ _ got⟩

end OnlyRead

end MemoryStore

open MemoryStore Step Progress

/-- Asking for the namespace of an object only reads. -/
theorem Rulebook.onlyRead_namespaceReady (b : Rulebook) (key : ObjectKey) (s : MemoryStore) :
    OnlyRead s ((b.namespaceReady store key).run.run s).2 := by
  have looks : ∀ key, (Guarantees.along OnlyRead.refl OnlyRead.trans).Allows (store.get key).run :=
    fun key s => ⟨OnlyRead.ofGet s key, trivial⟩
  exact (b.allows_namespaceReady looks key s).1

/-- The engine works on the store in memory, which its hooks and its clock only read. -/
structure Engine.ReadOnly {ω : Type} (e : Engine (StateM MemoryStore) ω) : Prop where
  store : e.store = MemoryStore.store
  mutate : ∀ owner wanted s, OnlyRead s ((e.hooks.mutate owner wanted).run.run s).2
  mayApply : ∀ owner wanted s, OnlyRead s ((e.hooks.mayApply owner wanted).run.run s).2
  ownerReady : ∀ owner s, OnlyRead s ((e.hooks.ownerReady owner).run.run s).2
  now : ∀ s, OnlyRead s (e.now.run s).2

namespace Engine.ReadOnly

variable {ω : Type} {e : Engine (StateM MemoryStore) ω} (reads : e.ReadOnly)

include reads

theorem keeps : e.Keeps OnlyRead :=
  ⟨.refl, .trans, .ofGet, reads.mutate, reads.mayApply, reads.ownerReady, reads.now⟩

theorem harmless : e.Harmless :=
  ⟨reads.store, fun _ _ s => (reads.mutate _ _ s).same, fun _ _ s => (reads.mayApply _ _ s).same,
    fun _ s => (reads.ownerReady _ s).same, fun s => (reads.now s).same⟩

theorem discreet : e.Discreet :=
  ⟨fun _ _ s => (reads.mutate _ _ s).quiet, fun _ _ s => (reads.mayApply _ _ s).quiet,
    fun _ s => (reads.ownerReady _ s).quiet, fun s => (reads.now s).quiet⟩

/-- At another time the engine reads as it did. -/
theorem withClock {later : StateM MemoryStore Timestamp}
    (clock : ∀ s, OnlyRead s (later.run s).2) : Engine.ReadOnly { e with now := later } :=
  ⟨reads.store, reads.mutate, reads.mayApply, reads.ownerReady, clock⟩

end Engine.ReadOnly

/-! ## Progress at rest -/

section Notes

variable {ω : Type} {p : Progress ω}

theorem Progress.notePhase_of_states {report : PhaseReport} (h : p.status.StatesPhase report)
    (now : Timestamp) : p.notePhase now report = p := by
  show { p with status := (p.status.setPhase now.text (.undated report)).1 } = p
  rw [OwnerStatus.setPhase_of_states h]

theorem Progress.noteResource_of_states {report : ResourceReport}
    (h : p.status.StatesResource report) (now : Timestamp) : p.noteResource now report = p := by
  show { p with status := (p.status.setResource now.text (.undated report)).1 } = p
  rw [OwnerStatus.setResource_of_states h]

end Notes

/-- The names of the standard phases. -/
def Phase.names : List String := ["PreFlight", "CreateResources", "CheckReady", "Complete"]

/-- There is nothing left to do for this progress in the store. -/
structure AtRest {ω : Type} [Owner ω] (e : Engine (StateM MemoryStore) ω) (p : Progress ω)
    (s : MemoryStore) : Prop where
  quiet : Quiet s
  staying : Owner.isDeleted p.owner = false
  ready : p.status.ready = true
  satisfied : p.status.dependenciesSatisfied = true
  phases : ∀ name ∈ Phase.names, p.status.StatesPhase (.complete name)
  /-- A child is admitted, its application has nothing to do, and the status says so already. -/
  children : ∀ wanted ∈ p.resources.manifests, ∃ applied,
    p.status.StatesResource (.attempted wanted.key true (.succeeded applied)) ∧
      ∀ u, OnlyRead s u → ((e.hooks.mayApply p.owner wanted).run.run u).1 = .ok true ∧
        ∀ v, OnlyRead s v →
          (e.applier.apply store wanted p.identity).run v = (.succeeded applied, v.count .get)
  verdicts : e.rules.verdicts s p.resources.keys = .ok true
  decided : ∀ u, OnlyRead s u → ((e.hooks.ownerReady p.owner).run.run u).1 = .ok true

namespace AtRest

variable {ω : Type} [Owner ω] {e : Engine (StateM MemoryStore) ω} {p : Progress ω}
  {s u : MemoryStore}

section Notes

variable (rest : AtRest e p s)

include rest

/-- What was attempted so far does not matter. -/
theorem tried (attempts : List Attempt) : AtRest e { p with attempts } s :=
  ⟨rest.quiet, rest.staying, rest.ready, rest.satisfied, rest.phases, rest.children,
    rest.verdicts, rest.decided⟩

theorem notePhase_eq {name : String} (mem : name ∈ Phase.names) (now : Timestamp) :
    p.notePhase now (.complete name) = p := notePhase_of_states (rest.phases name mem) now

theorem admitted_eq (now : Timestamp) : Phase.admitted now p = p := by
  unfold Phase.admitted
  rw [show p.withStatus ({ · with dependenciesSatisfied := true }) = p by
    unfold withStatus
    rw [← rest.satisfied]]
  exact rest.notePhase_eq (by decide) now

theorem setReady_eq : p.setReady true = p := by
  unfold setReady withStatus
  rw [← rest.ready]

end Notes

variable (reads : e.ReadOnly) (rest : AtRest e p s) (since : OnlyRead s u)

include reads rest since

/-- A round over children at rest goes through, and adds its attempts to the progress alone. -/
theorem round {l : List Manifest} (sub : ∀ wanted ∈ l, wanted ∈ p.resources.manifests)
    (before : List Attempt) :
    ∃ attempts v, e.Whole l { p with attempts := before } u { p with attempts } v ∧
      OnlyRead s v := by
  induction l generalizing before u with
  | nil => exact ⟨before, u, .nil _ u, since⟩
  | cons wanted others ih =>
    obtain ⟨applied, states, going⟩ := rest.children wanted (sub wanted List.mem_cons_self)
    obtain ⟨answer, applies⟩ := going u since
    have admitted := since.trans (reads.mayApply p.owner wanted u)
    have ran := applies _ admitted
    rw [← reads.store] at ran
    have looked := admitted.trans ((OnlyRead.ofCount _).trans (reads.now _))
    obtain ⟨attempts, v, whole, after⟩ := ih looked (fun wanted mem =>
      sub wanted (List.mem_cons_of_mem _ mem)) (before ++ [.succeeded applied])
    refine ⟨attempts, v, .cons (Prod.ext answer rfl) ran ?_, after⟩
    rw [show e.attempted wanted (.succeeded applied) { p with attempts := before } _ =
      { p with attempts := before ++ [.succeeded applied] } from
        noteResource_of_states (p := { p with attempts := before ++ [.succeeded applied] })
          states _]
    exact whole

/-- The phases go through and add attempts to the progress alone. -/
theorem runAll : ∃ attempts v, (Phase.runAll e.now (Phase.standard e) p).run u =
    ((.complete, { p with attempts := attempts }), v) ∧ OnlyRead s v := by
  obtain ⟨attempts, v, whole, after⟩ :=
    rest.round reads (since.trans (reads.now u)) (fun _ => id) p.attempts
  have noted := after.trans (reads.now v)
  have asked := Phase.kept_areReady reads.keeps e.rules p.resources.keys (e.now.run v).2
  obtain ⟨result, w, ran, -, -, found⟩ := e.rules.areReady_cases (e.now.run v).2 p.resources.keys
  have found : result = .ok true := by
    rcases found with rfl | ⟨loud, -⟩
    · rw [← rest.verdicts]
      exact Rulebook.verdicts_congr _ fun k _ => (Rulebook.verdict_congr noted.same k).symm
    · exact absurd (noted.quiet rest.quiet) loud
  rw [ran] at asked
  have checked := noted.trans asked
  have decided := checked.trans (reads.ownerReady p.owner w)
  refine ⟨attempts, _, Phase.runAll_standard_iff.2 ⟨rest.staying, { p with attempts }, v, w, _,
    ?_, ?_, Prod.ext (rest.decided w checked) rfl, ?_, rfl⟩,
    (decided.trans (reads.now _)).trans (reads.now _)⟩
  · rw [rest.admitted_eq]
    exact whole
  · rw [reads.store, ran, found]
  · rw [(rest.tried attempts).notePhase_eq (by decide),
      (rest.tried attempts).notePhase_eq (by decide), (rest.tried attempts).setReady_eq,
      (rest.tried attempts).notePhase_eq (by decide)]

end AtRest

/-- A pass that starts at rest is done, writes no status and only reads. -/
theorem Reconciler.run_pass_of_rest {ω : Type} [Owner ω] {e : Engine (StateM MemoryStore) ω}
    {p : Progress ω} {key : ObjectKey} {s : MemoryStore} (reads : e.ReadOnly)
    (starts : startAt e key s = some p) (rest : AtRest e p s) :
    ∃ attempts t, ((standard e).pass key).run s = (⟨.ok .done, true, attempts, false⟩, t) ∧
      OnlyRead s t := by
  obtain ⟨live, start, resources, there, decoded, gathered, rfl⟩ := startAt_eq_some.1 starts
  have got := get_of_quiet rest.quiet key
  have read := kept_resources reads.keeps start.owner (s.count .get)
  rw [there] at got
  rw [got] at gathered
  rcases ran : ((standard e).resources start.owner).run.run (s.count .get) with ⟨result, u⟩
  rw [ran] at gathered read
  obtain rfl : result = .ok resources := gathered
  obtain ⟨attempts, v, all, after⟩ := rest.runAll reads ((OnlyRead.ofCount s).trans read)
  have wrote : ((standard e).writeStatus key live start.status start.status).run v =
      (.ok false, v) := by rw [run_writeStatus reads.store, if_pos rfl]
  exact ⟨attempts, v, (run_pass reads.store got decoded).trans (run_passOver ran all wrote), after⟩

end DesiredState
