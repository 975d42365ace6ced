import DesiredState.Proofs.Reconcile.Course
import DesiredState.Proofs.Reconcile.Passes

/-!
# Passes over a store that failed passes left behind

Passes that start from one store leave it *partway*: the owner is as it was, apart from its status
and its version, and each child that a pass gets to is as it was or formed. A pass keeps a store
partway, whatever calls fail in it (`Passes.partway`). From a partway store, a pass resumes with
the same children (`Partway.resumes`).
-/

namespace DesiredState

open Json Bookkeeping MemoryStore Applier Phase

variable {ω : Type} [Owner ω] {e : Engine (StateM MemoryStore) ω} {key : ObjectKey}
  {p p' : Progress ω} {s₀ s t : MemoryStore}

/-! ## Progress that resumes -/

namespace Progress

/-- The second progress is for the same owner and the same children. -/
structure Resumes (p p' : Progress ω) : Prop where
  owner : Owner.Akin p.owner p'.owner
  identity : p'.identity = p.identity
  resources : p'.resources = p.resources

theorem Resumes.heeds (h : Resumes p p') (steady : e.hooks.Steady Owner.Akin) :
    e.Heeds p.owner p'.owner := fun wanted s => Engine.allowed_congr steady h.owner wanted s

/-- The children that a pass from this progress applies, if no call fails. -/
def applied (e : Engine (StateM MemoryStore) ω) (p : Progress ω) : List Manifest :=
  if Owner.isDeleted p.owner then [] else e.admitted p.owner p.resources.manifests

theorem applied_of_staying (h : Owner.isDeleted p.owner = false) :
    applied e p = e.admitted p.owner p.resources.manifests := by
  rw [applied, h]
  rfl

theorem mem_of_applied {wanted : Manifest} (mem : wanted ∈ applied e p) :
    wanted ∈ p.resources.manifests := by
  unfold applied at mem
  split at mem
  · cases mem
  · exact Engine.mem_of_admitted mem

/-- What the check for readiness comes to, if no call fails. -/
def checked (e : Engine (StateM MemoryStore) ω) (p : Progress ω) (s : MemoryStore) : Result Bool :=
  match e.rules.verdicts s p.resources.keys with
  | .ok true => answer (e.hooks.ownerReady p.owner)
  | result => result

/-- How a pass from this progress ends, if no call fails and it leaves this store. -/
def ending (e : Engine (StateM MemoryStore) ω) (p : Progress ω) (s : MemoryStore) : Ending :=
  if Owner.isDeleted p.owner then .halted "PreFlight" defaultDelay
  else
    match e.roundResult p.owner p.resources.manifests with
    | .ok true => endingOf "CheckReady" (.ofSeconds 5) (checked e p s)
    | result => endingOf "CreateResources" defaultDelay result

theorem ending_of_leaving (h : Owner.isDeleted p.owner = true) (s : MemoryStore) :
    ending e p s = .halted "PreFlight" defaultDelay := by
  rw [ending, h]
  rfl

theorem ending_of_stopped (h : Owner.isDeleted p.owner = false)
    (halt : e.roundResult p.owner p.resources.manifests ≠ .ok true) (s : MemoryStore) :
    ending e p s = endingOf "CreateResources" defaultDelay
      (e.roundResult p.owner p.resources.manifests) := by
  rw [ending, h]
  rcases round : e.roundResult p.owner p.resources.manifests with error | _ | _
  · rfl
  · rfl
  · exact absurd round halt

theorem ending_of_checked (h : Owner.isDeleted p.owner = false)
    (round : e.roundResult p.owner p.resources.manifests = .ok true) (s : MemoryStore) :
    ending e p s = endingOf "CheckReady" (.ofSeconds 5) (checked e p s) := by
  rw [ending, h, round]
  rfl

omit [Owner ω] in
theorem checked_congr (h : ∀ k ∈ p.resources.keys, e.rules.verdict s k = e.rules.verdict t k) :
    checked e p s = checked e p t := by
  unfold checked
  rw [Rulebook.verdicts_congr _ h]

/-- The ending depends on the verdicts on the children alone. -/
theorem ending_congr (h : ∀ k ∈ p.resources.keys, e.rules.verdict s k = e.rules.verdict t k) :
    ending e p s = ending e p t := by
  unfold ending
  rw [checked_congr h]

end Progress

open Progress

/-! ## Phases -/

namespace Phase

section Phases

variable {result : Ending} {attempts : List Attempt} (resumes : Resumes p p')
  (h : Phases e p' s t result attempts)

section Untouched

variable [LawfulOwner ω] (steady : e.hooks.Steady Owner.Akin)

include resumes steady h in
/-- The phases write under the keys of admitted children alone. -/
theorem Phases.untouched {k : ObjectKey} (new : k ∉ (applied e p).map Manifest.key) :
    t.object? k = s.object? k := by
  cases h with
  | deleted _ idle => exact (idle.same k).symm
  | stopped staying before round _ after =>
    rw [applied_of_staying (resumes.owner.isDeleted.symm.trans staying)] at new
    rw [resumes.resources] at round
    rw [← after.same, round.untouched (resumes.heeds steady) new, ← before.same]
  | checked staying before round between check after =>
    rw [applied_of_staying (resumes.owner.isDeleted.symm.trans staying)] at new
    rw [resumes.resources] at round
    rw [← after.same, ← check.idle.same, ← between.same,
      round.untouched (resumes.heeds steady) new, ← before.same]

end Untouched

include resumes h in
/-- The phases leave every child as it was before or formed. -/
theorem Phases.reaches {wanted : Manifest} (mem : wanted ∈ p.resources.manifests)
    {before : Option Json} (plain : Plain wanted.body)
    (kept : ∀ live, before = some live → live.hasMetadata = true)
    (reached : Reached e.applier wanted p.identity before s) :
    Reached e.applier wanted p.identity before t := by
  cases h with
  | deleted _ idle => exact reached.congr idle.same
  | stopped _ first round _ after =>
    rw [resumes.resources, resumes.identity] at round
    exact (round.reaches p.resources.distinct mem plain kept
      (reached.congr first.same)).congr after.same
  | checked _ first round between check after =>
    rw [resumes.resources, resumes.identity] at round
    exact (((round.reaches p.resources.distinct mem plain kept
      (reached.congr first.same)).congr between.same).congr check.idle.same).congr after.same

section Forms

variable (steady : e.hooks.Steady Owner.Akin)

include resumes steady in
/-- The check comes to the same for both owners, if no call fails. -/
theorem Check.result_eq {result : Result Bool} (quiet : Quiet s)
    (h : Check e p'.owner p.resources.keys s t result) : result = checked e p s := by
  unfold checked
  cases h with
  | interrupted loud => exact absurd quiet loud
  | unready verdict halt =>
    rw [verdict]
    rcases result with error | _ | _
    · rfl
    · rfl
    · exact absurd rfl halt
  | @decided u result verdict decided =>
    rw [verdict]
    exact decided.symm.trans (steady.ownerReady resumes.owner default u).symm

variable [LawfulOwner ω]

include resumes steady h in
/-- Where no call fails, the phases end as the hooks and the rules say, and form every admitted
child. -/
theorem Phases.forms (calm : e.Harmless) (discreet : e.Discreet) (quiet : Quiet s)
    {before : ObjectKey → Option Json}
    (stamped : ∀ k live, before k = some live → live.isStamped = true)
    (reached : ∀ wanted ∈ applied e p,
      Plain wanted.body ∧ Reached e.applier wanted p.identity (before wanted.key) s) :
    result = ending e p t ∧ ∀ wanted ∈ applied e p,
      ∃ object, t.object? wanted.key = some object ∧
        Formed e.applier wanted p.identity (before wanted.key) object := by
  have heeds := resumes.heeds steady
  have deletion := resumes.owner.isDeleted
  cases h with
  | deleted leaving idle =>
    have leaving := deletion.symm.trans leaving
    rw [ending_of_leaving leaving, applied, leaving]
    exact ⟨rfl, nofun⟩
  | stopped staying first round halt after =>
    have staying := deletion.symm.trans staying
    rw [resumes.resources, resumes.identity] at round
    rw [applied_of_staying staying] at reached ⊢
    obtain ⟨ended, all⟩ := round.forms heeds calm discreet (first.quiet discreet quiet)
      p.resources.distinct stamped
      fun wanted mem => ⟨(reached wanted mem).1, (reached wanted mem).2.congr first.same⟩
    rw [ended] at halt
    rw [ending_of_stopped staying halt, ended]
    refine ⟨rfl, fun wanted mem => ?_⟩
    rw [← after.same]
    exact all wanted mem
  | @checked u v w x result attempts staying first round between check after =>
    have staying := deletion.symm.trans staying
    rw [resumes.resources, resumes.identity] at round
    rw [resumes.resources] at check
    rw [applied_of_staying staying] at reached ⊢
    have silent := first.quiet discreet quiet
    obtain ⟨ended, all⟩ := round.forms heeds calm discreet silent p.resources.distinct stamped
      fun wanted mem => ⟨(reached wanted mem).1, (reached wanted mem).2.congr first.same⟩
    have same : SameObjects w t := SameObjects.trans check.idle.same after.same
    have found := check.result_eq resumes steady
      (between.quiet discreet (round.quiet discreet silent))
    rw [checked_congr fun k _ => Rulebook.verdict_congr same k] at found
    rw [ending_of_checked staying ended.symm, found]
    refine ⟨rfl, fun wanted mem => ?_⟩
    rw [← same, ← between.same]
    exact all wanted mem

end Forms

end Phases

end Phase

/-! ## Where a pass starts -/

namespace Reconciler

section Resources

variable (steady : e.hooks.SteadyWants Owner.Akin) {owner owner' : ω}
  (akin : Owner.Akin owner owner')

include steady akin

/-- Both owners get the same set of resources, whatever is stored. -/
theorem gather_agree (l : List Manifest) (set : ResourceSet) :
    Agree ((standard e).gather owner l set) ((standard e).gather owner' l set) := by
  induction l generalizing set with
  | nil => exact fun _ _ => rfl
  | cons wanted rest ih =>
    intro s t
    have agree := steady.mutate wanted akin s t
    rw [run_gather_cons, run_gather_cons, show (standard e).engine = e from rfl]
    rcases ran : (e.hooks.mutate owner wanted).run.run s with ⟨result, u⟩
    rcases ran' : (e.hooks.mutate owner' wanted).run.run t with ⟨result', v⟩
    rw [ran, ran'] at agree
    obtain rfl : result = result' := agree
    cases result with
    | error error => rfl
    | ok mutation => exact ih _ u v

theorem resources_agree : Agree ((standard e).resources owner) ((standard e).resources owner') := by
  unfold resources
  rw [show (standard e).engine = e from rfl, steady.generate akin]
  cases e.hooks.generate owner' with
  | error error => exact fun _ _ => rfl
  | ok wanted => exact gather_agree steady akin wanted .empty

end Resources

/-- A live owner whose status was written starts as before, with that status. -/
theorem ofLive_rewritten [LawfulOwner ω] {live : Json} {start : Progress ω}
    (h : Progress.ofLive live = .ok start) (status : OwnerStatus) (version : String) :
    ∃ start', Progress.ofLive (Owner.rewritten live status version) = .ok start' ∧
      Owner.Akin start.owner start'.owner ∧ start'.identity = start.identity ∧
      start'.status = status := by
  obtain ⟨identity, decoded, identified, eq⟩ := ofLive_eq_ok.1 h
  obtain ⟨o', decoded', stated, -⟩ :=
    Owner.reread (Owner.hasMetadata_of_decode decoded) status version decoded
  have akin : Owner.Akin start.owner o' := .inr ⟨live, status, version, decoded, decoded'⟩
  exact ⟨⟨o', Owner.key o', identity, .empty, (Owner.status? o').getD .empty, []⟩,
    ofLive_eq_ok.2 ⟨identity, decoded', akin.identity.trans identified, rfl⟩, akin, by rw [eq],
    by rw [stated]; rfl⟩

/-! ## Stores that passes leave behind -/

/-- What passes leave behind of a store from which they start with this progress. -/
structure Partway (e : Engine (StateM MemoryStore) ω) (key : ObjectKey) (p : Progress ω)
    (s₀ s : MemoryStore) : Prop where
  /-- Nothing of the owner was written but its status. -/
  owner : ∃ live, s₀.object? key = some live ∧ (s.object? key = some live ∨
    ∃ status version, s.object? key = some (Owner.rewritten live status version))
  reached : ∀ wanted ∈ p.resources.manifests,
    Reached e.applier wanted p.identity (s₀.object? wanted.key) s
  untouched : ∀ k, k ≠ key → k ∉ (applied e p).map Manifest.key → s.object? k = s₀.object? k

theorem Partway.start {live : Json} (there : s₀.object? key = some live) :
    Partway e key p s₀ s₀ :=
  ⟨⟨live, there, .inl there⟩, fun _ _ => .inl rfl, fun _ _ _ => rfl⟩

theorem Partway.congr (h : Partway e key p s₀ s) (same : SameObjects s t) :
    Partway e key p s₀ t where
  owner := by
    rw [← same key]
    exact h.owner
  reached wanted mem := (h.reached wanted mem).congr same
  untouched k ne new := (same k).symm.trans (h.untouched k ne new)

/-- A pass from a partway store resumes what a pass from the first store starts. -/
theorem Partway.resumes [LawfulOwner ω] (steady : e.hooks.Steady Owner.Akin)
    (starts : startAt e key s₀ = some p) (h : Partway e key p s₀ s) :
    ∃ p', startAt e key s = some p' ∧ Resumes p p' := by
  obtain ⟨live, start, resources, there, decoded, gathered, rfl⟩ := startAt_eq_some.1 starts
  obtain ⟨live', there', owner⟩ := h.owner
  obtain rfl := Option.some.inj (there.symm.trans there')
  have again : ∀ {start' : Progress ω}, Owner.Akin start.owner start'.owner →
      (((standard e).resources start'.owner).run.run (s.get key).2).1 = .ok resources :=
    fun akin => (resources_agree steady.wants akin _ _).symm.trans gathered
  rcases owner with same | ⟨status, version, written⟩
  · exact ⟨_, startAt_eq_some.2 ⟨live, start, resources, same, decoded, again (.refl _), rfl⟩,
      .refl _, rfl, rfl⟩
  · obtain ⟨start', decoded', akin, identity, -⟩ := ofLive_rewritten decoded status version
    exact ⟨_, startAt_eq_some.2 ⟨_, start', resources, written, decoded', again akin, rfl⟩,
      akin, identity, rfl⟩

end Reconciler

end DesiredState
