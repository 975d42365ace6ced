import DesiredState.Proofs.Readiness.Stamps
import DesiredState.Proofs.Reconcile.Resumption
import DesiredState.Proofs.Reconcile.Soundness

/-!
# Passes after failed passes

A pass in which no call fails makes up for all the failures before it (`reconcileKey_reentrant`).

1. A pass keeps a store partway, whatever fails in it (`Passes.partway`), so any number of them do.
2. From a partway store, a pass in which no call fails settles every child it gets to, and its
   ending depends on the hooks and on what the rules say of the children (`Passes.settled`).
3. Settled stores are alike (`Settled.alike`), and the rules do not tell alike objects apart.
-/

namespace DesiredState.Reconciler

open Json Bookkeeping MemoryStore Applier Phase Progress

variable {ω : Type} [Owner ω] {e : Engine (StateM MemoryStore) ω} {key : ObjectKey}
  {p p' : Progress ω} {s₀ s t : MemoryStore} {pass : Pass} {live : Json}

/-! ## Writes of the status -/

/-- What the store makes of an owner whose status is written. -/
theorem restated_status (s : MemoryStore) (current : Json) (h : live.hasMetadata = true)
    (status : OwnerStatus) :
    s.restated current (live.setMember "status" status.encode) =
      Owner.rewritten current status (toString (s.version + 1)) := by
  obtain ⟨fields, rfl⟩ := eq_obj_of_isObject (isObject_of_hasMetadata h)
  have there : ((obj fields).setMember "status" status.encode).member? "status" =
      some status.encode := by
    rw [member?_setMember, if_pos rfl]
  unfold restated
  rw [there]
  rfl

/-- A status that is stated at the live version is not stale. -/
theorem fresh_setMember (h : live.hasMetadata = true) (status : Json) :
    staleVersion? (live.setMember "status" status) live = none := by
  refine fresh_of_version ?_
  rw [versionOf_eq, versionOf_eq, (metadata_setMember status (by decide) h).2]

/-- A status that changed is written, if no call fails. -/
theorem writeStatus_of_quiet (calm : e.Harmless) (quiet : Quiet s)
    (there : s.object? key = some live) (h : live.hasMetadata = true) {before after : OwnerStatus}
    (differ : before ≠ after) :
    (((standard e).writeStatus key live before after).run s).1 = .ok true := by
  have written := updateStatus_of_quiet quiet there (fresh_setMember h after.encode)
  rw [run_writeStatus calm.store, if_neg differ]
  rcases ran : s.updateStatus key (live.setMember "status" after.encode) with ⟨result, t⟩
  rw [ran] at written
  obtain rfl : result = .ok _ := written
  rfl

/-- The readiness that the status of an owner states. -/
def storedReady (ω : Type) [Owner ω] (key : ObjectKey) (s : MemoryStore) : Option Bool := do
  let live ← s.object? key
  let owner : ω ← (Owner.decode live).toOption
  let status ← Owner.status? owner
  return status.ready

theorem storedReady_of_decode {owner : ω} {status : OwnerStatus}
    (there : s.object? key = some live) (decoded : Owner.decode live = .ok owner)
    (stated : Owner.status? owner = some status) : storedReady ω key s = some status.ready := by
  unfold storedReady
  rw [there]
  show ((Owner.decode live : Except _ ω).toOption.bind fun owner => _) = _
  rw [decoded]
  show ((Owner.status? owner).bind fun status => _) = _
  rw [stated]
  rfl

/-- After the status was written, if no call fails, the owner starts as before, with the status
that the pass came to. -/
theorem ofLive_written [LawfulOwner ω] (calm : e.Harmless) (quiet : Quiet s)
    (there : s.object? key = some live) {start : Progress ω}
    (decoded : Progress.ofLive live = .ok start) {after : OwnerStatus} {written : Result Bool}
    (wrote : ((standard e).writeStatus key live start.status after).run s = (written, t)) :
    (∃ b, written = .ok b) ∧ ∃ live' start', t.object? key = some live' ∧
      Progress.ofLive live' = .ok start' ∧ Owner.Akin start.owner start'.owner ∧
      start'.identity = start.identity ∧ start'.status = after := by
  obtain ⟨identity, read, -, -⟩ := ofLive_eq_ok.1 decoded
  have kept := Owner.hasMetadata_of_decode read
  by_cases unchanged : start.status = after
  · rw [run_writeStatus calm.store, if_pos unchanged] at wrote
    obtain ⟨rfl, rfl⟩ := Prod.mk.inj wrote
    exact ⟨⟨false, rfl⟩, live, start, there, decoded, .refl _, rfl, unchanged⟩
  · have success := writeStatus_of_quiet calm quiet there kept unchanged
    rw [wrote] at success
    rcases writeStatus_cases calm.store wrote with ⟨fails, -⟩ | ⟨-, current, there', only⟩
    · exact absurd success fails
    · obtain rfl := Option.some.inj (there.symm.trans there')
      have last : t.object? key = some (Owner.rewritten live after (toString (s.version + 1))) := by
        rw [only, if_pos rfl, restated_status s live kept]
      obtain ⟨start', again⟩ := ofLive_rewritten decoded after (toString (s.version + 1))
      exact ⟨⟨true, success⟩, _, start', last, again⟩

/-- After a pass, the status of the owner states the readiness that the pass came to. -/
theorem storedReady_written [LawfulOwner ω] (calm : e.Harmless) (quiet : Quiet s)
    (there : s.object? key = some live) {start : Progress ω}
    (decoded : Progress.ofLive live = .ok start) {after : OwnerStatus}
    (noted : after.conditions ≠ []) {written : Result Bool}
    (wrote : ((standard e).writeStatus key live start.status after).run s = (written, t)) :
    (∃ b, written = .ok b) ∧ storedReady ω key t = some after.ready := by
  obtain ⟨success, live', start', last, decoded', -, -, status⟩ :=
    ofLive_written calm quiet there decoded wrote
  obtain ⟨identity, read, -, eq⟩ := ofLive_eq_ok.1 decoded'
  refine ⟨success, storedReady_of_decode last read ?_⟩
  have stated : (Owner.status? start'.owner).getD .empty = after := by
    rw [eq] at status
    exact status
  cases none : Owner.status? start'.owner with
  | none =>
    rw [none] at stated
    exact absurd (by rw [← stated]; rfl) noted
  | some status => rw [none] at stated; exact congrArg some stated

/-! ## Passes over partway stores -/

section Partway

variable [LawfulOwner ω] (calm : e.Harmless) (steady : e.hooks.Steady Owner.Akin)
  (starts : startAt e key s₀ = some p)
  (stamped : ∀ k live, s₀.object? k = some live → live.isStamped = true)
  (children : ∀ wanted ∈ p.resources.manifests, wanted.key ≠ key ∧ Plain wanted.body)

omit [LawfulOwner ω] in
include children in
theorem owner_not_applied : key ∉ (applied e p).map Manifest.key := by
  intro mem
  obtain ⟨wanted, mem, eq⟩ := List.mem_map.1 mem
  exact (children wanted (mem_of_applied mem)).1 eq

include steady stamped children in
/-- The phases keep a store partway. -/
theorem Partway.phases (partway : Partway e key p s₀ s) (resumes : Resumes p p')
    {ending : Ending} {attempts : List Attempt} (h : Phases e p' s t ending attempts) :
    Partway e key p s₀ t where
  owner := by
    rw [h.untouched resumes steady (owner_not_applied children)]
    exact partway.owner
  reached wanted mem :=
    h.reaches resumes mem (children wanted mem).2
      (fun live there => hasMetadata_of_isStamped (stamped _ live there))
      (partway.reached wanted mem)
  untouched k ne new := (h.untouched resumes steady new).trans (partway.untouched k ne new)

omit [LawfulOwner ω] in
include calm stamped children in
/-- A write of the status keeps a store partway. -/
theorem Partway.status (partway : Partway e key p s₀ s) (h : live.hasMetadata = true)
    (before after : OwnerStatus) {written : Result Bool}
    (wrote : ((standard e).writeStatus key live before after).run s = (written, t)) :
    Partway e key p s₀ t := by
  have other : ∀ {k}, k ≠ key → t.object? k = s.object? k := writeStatus_elsewhere calm.store wrote
  rcases writeStatus_cases calm.store wrote with ⟨-, same⟩ | ⟨-, current, there, only⟩
  · exact partway.congr same
  · refine ⟨?_, fun wanted mem => ?_, fun k ne new => ?_⟩
    · obtain ⟨first, there₀, now⟩ := partway.owner
      have kept := hasMetadata_of_isStamped (stamped key first there₀)
      have last : t.object? key =
          some (Owner.rewritten current after (toString (s.version + 1))) := by
        rw [only, if_pos rfl, restated_status s current h]
      refine ⟨first, there₀, .inr ⟨after, toString (s.version + 1), last.trans ?_⟩⟩
      rcases now with same | ⟨status, version, written⟩
      · rw [Option.some.inj (same.symm.trans there)]
      · rw [← Option.some.inj (written.symm.trans there), Owner.rewritten_rewritten kept]
    · exact (partway.reached wanted mem).congr_at (other (children wanted mem).1)
    · exact (other ne).trans (partway.untouched k ne new)

include calm steady starts stamped children in
/-- A pass keeps a store partway, whatever fails in it. -/
theorem Passes.partway (partway : Partway e key p s₀ s) (h : Passes e key s t pass) :
    Partway e key p s₀ t := by
  obtain ⟨p', starts', resumes⟩ := partway.resumes steady starts
  cases h with
  | unread _ same => exact partway.congr same
  | absent _ same => exact partway.congr same
  | undecoded _ _ same => exact partway.congr same
  | ungathered _ _ _ _ same => exact partway.congr same
  | @ran live start q resources u v w ending attempts written there decoded read again gathered
      phases _ _ _ wrote =>
    obtain rfl := Option.some.inj (starts'.symm.trans again)
    obtain ⟨identity, owner, -, -⟩ := ofLive_eq_ok.1 decoded
    have idle := idle_resources calm start.owner u
    rw [gathered] at idle
    have first := partway.congr (SameObjects.trans read.same idle.same)
    exact (first.phases steady stamped children resumes phases).status calm stamped children
      (Owner.hasMetadata_of_decode owner) _ _ wrote

/-! ## Passes in which no call fails -/

/-- Every child that passes from this progress apply is formed of what was in the first store. -/
structure Settled (e : Engine (StateM MemoryStore) ω) (key : ObjectKey) (p : Progress ω)
    (s₀ t : MemoryStore) : Prop where
  formed : ∀ wanted ∈ applied e p, ∃ object, t.object? wanted.key = some object ∧
    Formed e.applier wanted p.identity (s₀.object? wanted.key) object
  untouched : ∀ k, k ≠ key → k ∉ (applied e p).map Manifest.key → t.object? k = s₀.object? k

include calm steady starts stamped children in
/-- A pass from a partway store in which no call fails settles it, and ends as the hooks and the
rules say. -/
theorem Passes.settled (discreet : e.Discreet) (quiet : Quiet s)
    (partway : Partway e key p s₀ s) (h : Passes e key s t pass) :
    Settled e key p s₀ t ∧ pass.result = Pass.conclude (ending e p t) (.ok true) ∧
      storedReady ω key t = some (isComplete (ending e p t)) := by
  have untouched := (h.partway calm steady starts stamped children partway).untouched
  obtain ⟨p', starts', resumes⟩ := partway.resumes steady starts
  obtain ⟨live', start', resources', there', decoded', gathered', -⟩ := startAt_eq_some.1 starts'
  cases h with
  | unread loud => exact absurd quiet loud
  | absent none => rw [none] at there'; cases there'
  | undecoded there decoded =>
    obtain rfl := Option.some.inj (there.symm.trans there')
    rw [decoded] at decoded'
    cases decoded'
  | @ungathered live start error u there decoded read gathered =>
    obtain rfl := Option.some.inj (there.symm.trans there')
    obtain rfl := Except.ok.inj (decoded.symm.trans decoded')
    rw [resources_agree steady.wants (.refl start.owner) u _, gathered'] at gathered
    cases gathered
  | @ran live start q resources u v w ended attempts written there decoded read again gathered
      phases follows ready noted wrote =>
    obtain rfl := Option.some.inj (starts'.symm.trans again)
    have idle := idle_resources calm start.owner u
    rw [gathered] at idle
    have same : SameObjects s v := SameObjects.trans read.same idle.same
    have silent : Quiet v := idle.quiet discreet (read.quiet discreet quiet)
    obtain ⟨rfl, formed⟩ := phases.forms resumes steady calm discreet silent
      stamped fun wanted mem =>
        ⟨(children wanted (mem_of_applied mem)).2,
          (partway.reached wanted (mem_of_applied mem)).congr same⟩
    have current : w.object? key = some live := by
      rw [phases.untouched resumes steady (owner_not_applied children), ← same, there]
    obtain ⟨⟨b, rfl⟩, stored⟩ := storedReady_written calm
      (phases.quiet discreet silent) current decoded noted wrote
    have other : ∀ {k}, k ≠ key → t.object? k = w.object? k :=
      writeStatus_elsewhere calm.store wrote
    have last : ending e p w = ending e p t := ending_congr fun k mem => by
      obtain ⟨wanted, child, rfl⟩ := List.mem_map.1 mem
      exact Rulebook.verdict_congr_at (other (children wanted child).1).symm
    refine ⟨⟨fun wanted mem => ?_, untouched⟩, ?_, ?_⟩
    · rw [other (children wanted (mem_of_applied mem)).1]
      exact formed wanted mem
    · rw [← last]
      cases ending e p w <;> rfl
    · rw [stored, ready, last]

omit [LawfulOwner ω] in
include stamped children in
/-- Settled stores hold alike objects, apart from the owner. -/
theorem Settled.alike (h : Settled e key p s₀ s) (h' : Settled e key p s₀ t) {k : ObjectKey}
    (ne : k ≠ key) :
    Option.Rel (fun x y => Alike x y ∧ x.hasMetadata = true) (s.object? k) (t.object? k) := by
  have kept : ∀ k live, s₀.object? k = some live → live.hasMetadata = true := fun k live there =>
    hasMetadata_of_isStamped (stamped k live there)
  by_cases among : k ∈ (applied e p).map Manifest.key
  · obtain ⟨wanted, mem, rfl⟩ := List.mem_map.1 among
    have plain := (children wanted (mem_of_applied mem)).2
    obtain ⟨object, there, formed⟩ := h.formed wanted mem
    obtain ⟨object', there', formed'⟩ := h'.formed wanted mem
    rw [there, there']
    exact .some ⟨formed.alike plain formed', formed.hasMetadata plain (kept _)⟩
  · rw [h.untouched k ne among, h'.untouched k ne among]
    cases there : s₀.object? k with
    | none => exact .none
    | some live => exact .some ⟨.refl live, kept k live there⟩

omit [LawfulOwner ω] in
include stamped children in
/-- Settled stores hold the same objects apart from the stamps and the owner. -/
theorem Settled.faded_eq (h : Settled e key p s₀ s) (h' : Settled e key p s₀ t) {k : ObjectKey}
    (ne : k ≠ key) : (s.object? k).map faded = (t.object? k).map faded := by
  have rel := h.alike stamped children h' ne
  revert rel
  generalize s.object? k = x
  generalize t.object? k = y
  rintro (⟨alike, -⟩ | _)
  · exact congrArg some alike
  · rfl

omit [LawfulOwner ω] in
include stamped children in
/-- The rules do not tell settled stores apart. -/
theorem Settled.ending_eq (rules : e.rules = .standard) (h : Settled e key p s₀ s)
    (h' : Settled e key p s₀ t) : ending e p s = ending e p t :=
  ending_congr fun k mem => by
    obtain ⟨wanted, child, rfl⟩ := List.mem_map.1 mem
    exact Rulebook.verdict_alike
      (fun _ _ assigned => Rulebook.blind_of_standard (rules ▸ assigned))
      (h.alike stamped children h' (children wanted child).1)

end Partway

/-! ## Passes that start nothing -/

section Startless

/-- What a pass that does not get to its phases comes to, if no call fails. -/
def earlyPass (e : Engine (StateM MemoryStore) ω) (key : ObjectKey) (s : MemoryStore) :
    Option Pass :=
  match s.object? key with
  | none => some .absent
  | some live =>
    match (Progress.ofLive live : Result (Progress ω)) with
    | .error error => some (.early error)
    | .ok start =>
      match answer ((standard e).resources start.owner) with
      | .error error => some (.early error)
      | .ok _ => none

/-- A pass that does not get to its phases writes nothing. -/
theorem Passes.same_of_startless (startless : startAt e key s = none)
    (h : Passes e key s t pass) : SameObjects s t := by
  cases h with
  | unread _ same => exact same
  | absent _ same => exact same
  | undecoded _ _ same => exact same
  | ungathered _ _ _ _ same => exact same
  | ran _ _ _ starts => rw [startless] at starts; cases starts

variable (steady : e.hooks.Steady Owner.Akin)

include steady

theorem startAt_congr (same : s.object? key = t.object? key) :
    startAt e key s = startAt e key t := by
  refine Option.ext fun p => ?_
  simp only [startAt_eq_some, same,
    resources_agree steady.wants (Owner.Akin.refl _) (s.get key).2 (t.get key).2]

/-- A pass that does not get to its phases comes to this, if no call fails. -/
theorem Passes.early (quiet : Quiet s) (startless : startAt e key s = none)
    (h : Passes e key s t pass) : earlyPass e key s = some pass := by
  unfold earlyPass
  cases h with
  | unread loud => exact absurd quiet loud
  | absent none => rw [none]
  | undecoded there decoded =>
    rw [there]
    dsimp only
    rw [decoded]
  | @ungathered live start error u there decoded _ gathered =>
    rw [there]
    dsimp only
    rw [decoded]
    dsimp only
    rw [show answer ((standard e).resources start.owner) = .error error from
      (resources_agree steady.wants (.refl start.owner) default u).trans gathered]
  | ran _ _ _ starts => rw [startless] at starts; cases starts

end Startless

/-! ## Passes under circumstances -/

/-- A clock leaves the objects of a store and its queues alone. -/
structure Clock where
  read : StateM MemoryStore Timestamp
  harmless : Harmless read
  discreet : ∀ s, Quiet s → Quiet (read.run s).2

/-- What a pass meets with: the failures that are queued for its calls, and its clock. -/
structure Circumstances where
  queued : Operation → List Error
  clock : Clock

/-- No call fails. -/
def Circumstances.favourable (clock : Clock) : Circumstances := ⟨fun _ => [], clock⟩

/-- The engine with the clock of the circumstances. -/
def under (e : Engine (StateM MemoryStore) ω) (c : Circumstances) : Engine (StateM MemoryStore) ω :=
  { e with now := c.clock.read }

/-- The pass over the owner of a key under circumstances. -/
def passUnder (e : Engine (StateM MemoryStore) ω) (key : ObjectKey) (c : Circumstances)
    (b : Backoff) (s : MemoryStore) : (Pass × Backoff) × MemoryStore :=
  (((standard (under e c)).reconcileKey key).run b).run { s with queued := c.queued }

/-- Passes one after the other, each under its circumstances. -/
def passesUnder (e : Engine (StateM MemoryStore) ω) (key : ObjectKey) :
    List Circumstances → Backoff → MemoryStore → Backoff × MemoryStore
  | [], b, s => (b, s)
  | c :: rest, b, s =>
    passesUnder e key rest (passUnder e key c b s).1.2 (passUnder e key c b s).2

section Under

variable {c : Circumstances} {b : Backoff}

omit [Owner ω] in
theorem harmless_under (calm : e.Harmless) : (under e c).Harmless :=
  ⟨calm.store, calm.mutate, calm.mayApply, calm.ownerReady, c.clock.harmless⟩

omit [Owner ω] in
theorem discreet_under (discreet : e.Discreet) : (under e c).Discreet :=
  ⟨discreet.mutate, discreet.mayApply, discreet.ownerReady, c.clock.discreet⟩

theorem resources_under (owner : ω) :
    (standard (under e c)).resources owner = (standard e).resources owner :=
  resources_withClock c.clock.read owner

/-- The clock has no part in where a pass starts. -/
theorem startAt_under : startAt (under e c) key s = startAt e key s := by
  unfold startAt
  simp only [resources_under]

theorem earlyPass_under : earlyPass (under e c) key s = earlyPass e key s := by
  unfold earlyPass
  simp only [resources_under]

/-- The clock has no part in how a pass ends. -/
theorem ending_under : ending (under e c) p s = ending e p s := by
  have round : ∀ l, (under e c).roundResult p.owner l = e.roundResult p.owner l := fun l => by
    induction l with
    | nil => rfl
    | cons wanted rest ih =>
      rw [Engine.roundResult, Engine.roundResult, ih]
      rfl
  unfold ending
  rw [round]
  rfl

theorem Partway.under_iff : Partway (under e c) key p s₀ s ↔ Partway e key p s₀ s :=
  ⟨fun h => ⟨h.owner, h.reached, h.untouched⟩, fun h => ⟨h.owner, h.reached, h.untouched⟩⟩

theorem Settled.ofUnder (h : Settled (under e c) key p s₀ s) : Settled e key p s₀ s :=
  ⟨h.formed, h.untouched⟩

theorem passUnder_cases (calm : e.Harmless) (key : ObjectKey) (c : Circumstances) (b : Backoff)
    (s : MemoryStore) :
    Passes (under e c) key { s with queued := c.queued } (passUnder e key c b s).2
      (passUnder e key c b s).1.1 := by
  obtain ⟨pass, t, ran, passes⟩ :=
    pass_cases (harmless_under (c := c) calm) key { s with queued := c.queued }
  rw [passUnder, run_reconcileKey _ ran]
  exact passes

variable (calm : e.Harmless) (steady : e.hooks.Steady Owner.Akin)

include steady in
/-- Queued failures have no part in where a pass starts. -/
theorem startAt_queued (c : Circumstances) (s : MemoryStore) :
    startAt (under e c) key { s with queued := c.queued } = startAt e key s :=
  startAt_under.trans (startAt_congr steady (s := { s with queued := c.queued }) rfl)

include calm steady in
/-- Passes from which the owner starts nothing write nothing. -/
theorem same_passesUnder (startless : startAt e key s = none) (l : List Circumstances)
    (b : Backoff) : SameObjects s (passesUnder e key l b s).2 := by
  induction l generalizing b s with
  | nil => exact fun _ => rfl
  | cons c rest ih =>
    have still := (passUnder_cases calm key c b s).same_of_startless
      ((startAt_queued steady c s).trans startless)
    have same : SameObjects s (passUnder e key c b s).2 := still
    exact SameObjects.trans same
      (ih ((startAt_congr steady (same key).symm).trans startless) (passUnder e key c b s).1.2)

theorem earlyPass_congr (same : s.object? key = t.object? key) :
    earlyPass e key s = earlyPass e key t := by
  unfold earlyPass
  rw [same]

include calm steady in
/-- A pass under favourable circumstances that does not get to its phases writes nothing. -/
theorem passUnder_startless (startless : startAt e key s = none) (clock : Clock) (b : Backoff) :
    SameObjects s (passUnder e key (.favourable clock) b s).2 ∧
      earlyPass e key s = some (passUnder e key (.favourable clock) b s).1.1 := by
  have passes := passUnder_cases calm key (.favourable clock) b s
  have startless := (startAt_queued steady (.favourable clock) s).trans startless
  have early := passes.early (e := under e (.favourable clock)) steady (fun _ => rfl) startless
  rw [earlyPass_under] at early
  have same := passes.same_of_startless startless
  exact ⟨same, early⟩

variable [LawfulOwner ω] (starts : startAt e key s₀ = some p)
  (stamped : ∀ k live, s₀.object? k = some live → live.isStamped = true)
  (children : ∀ wanted ∈ p.resources.manifests, wanted.key ≠ key ∧ Plain wanted.body)

include calm steady starts stamped children in
/-- Any number of passes keep a store partway. -/
theorem Partway.passesUnder (partway : Partway e key p s₀ s) (l : List Circumstances)
    (b : Backoff) : Partway e key p s₀ (passesUnder e key l b s).2 := by
  induction l generalizing b s with
  | nil => exact partway
  | cons c rest ih =>
    have queued : Partway (under e c) key p s₀ { s with queued := c.queued } :=
      under_iff.2 (partway.congr fun _ => rfl)
    have next := (passUnder_cases calm key c b s).partway (harmless_under calm) steady
      (startAt_under.trans starts) stamped children queued
    exact ih (under_iff.1 next) (passUnder e key c b s).1.2

include calm steady starts stamped children in
/-- A pass from a partway store under favourable circumstances settles it. -/
theorem Partway.settles (discreet : e.Discreet) (partway : Partway e key p s₀ s) (clock : Clock)
    (b : Backoff) :
    Settled e key p s₀ (passUnder e key (.favourable clock) b s).2 ∧
      (passUnder e key (.favourable clock) b s).1.1.result =
        Pass.conclude (ending e p (passUnder e key (.favourable clock) b s).2) (.ok true) ∧
      storedReady ω key (passUnder e key (.favourable clock) b s).2 =
        some (isComplete (ending e p (passUnder e key (.favourable clock) b s).2)) := by
  have silent : Partway (under e (.favourable clock)) key p s₀ { s with queued := fun _ => [] } :=
    under_iff.2 (partway.congr fun _ => rfl)
  obtain ⟨settled, result, stored⟩ := (passUnder_cases calm key (.favourable clock) b s).settled
    (harmless_under calm) steady (startAt_under.trans starts) stamped children
    (discreet_under discreet) (fun _ => rfl) silent
  rw [ending_under] at result stored
  exact ⟨settled.ofUnder, result, stored⟩

end Under

/-- After any number of passes in which calls failed, a pass in which none fails has the result of
a single such pass, leaves alike objects and states the same readiness of the owner. -/
theorem reconcileKey_reentrant [LawfulOwner ω] (calm : e.Harmless) (discreet : e.Discreet)
    (steady : e.hooks.Steady Owner.Akin) (rules : e.rules = .standard)
    (stamped : ∀ k live, s.object? k = some live → live.isStamped = true)
    (children : ∀ start, startAt e key s = some start → ∀ wanted ∈ start.resources.manifests,
      wanted.key ≠ key ∧ Manifest.ofBody wanted.body = .ok wanted ∧ isPlain wanted.body = true)
    (troubles : List Circumstances) (clock clock' : Clock) (b b' : Backoff) :
    let after := passesUnder e key troubles b s
    let last := passUnder e key (.favourable clock) after.1 after.2
    let only := passUnder e key (.favourable clock') b' s
    last.1.1.result = only.1.1.result ∧
      (∀ k, k ≠ key → (last.2.object? k).map faded = (only.2.object? k).map faded) ∧
      storedReady ω key last.2 = storedReady ω key only.2 := by
  intro after last only
  cases starts : startAt e key s with
  | none =>
    have same : SameObjects s after.2 := same_passesUnder calm steady starts troubles b
    have started := (startAt_congr steady (same key)).symm.trans starts
    obtain ⟨still, early⟩ := passUnder_startless calm steady started clock after.1
    obtain ⟨still', early'⟩ := passUnder_startless calm steady starts clock' b'
    have whole : SameObjects last.2 only.2 :=
      SameObjects.trans still.symm (SameObjects.trans same.symm still')
    refine ⟨?_, fun k _ => congrArg _ (whole k), ?_⟩
    · rw [earlyPass_congr (same key).symm, early'] at early
      rw [Option.some.inj early]
    · unfold storedReady
      rw [whole key]
  | some p =>
    have accepted : ∀ wanted ∈ p.resources.manifests, wanted.key ≠ key ∧ Plain wanted.body :=
      fun wanted mem => by
        obtain ⟨ne, body, plain⟩ := children p starts wanted mem
        exact ⟨ne, Plain.ofIsPlain (Manifest.hasMetadata_of_ofBody body) plain⟩
    obtain ⟨live, -, -, there, -⟩ := startAt_eq_some.1 starts
    have first : Partway e key p s s := .start there
    obtain ⟨settled, result, stored⟩ := (first.passesUnder calm steady starts stamped accepted
      troubles b).settles calm steady starts stamped accepted discreet clock after.1
    obtain ⟨settled', result', stored'⟩ :=
      first.settles calm steady starts stamped accepted discreet clock' b'
    have same := settled.ending_eq stamped accepted rules settled'
    refine ⟨?_, fun k ne => settled.faded_eq stamped accepted settled' ne, ?_⟩
    · rw [result, result', same]
    · rw [stored, stored', same]

/-! ## An instance -/

section Instance

/-- A clock that stands still. -/
def stillClock (time : Timestamp) : Clock := ⟨pure time, fun _ _ => rfl, fun _ => id⟩

/-- First the patch conflicts and the status cannot be written, then nothing can be read. -/
def troubles : List Circumstances :=
  [⟨fun
      | .patch => [.conflict "settings"]
      | .updateStatus => [.transport "closed"]
      | _ => [], stillClock (.ofSeconds 1)⟩,
    ⟨fun
      | .get => [.transport "closed"]
      | _ => [], stillClock (.ofSeconds 2)⟩]

theorem discreet_tenantEngine (wanted : List Manifest) : (tenantEngine wanted).Discreet :=
  ⟨fun _ _ _ => id, fun _ _ _ => id, fun _ _ => id, fun _ => id⟩

theorem steady_tenantEngine (wanted : List Manifest) :
    (tenantEngine wanted).hooks.Steady Owner.Akin :=
  Tenant.steady_of_sameRequest
    ⟨fun _ => rfl, fun _ _ _ _ => rfl, fun _ _ _ _ => rfl, fun _ _ _ => rfl⟩

theorem tenantPass_reentrant :
    let e := tenantEngine [settings]
    let after := passesUnder e tenantKey troubles .standard staffed
    let last := passUnder e tenantKey (.favourable (stillClock (.ofSeconds 3))) after.1 after.2
    let only := passUnder e tenantKey (.favourable (stillClock (.ofSeconds 0))) .standard staffed
    (storedReady Tenant tenantKey after.2 = none ∧ last.1.1.result = .ok .done) ∧
      last.1.1.result = only.1.1.result ∧
      (∀ k, k ≠ tenantKey → (last.2.object? k).map faded = (only.2.object? k).map faded) ∧
      storedReady Tenant tenantKey last.2 = storedReady Tenant tenantKey only.2 := by
  have stamped : staffed.objects.toList.all (·.2.isStamped) = true := by decide +kernel
  refine ⟨⟨by decide +kernel, by decide +kernel⟩,
    reconcileKey_reentrant (harmless_tenantEngine _) (discreet_tenantEngine _)
      (steady_tenantEngine _) rfl (fun k live there => ?_) (fun start starts => ?_) _ _ _ _ _⟩
  · exact List.all_eq_true.1 stamped (k, live) (Entries.mem_toList_of_get? there)
  · obtain ⟨live, start, resources, -, -, gathered, rfl⟩ := startAt_eq_some.1 starts
    have only : resources = .ofList [settings] := (Except.ok.inj gathered).symm
    intro wanted mem
    rw [only] at mem
    obtain rfl : wanted = settings := List.mem_singleton.1 mem
    exact ⟨by decide, rfl, by decide +kernel⟩

end Instance

end DesiredState.Reconciler
