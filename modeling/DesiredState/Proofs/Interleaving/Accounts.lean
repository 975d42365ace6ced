import DesiredState.Proofs.Interleaving.StoredStatus
import DesiredState.Proofs.Interleaving.Transcripts

/-!
# What a pass calls and comes to

Whatever the store answers, a pass with the standard phases is by one account (`program_account`).
Until its resources are known it writes nothing. Then the phases run, and last of all the status is
written, once if it changed and not at all otherwise (`Flushed`). An error of the phases is not
hidden by one of that write, and a conflict of the write is none.

The hooks and the clock make any calls that write nothing. What is then known of the calls of each
part are guarantees (`Engine.Silent.resources`, `Engine.Silent.phases`), and the transcript of a
pass is that of its parts.
-/

namespace DesiredState

open Dialogue

namespace Dialogue

variable {α τ : Type}

/-- The programs none of whose calls writes. -/
def silence : Guarantees Dialogue := heeding fun _ call => call.writes = false

/-- The programs that write no status. -/
def sparingStatus : Guarantees Dialogue :=
  heeding fun _ call => ∀ key object manager, call ≠ .updateStatus key object manager

/-- What keeps to a rule keeps to one that follows from it. -/
theorem heeds_of_imp {rule rule' : List Exchange → Call → Prop} {d : Dialogue α}
    {recent : List Exchange} {P : α → List Exchange → Prop}
    (imp : ∀ recent call, rule recent call → rule' recent call) (h : d.Heeds rule recent P) :
    d.Heeds rule' recent P := by
  induction d generalizing recent with
  | done a => exact h
  | ask call next ih => exact ⟨imp _ _ h.1, fun answer => ih answer (h.2 answer)⟩

theorem sparesStatus_of_silent {x : StateT τ Dialogue α} (h : (silence.withState τ).Allows x) :
    (sparingStatus.withState τ).Allows x := by
  intro t recent
  refine heeds_of_imp (fun _ call silent key object manager eq => ?_) (h t recent)
  rw [eq] at silent
  cases silent

end Dialogue

variable {ω τ : Type} {e : Engine (StateT τ Dialogue) ω} {key : ObjectKey} {t u : τ}
  {log : List Exchange}

/-- An engine whose hooks and clock may look at the store, but do not write. They may have a state
of their own. -/
structure Engine.Silent (e : Engine (StateT τ Dialogue) ω) : Prop where
  store : e.store = storeWith τ
  mutate : ∀ owner wanted, (silence.withState τ).Allows (e.hooks.mutate owner wanted).run
  mayApply : ∀ owner wanted, (silence.withState τ).Allows (e.hooks.mayApply owner wanted).run
  ownerReady : ∀ owner, (silence.withState τ).Allows (e.hooks.ownerReady owner).run
  now : (silence.withState τ).Allows e.now

/-- What the phases come to before the status is written. -/
def Ending.outcome : Ending → Result Outcome
  | complete => .ok .done
  | halted _ delay => .ok (.requeueAfter delay)
  | failed _ _ error => .error error

/-! ## What is called on the way -/

namespace Engine.Silent

variable (silent : e.Silent)

include silent

theorem wants : e.hooks.Wants (silence.withState τ) fun _ => True where
  generate := fun _ _ _ _ _ => trivial
  mutate owner wanted _ := by
    refine Guarantees.ensures_mono _ (silent.mutate owner wanted) fun r _ => ?_
    cases r with
    | ok mutation => exact fun _ _ => trivial
    | error error => trivial

theorem within : e.Within (sparingStatus.withState τ) where
  get k := by
    rw [silent.store]
    exact Guarantees.allows_lift (heeding_ask (.get k) fun _ _ _ _ => nofun)
  mayApply owner wanted := sparesStatus_of_silent (silent.mayApply owner wanted)
  ownerReady owner := sparesStatus_of_silent (silent.ownerReady owner)
  now := sparesStatus_of_silent silent.now

theorem applies (wanted : Manifest) : e.Applies (sparingStatus.withState τ) wanted := by
  intro owner
  rw [silent.store]
  exact Applier.allows_apply
    (Guarantees.allows_lift (heeding_ask (.get _) fun _ _ _ _ => nofun))
    (fun body => Guarantees.allows_lift (heeding_ask (.create _ body _) fun _ _ _ _ => nofun))
    fun _ patch _ _ =>
      Guarantees.allows_lift (heeding_ask (.patch _ patch _) fun _ _ _ _ => nofun)

variable [Owner ω]

/-- Nothing is written while the resources are gathered. -/
theorem resources {owner : ω} {r : Result ResourceSet × τ}
    (ran : (((Reconciler.standard e).resources owner).run.run t).Runs log r) :
    ∀ x ∈ log, x.call.writes = false :=
  ran.obeys (Reconciler.ensures_resources (r := Reconciler.standard e) silent.wants owner t [])

/-- No status is written while the phases run. -/
theorem phases {p : Progress ω} {r : (Ending × Progress ω) × τ}
    (ran : ((Phase.runAll e.now (Phase.standard e) p).run t).Runs log r) :
    ∀ x ∈ log, ∀ key object manager, x.call ≠ .updateStatus key object manager := by
  have spares : (sparingStatus.withState τ).ensures (Phase.runAll e.now (Phase.standard e) p)
      fun r => p.Leads (fun _ _ => True) r.2 :=
    Phase.ensures_runAll .any (fun _ _ _ => trivial) silent.within.now fun phase mem _ _ =>
      Phase.ensures_standard .any silent.within mem fun wanted _ => silent.applies wanted
  exact ran.obeys (spares t [])

end Engine.Silent

/-! ## The write of the status -/

/-- How a pass ends after its phases: the status is written if it changed, and the result is that of
the phases, unless these did not fail and the write did. -/
inductive Flushed (key : ObjectKey) (live : Json) (manager : String) (before after : OwnerStatus)
    (ending : Ending) : List Exchange → Result Outcome → Prop where
  | unchanged (same : after = before) :
      Flushed key live manager before after ending [] ending.outcome
  | written {object : Json} (changed : after ≠ before) :
      Flushed key live manager before after ending
        [⟨.updateStatus key (live.setMember "status" after.encode) manager, .ok object⟩]
        ending.outcome
  | conflicted {error : Error} (changed : after ≠ before) (conflict : error.isConflict = true) :
      Flushed key live manager before after ending
        [⟨.updateStatus key (live.setMember "status" after.encode) manager, .error error⟩]
        ending.outcome
  | masked {error cause : Error} {phase : String} {delay : Duration} (changed : after ≠ before)
      (failed : ending = .failed phase delay cause) :
      Flushed key live manager before after ending
        [⟨.updateStatus key (live.setMember "status" after.encode) manager, .error error⟩]
        (.error cause)
  | unwritten {error : Error} (changed : after ≠ before)
      (well : ∀ phase delay cause, ending ≠ .failed phase delay cause)
      (failure : error.isConflict = false) :
      Flushed key live manager before after ending
        [⟨.updateStatus key (live.setMember "status" after.encode) manager, .error error⟩]
        (.error error)

theorem Pass.conclude_ok (ending : Ending) (written : Bool) :
    conclude ending (.ok written) = ending.outcome := by
  cases ending <;> rfl

namespace Reconciler

variable {live : Json} {before after : OwnerStatus}

theorem writeStatus_run (store : e.store = storeWith τ) (phases : List (Phase _ ω)) :
    (((⟨e, phases⟩ : Reconciler _ ω).writeStatus key live before after).run t) =
      if before = after then done (.ok false, t)
      else
        ask (.updateStatus key (live.setMember "status" after.encode) e.applier.manager)
          fun answer => done (writeReport answer, t) := by
  unfold writeStatus
  split
  · rfl
  · rw [store]
    refine congrArg (ask _) (funext fun answer => ?_)
    rcases answer with error | object
    · show ((if error.isConflict then _ else _ : StateT τ Dialogue (Result Bool)).run t) =
        done (writeReport _, t)
      unfold writeReport
      dsimp only
      split <;> rfl
    · rfl

/-- The end of a pass after its phases. -/
theorem flushed_of_runs (store : e.store = storeWith τ) {phases : List (Phase _ ω)}
    {written : Result Bool} (ending : Ending)
    (ran : (((⟨e, phases⟩ : Reconciler _ ω).writeStatus key live before after).run t).Runs log
      (written, u)) :
    Flushed key live e.applier.manager before after ending log (Pass.conclude ending written) := by
  rw [writeStatus_run store] at ran
  by_cases same : before = after
  · rw [if_pos same] at ran
    obtain ⟨rfl, rfl, -⟩ := runs_state_done_iff.1 ran
    rw [Pass.conclude_ok]
    exact .unchanged same.symm
  · rw [if_neg same] at ran
    have changed : after ≠ before := Ne.symm same
    obtain ⟨answer, later, rfl, ended⟩ := runs_ask_iff.1 ran
    obtain ⟨rfl, rfl, -⟩ := runs_state_done_iff.1 ended
    rcases answer with error | object
    · cases conflict : error.isConflict with
      | true =>
        rw [show writeReport (.error error) = .ok false from if_pos conflict, Pass.conclude_ok]
        exact .conflicted changed conflict
      | false =>
        rw [show writeReport (.error error) = .error error from
          if_neg (Bool.eq_false_iff.1 conflict)]
        -- Only here it matters whether a phase failed, as its error then comes first.
        cases ending with
        | failed phase delay cause => exact .masked changed rfl
        | _ => exact .unwritten changed nofun conflict
    · rw [show writeReport (.ok object) = .ok true from rfl, Pass.conclude_ok]
      exact .written changed

/-! ## Passes -/

/-- What a pass calls and comes to, by how far it gets. -/
inductive Account [Owner ω] (e : Engine (StateT τ Dialogue) ω) (key : ObjectKey) (t : τ) :
    List Exchange → Result Outcome → Prop where
  | unread {error : Error} : Account e key t [⟨.get key, .error error⟩] (.error error)
  | absent : Account e key t [⟨.get key, .ok none⟩] (.ok .done)
  | undecoded {live : Json} {error : Error}
      (decoded : Progress.ofLive (ω := ω) live = .error error) :
      Account e key t [⟨.get key, .ok (some live)⟩] (.error error)
  /-- The resources cannot be gathered: the generator fails, or a hook does later. -/
  | unpopulated {live : Json} {start : Progress ω} {gathering : List Exchange} {error : Error}
      {u : τ} (decoded : Progress.ofLive live = .ok start)
      (gathered : (((standard e).resources start.owner).run.run t).Runs gathering (.error error, u))
      (silent : ∀ x ∈ gathering, x.call.writes = false)
      (generated : ∀ cause, e.hooks.generate start.owner = .error cause →
        gathering = [] ∧ (∀ text, cause = .generator text → error = .generator text) ∧
          ((∀ text, cause ≠ .generator text) → error = .generator cause.message)) :
      Account e key t (⟨.get key, .ok (some live)⟩ :: gathering) (.error error)
  /-- The phases run, and then the status is written. -/
  | passed {live : Json} {start p : Progress ω} {gathering phases flush : List Exchange}
      {resources : ResourceSet} {ending : Ending} {result : Result Outcome} {u v : τ}
      (decoded : Progress.ofLive live = .ok start)
      (gathered : (((standard e).resources start.owner).run.run t).Runs gathering
        (.ok resources, u))
      (silent : ∀ x ∈ gathering, x.call.writes = false)
      (ran : ((Phase.runAll e.now (Phase.standard e) { start with resources }).run u).Runs phases
        ((ending, p), v))
      (spared : ∀ x ∈ phases, ∀ key object manager, x.call ≠ .updateStatus key object manager)
      (flushed : Flushed key live e.applier.manager start.status p.status ending flush result) :
      Account e key t (⟨.get key, .ok (some live)⟩ :: (gathering ++ phases ++ flush)) result

section Passes

variable [Owner ω] {b : Backoff} {pass : Pass} (silent : e.Silent)

include silent

/-- A generator that fails is asked once, and its error is wrapped once. -/
theorem account_of_ungathered {start : Progress ω} {error : Error}
    (decoded : Progress.ofLive live = .ok start)
    (ran : (((standard e).resources start.owner).run.run t).Runs log (.error error, u)) :
    Account e key t (⟨.get key, .ok (some live)⟩ :: log) (.error error) := by
  refine .unpopulated decoded ran (silent.resources ran) fun cause generated => ?_
  have failed : (((standard e).resources start.owner).run.run t) =
      done (.error (generatorError cause), t) := by
    unfold Reconciler.resources
    rw [show (standard e).engine.hooks.generate start.owner = .error cause from generated]
    rfl
  rw [failed] at ran
  obtain ⟨rfl, eq, -⟩ := runs_state_done_iff.1 ran
  obtain rfl := Except.error.inj eq
  refine ⟨rfl, ?_, fun other => ?_⟩
  · rintro text rfl
    rfl
  · cases cause with
    | generator text => exact absurd rfl (other text)
    | _ => rfl

/-- From an owner that was read on. -/
theorem account_of_passOver {start : Progress ω} (decoded : Progress.ofLive live = .ok start)
    (ran : (((standard e).passOver key live start).run t).Runs log (pass, u)) :
    Account e key t (⟨.get key, .ok (some live)⟩ :: log) pass.result := by
  unfold passOver at ran
  obtain ⟨gathering, rest, gathered, v, rfl, first, later⟩ := runs_state_bind_iff.1 ran
  cases gathered with
  | error error =>
    obtain ⟨rfl, rfl, -⟩ := runs_state_done_iff.1 later
    rw [List.append_nil]
    exact account_of_ungathered silent decoded first
  | ok resources =>
    obtain ⟨phases, flush, ⟨ending, p⟩, w, rfl, phased, last⟩ := runs_state_bind_iff.1 later
    obtain ⟨flush, none, written, w', rfl, flushed, ended⟩ := runs_state_bind_iff.1 last
    obtain ⟨rfl, rfl, -⟩ := runs_state_done_iff.1 ended
    rw [List.append_nil, ← List.append_assoc]
    exact .passed decoded first (silent.resources first) phased (silent.phases phased)
      (flushed_of_runs silent.store ending flushed)

/-- Whatever the store answers, a pass is by this account. -/
theorem program_account (ran : (program e key b t).Runs log pass) :
    Account e key t log pass.result := by
  obtain ⟨⟨⟨pass, b'⟩, u⟩, whole, rfl⟩ := runs_bind_done_iff.1 ran
  obtain ⟨whole, -⟩ := runs_reconcileKey_iff.1 whole
  unfold Reconciler.pass at whole
  rw [show (standard e).engine.store = storeWith τ from silent.store] at whole
  obtain ⟨look, later, rfl, rest⟩ := (runs_call_iff (.get key) _).1 whole
  rcases look with error | _ | live
  · obtain ⟨rfl, rfl, -⟩ := runs_state_done_iff.1 rest
    exact .unread
  · obtain ⟨rfl, rfl, -⟩ := runs_state_done_iff.1 rest
    exact .absent
  · cases decoded : Progress.ofLive (ω := ω) live with
    | error error =>
      dsimp only at rest
      rw [decoded] at rest
      obtain ⟨rfl, rfl, -⟩ := runs_state_done_iff.1 rest
      exact .undecoded decoded
    | ok start =>
      dsimp only at rest
      rw [decoded] at rest
      exact account_of_passOver silent decoded rest

end Passes

/-! ## An instance -/

section Instance

open Situation

theorem silent_tenantProgram (ready : Bool) : (tenantProgram ready).Silent where
  store := rfl
  mutate _ _ := Guarantees.ensures_pure _ trivial
  mayApply _ _ := Guarantees.ensures_pure _ trivial
  ownerReady _ := Guarantees.ensures_pure _ trivial
  now := Guarantees.ensures_pure _ trivial

/-- The next patch fails, and the next write of a status meets a conflict. -/
def troubled : MemoryStore :=
  (staffed.failNext .patch (.transport "down")).failNext .updateStatus (.conflict "team")

/-- The calls of a pass over the tenant. -/
def troubledCalls : List Exchange :=
  (program (tenantProgram true) tenantKey .standard ()).log troubled

theorem tenantProgram_account :
    (tenantProgram true).Silent ∧
      troubledCalls.map (·.call.writes) = [false, false, true, true] ∧
      Account (tenantProgram true) tenantKey () troubledCalls (.error (.transport "down")) := by
  have failed : ((program (tenantProgram true) tenantKey .standard ()).hold troubled).1.result =
      .error (.transport "down") := by decide +kernel
  have silent := silent_tenantProgram true
  have account := program_account silent
    (runs_log (program (tenantProgram true) tenantKey .standard ()) troubled)
  rw [failed] at account
  exact ⟨silent, by decide +kernel, account⟩

end Instance

end Reconciler

end DesiredState
