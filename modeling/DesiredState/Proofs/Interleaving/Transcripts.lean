import DesiredState.Proofs.Interleaving.Exchanges

/-!
# What programs come to

A transcript of a program has all its calls with their answers, and comes with the result. One
program after the other has the one transcript after the other (`runs_bind_iff`), and what a program
heeds shows in its transcripts (`Runs.obeys`). A program that is held without interruption has one
transcript, its log (`runs_log`). Reconciling an owner has the transcripts of its pass, and settles
the failures at the end (`runs_reconcileKey_iff`, `runs_reconcile_iff`).
-/

namespace DesiredState.Dialogue

variable {α β τ : Type}

theorem bind_done (x : Dialogue α) : x >>= done = x := by
  induction x with
  | done a => rfl
  | ask call next ih => exact congrArg (ask call) (funext ih)

theorem bind_bind {γ : Type} (x : Dialogue α) (f : α → Dialogue β) (g : β → Dialogue γ) :
    x >>= f >>= g = x >>= fun a => f a >>= g := by
  induction x with
  | done a => rfl
  | ask call next ih => exact congrArg (ask call) (funext ih)

instance : LawfulMonad Dialogue :=
  LawfulMonad.mk' Dialogue bind_done (fun _ _ => rfl) fun x f g => bind_bind x f g

/-- The program makes these calls if they are answered so, and is over then with this result. -/
inductive Runs : Dialogue α → List Exchange → α → Prop where
  | done (a : α) : (done a).Runs [] a
  | ask {call : Call} {next : call.Answer → Dialogue α} {answer : call.Answer}
      {log : List Exchange} {a : α} (later : (next answer).Runs log a) :
      (ask call next).Runs (⟨call, answer⟩ :: log) a

variable {log : List Exchange} {a : α}

theorem runs_done_iff {b : α} : (done b).Runs log a ↔ log = [] ∧ a = b := by
  constructor
  · intro ran
    cases ran
    exact ⟨rfl, rfl⟩
  · rintro ⟨rfl, rfl⟩
    exact .done a

theorem runs_ask_iff {call : Call} {next : call.Answer → Dialogue α} :
    (ask call next).Runs log a ↔
      ∃ answer later, log = ⟨call, answer⟩ :: later ∧ (next answer).Runs later a := by
  constructor
  · intro ran
    cases ran with
    | ask later => exact ⟨_, _, rfl, later⟩
  · rintro ⟨answer, later, rfl, ran⟩
    exact .ask ran

/-- One program after the other has the one transcript after the other. -/
theorem runs_bind_iff {x : Dialogue α} {f : α → Dialogue β} {b : β} :
    (x >>= f).Runs log b ↔
      ∃ before later a, log = before ++ later ∧ x.Runs before a ∧ (f a).Runs later b := by
  induction x generalizing log with
  | done a =>
    constructor
    · exact fun ran => ⟨[], log, a, rfl, .done a, ran⟩
    · rintro ⟨before, later, a', rfl, first, rest⟩
      obtain ⟨rfl, rfl⟩ := runs_done_iff.1 first
      exact rest
  | ask call next ih =>
    show (ask call fun answer => next answer >>= f).Runs log b ↔ _
    rw [runs_ask_iff]
    constructor
    · rintro ⟨answer, rest, rfl, ran⟩
      obtain ⟨before, later, a, rfl, first, rest⟩ := (ih answer).1 ran
      exact ⟨⟨call, answer⟩ :: before, later, a, rfl, .ask first, rest⟩
    · rintro ⟨before, later, a, rfl, first, rest⟩
      obtain ⟨answer, between, rfl, begun⟩ := runs_ask_iff.1 first
      exact ⟨answer, between ++ later, rfl, (ih answer).2 ⟨between, later, a, rfl, begun, rest⟩⟩

/-- A program that is over with something of its own once another one is. -/
theorem runs_bind_done_iff {x : Dialogue α} {f : α → β} {b : β} :
    (x >>= fun a => done (f a)).Runs log b ↔ ∃ a, x.Runs log a ∧ b = f a := by
  rw [runs_bind_iff]
  constructor
  · rintro ⟨before, later, a, rfl, ran, ended⟩
    obtain ⟨rfl, rfl⟩ := runs_done_iff.1 ended
    exact ⟨a, (List.append_nil before).symm ▸ ran, rfl⟩
  · rintro ⟨a, ran, rfl⟩
    exact ⟨log, [], a, (List.append_nil log).symm, ran, .done _⟩

theorem Runs.exchanges {d : Dialogue α} (ran : d.Runs log a) : d.Exchanges log := by
  induction ran with
  | done a => exact .nil _
  | ask later ih => exact .cons ih

/-- The log of a program that is held is its transcript. -/
theorem runs_log (d : Dialogue α) (s : MemoryStore) : d.Runs (d.log s) (d.hold s).1 := by
  induction d generalizing s with
  | done a => exact .done a
  | ask call next ih => exact .ask (ih _ _)

/-! ## What is heeded -/

section Heeded

variable {rule : List Exchange → Call → Prop} {recent : List Exchange}
  {P : α → List Exchange → Prop} {d : Dialogue α}

/-- Each call of a transcript is by the rule, which does not ask what was exchanged before. -/
theorem Runs.obeys {p : Call → Prop} (ran : d.Runs log a) (heeds : d.Heeds (fun _ => p) recent P) :
    ∀ x ∈ log, p x.call := by
  intro x mem
  obtain ⟨before, later, rfl⟩ := List.append_of_mem mem
  exact ran.exchanges.rule_of_heeds heeds

end Heeded

/-! ## Programs with a state of their own -/

section States

variable {x : StateT τ Dialogue α} {f : α → StateT τ Dialogue β} {b : β} {t u : τ}

theorem runs_state_done_iff {c : β} {v : τ} :
    (done (c, v)).Runs log (b, u) ↔ log = [] ∧ b = c ∧ u = v := by
  rw [runs_done_iff, Prod.mk.injEq]

/-- A program that begins with a call. -/
theorem runs_call_iff (call : Call) (f : call.Answer → StateT τ Dialogue β) :
    ((StateT.lift (ask call done) >>= f).run t).Runs log (b, u) ↔
      ∃ answer later, log = ⟨call, answer⟩ :: later ∧ ((f answer).run t).Runs later (b, u) :=
  runs_ask_iff

theorem runs_state_bind_iff :
    ((x >>= f).run t).Runs log (b, u) ↔
      ∃ before later a v, log = before ++ later ∧ (x.run t).Runs before (a, v) ∧
        ((f a).run v).Runs later (b, u) := by
  rw [StateT.run_bind, runs_bind_iff]
  constructor
  · rintro ⟨before, later, ⟨a, v⟩, eq, first, rest⟩
    exact ⟨before, later, a, v, eq, first, rest⟩
  · rintro ⟨before, later, a, v, eq, first, rest⟩
    exact ⟨before, later, (a, v), eq, first, rest⟩

end States

/-! ## Passes -/

section Passes

variable {ω : Type} [Owner ω] {r : Reconciler (StateT τ Dialogue) ω} {key : ObjectKey} {owner : ω}
  {b b' : Backoff} {t u : τ} {pass : Pass}

/-- Reconciling the owner of a key is a pass. The failures have no part in it, and are forgotten if
there is no owner. -/
theorem runs_reconcileKey_iff :
    (((r.reconcileKey key).run b).run t).Runs log ((pass, b'), u) ↔
      ((r.pass key).run t).Runs log (pass, u) ∧
        b' = if pass.found then b else b.reset key.text := by
  have parts : ((r.reconcileKey key).run b).run t =
      (r.pass key).run t >>= fun ran =>
        done ((ran.1, if ran.1.found then b else b.reset key.text), ran.2) := by
    unfold Reconciler.reconcileKey
    simp only [bind_pure_comp, StateT.run_bind, StateT.run_monadLift, monadLift_self, bind_map_left]
    refine bind_congr fun ran => ?_
    split <;> rfl
  rw [parts, runs_bind_done_iff]
  constructor
  · rintro ⟨⟨pass, u⟩, ran, eq⟩
    cases eq
    exact ⟨ran, rfl⟩
  · rintro ⟨ran, rfl⟩
    exact ⟨(pass, u), ran, rfl⟩

/-- Reconciling an owner is that as well. The failures are also forgotten if it ends well. -/
theorem runs_reconcile_iff :
    (((r.reconcile owner).run b).run t).Runs log ((pass, b'), u) ↔
      ∃ between, (((r.reconcileKey (Owner.key owner)).run b).run t).Runs log ((pass, between), u) ∧
        b' = if pass.result matches .ok _ then between.reset (Owner.key owner).text
          else between := by
  have parts : ((r.reconcile owner).run b).run t =
      ((r.reconcileKey (Owner.key owner)).run b).run t >>= fun ran =>
        done ((ran.1.1, if ran.1.1.result matches .ok _ then
          ran.1.2.reset (Owner.key owner).text else ran.1.2), ran.2) := by
    unfold Reconciler.reconcile
    simp only [StateT.run_bind]
    refine bind_congr fun ran => ?_
    obtain ⟨⟨⟨result, found, attempts, statusWritten⟩, between⟩, u⟩ := ran
    cases result <;> rfl
  rw [parts, runs_bind_done_iff]
  constructor
  · rintro ⟨⟨⟨pass, between⟩, u⟩, ran, eq⟩
    cases eq
    exact ⟨between, ran, rfl⟩
  · rintro ⟨between, ran, rfl⟩
    exact ⟨((pass, between), u), ran, rfl⟩

end Passes

end DesiredState.Dialogue
