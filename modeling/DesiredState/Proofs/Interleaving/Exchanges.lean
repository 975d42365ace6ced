import DesiredState.Proofs.Interleaving.Dialogue
import DesiredState.Proofs.Reconcile.Guarantees
import DesiredState.Proofs.Store.Memory
import Mathlib.Data.List.Induction

/-!
# What programs exchange with stores

A log of a program has its calls with their answers, which may be any: what holds of all logs holds
whatever the store is, and whatever others do to it between two calls. A program heeds a rule if the
rule allows each call after what was exchanged since the last write (`Heeds`). Going along with a
rule is a guarantee (`heeding`), and every log of a program that heeds it is by the rule
(`Exchanges.rule`).

A program that is held without interruption has one log (`log`), whose answers are those of the
stores that its calls meet (`moments`). What its writes do not name stays as it is (`object?_hold`).
-/

namespace DesiredState

open MemoryStore

/-! ## Calls that write -/

namespace Call

/-- The object that a call writes. -/
def written? : Call → Option ObjectKey
  | create key .. | patch key .. | updateStatus key .. => some key
  | get _ | list .. => none

/-- The object that a call makes or patches. -/
def formed? : Call → Option ObjectKey
  | create key .. | patch key .. => some key
  | get _ | list .. | updateStatus .. => none

theorem written?_of_formed? {call : Call} {key : ObjectKey} (h : call.formed? = some key) :
    call.written? = some key := by
  cases call <;> first | exact h | cases h

end Call

namespace MemoryStore

/-- A call changes no object, or just the one that it writes. -/
theorem answer_cases (s : MemoryStore) (call : Call) :
    SameObjects s (s.answer call).2 ∨
      ∃ key object, call.written? = some key ∧ Written s (s.answer call).2 key object := by
  cases call with
  | get key =>
    show SameObjects s (s.get key).2 ∨ _
    rcases get_cases s key with ⟨e, t, ran, same⟩ | ⟨t, ran, same⟩
    all_goals
      rw [ran]
      exact .inl same
  | create key body manager =>
    show SameObjects s (s.create key body).2 ∨ ∃ k object, _ ∧ Written s (s.create key body).2 k _
    rcases create_cases s key body with ⟨e, t, ran, same⟩ | ⟨t, ran, -, written⟩
    all_goals rw [ran]
    · exact .inl same
    · exact .inr ⟨key, _, rfl, written⟩
  | patch key patch manager =>
    show SameObjects s (s.patch key patch).2 ∨ ∃ k object, _ ∧ Written s (s.patch key patch).2 k _
    rcases patch_cases s key patch with ⟨e, t, ran, same⟩ | ⟨live, -, -, ⟨t, ran, -, same⟩ |
      ⟨t, ran, -, written⟩⟩
    all_goals rw [ran]
    · exact .inl same
    · exact .inl same
    · exact .inr ⟨key, _, rfl, written⟩
  | list kind ns? =>
    show SameObjects s (s.list kind ns?).2 ∨ _
    unfold list
    rcases attempt_cases s .list _ with ⟨e, ran⟩ | ran
    all_goals
      rw [ran]
      exact .inl fun _ => rfl
  | updateStatus key object manager =>
    show SameObjects s (s.updateStatus key object).2 ∨
      ∃ k later, _ ∧ Written s (s.updateStatus key object).2 k later
    rcases updateStatus_cases s key object with ⟨e, t, ran, same⟩ | ⟨live, t, -, -, ran, written⟩
    all_goals rw [ran]
    · exact .inl same
    · exact .inr ⟨key, _, rfl, written⟩

/-- A call leaves alone what it does not write. -/
theorem object?_answer (s : MemoryStore) {call : Call} {key : ObjectKey}
    (h : call.written? ≠ some key) : (s.answer call).2.object? key = s.object? key := by
  rcases s.answer_cases call with same | ⟨k, object, mine, written⟩
  · exact (same key).symm
  · refine (written key).trans (if_neg fun eq => h ?_)
    rw [mine, eq]

end MemoryStore

/-! ## Logs -/

/-- A call with its answer. -/
structure Exchange where
  call : Call
  answer : call.Answer

/-- What was exchanged since the last write, once this is added. -/
def Exchange.remember (recent : List Exchange) (x : Exchange) : List Exchange :=
  if x.call.writes then [] else recent ++ [x]

/-- What was exchanged since the last write of a log. -/
def Exchange.recent (log : List Exchange) : List Exchange := log.foldl remember []

/-- Nothing was written after what was exchanged since the last write. -/
theorem Exchange.split_of_mem_recent {x : Exchange} {log : List Exchange} (h : x ∈ recent log) :
    ∃ earlier between, log = earlier ++ x :: between ∧
      ∀ y ∈ between, y.call.writes = false := by
  induction log using List.reverseRecOn with
  | nil => cases h
  | append_singleton log last ih =>
    unfold recent at h
    rw [List.foldl_append] at h
    change x ∈ remember (recent log) last at h
    unfold remember at h
    cases writes : last.call.writes with
    | true =>
      rw [writes] at h
      cases h
    | false =>
      rw [writes] at h
      rcases List.mem_append.1 h with mem | mem
      · obtain ⟨earlier, between, rfl, silent⟩ := ih mem
        refine ⟨earlier, between ++ [last], by simp, fun y mem => ?_⟩
        rcases List.mem_append.1 mem with mem | mem
        · exact silent y mem
        · rwa [List.mem_singleton.1 mem]
      · rw [List.mem_singleton.1 mem]
        exact ⟨log, [], rfl, nofun⟩

namespace Dialogue

variable {α β τ : Type}

/-- The program makes these calls if they are answered so, and is over or broken off then. -/
inductive Exchanges {α : Type} : Dialogue α → List Exchange → Prop where
  | nil (d : Dialogue α) : d.Exchanges []
  | cons {call : Call} {next : call.Answer → Dialogue α} {answer : call.Answer}
      {log : List Exchange} (later : (next answer).Exchanges log) :
      (ask call next).Exchanges (⟨call, answer⟩ :: log)

/-! ## Rules -/

/-- The rule allows each call after what was exchanged since the last write, and the program ends
with such a result and such recent exchanges. -/
def Heeds (rule : List Exchange → Call → Prop) :
    Dialogue α → List Exchange → (α → List Exchange → Prop) → Prop
  | done a, recent, Q => Q a recent
  | ask call next, recent, Q => rule recent call ∧
    ∀ answer, (next answer).Heeds rule (Exchange.remember recent ⟨call, answer⟩) Q

variable {rule : List Exchange → Call → Prop} {recent : List Exchange}
  {P : α → List Exchange → Prop}

theorem heeds_bind {x : Dialogue α} {f : α → Dialogue β} {Q : β → List Exchange → Prop}
    (first : x.Heeds rule recent P)
    (rest : ∀ a later, P a later → (f a).Heeds rule later Q) :
    (x >>= f).Heeds rule recent Q := by
  induction x generalizing recent with
  | done a => exact rest a recent first
  | ask call next ih => exact ⟨first.1, fun answer => ih answer (first.2 answer)⟩

theorem heeds_mono {x : Dialogue α} {Q : α → List Exchange → Prop} (h : x.Heeds rule recent P)
    (ends : ∀ a later, P a later → Q a later) : x.Heeds rule recent Q := by
  induction x generalizing recent with
  | done a => exact ends a recent h
  | ask call next ih => exact ⟨h.1, fun answer => ih answer (h.2 answer)⟩

/-- The programs that heed the rule whatever was exchanged before them, with their results. -/
def heeding (rule : List Exchange → Call → Prop) : Guarantees Dialogue where
  ensures x Q := ∀ recent, x.Heeds rule recent fun a _ => Q a
  ensures_pure h _ := h
  ensures_bind hx hf recent := heeds_bind (hx recent) fun a later ok => hf a ok later
  ensures_mono hx h recent := heeds_mono (hx recent) fun a _ => h a
  ensures_absorb h _ := h

theorem heeding_ask (call : Call) (allowed : ∀ recent, rule recent call) :
    (heeding rule).Allows (ask call done) :=
  fun recent => ⟨allowed recent, fun _ => trivial⟩

/-- Each call of a log is by the rule. -/
theorem Exchanges.rule_of_heeds {d : Dialogue α} {before later : List Exchange} {x : Exchange}
    (log : d.Exchanges (before ++ x :: later)) (heeds : d.Heeds rule recent P) :
    rule (before.foldl Exchange.remember recent) x.call := by
  induction before generalizing d recent with
  | nil =>
    cases log with
    | cons later => exact heeds.1
  | cons y before ih =>
    cases log with
    | cons later => exact ih later (heeds.2 _)

/-! ## Steps by a rule -/

section Steps

variable {ω : Type} {p : Progress ω}

/-- A step of a program with a state of its own heeds the rule, and ends with such a result,
progress and recent exchanges. -/
def HeedsStep (rule : List Exchange → Call → Prop) (x : Step (StateT τ Dialogue) ω α)
    (p : Progress ω) (recent : List Exchange) (Q : Result α → Progress ω → List Exchange → Prop) :
    Prop :=
  ∀ t, ((x.run.run p).run t).Heeds rule recent fun r later => Q r.1.1 r.1.2 later

theorem heedsStep_of_ensures {x : Step (StateT τ Dialogue) ω α}
    {Q : Result α → Progress ω → Prop}
    (h : ((heeding rule).withState τ).ensuresStep x p Q) :
    HeedsStep rule x p recent fun r q _ => Q r q := fun t => h t recent

theorem ensures_of_heedsStep {x : Step (StateT τ Dialogue) ω α} {Q : Result α → Progress ω → Prop}
    (h : ∀ recent, HeedsStep rule x p recent fun r q _ => Q r q) :
    ((heeding rule).withState τ).ensuresStep x p Q := fun t recent => h recent t

theorem heedsStep_mono {x : Step (StateT τ Dialogue) ω α}
    {P Q : Result α → Progress ω → List Exchange → Prop} (h : HeedsStep rule x p recent P)
    (ends : ∀ r q later, P r q later → Q r q later) : HeedsStep rule x p recent Q :=
  fun t => heeds_mono (h t) fun r => ends r.1.1 r.1.2

theorem heedsStep_bind {x : Step (StateT τ Dialogue) ω α} {f : α → Step (StateT τ Dialogue) ω β}
    {P : α → Progress ω → List Exchange → Prop}
    {Q : Result β → Progress ω → List Exchange → Prop}
    (first : HeedsStep rule x p recent fun
      | .ok a, q, later => P a q later
      | .error e, q, later => Q (.error e) q later)
    (rest : ∀ a q later, P a q later → HeedsStep rule (f a) q later Q) :
    HeedsStep rule (x >>= f) p recent Q := by
  intro t
  rw [ExceptT.run_bind, StateT.run_bind, StateT.run_bind]
  refine heeds_bind (first t) fun r later ok => ?_
  rcases r with ⟨⟨e | a, q⟩, t⟩
  · exact ok
  · exact rest a q later ok t

/-- A step that begins with a look at the progress. -/
theorem heedsStep_get_bind {f : Progress ω → Step (StateT τ Dialogue) ω β}
    {Q : Result β → Progress ω → List Exchange → Prop} (h : HeedsStep rule (f p) p recent Q) :
    HeedsStep rule (get >>= f) p recent Q := h

theorem heedsStep_perform {x : StateT τ Dialogue α}
    {Q : Result α → Progress ω → List Exchange → Prop}
    (h : ∀ t, (x.run t).Heeds rule recent fun r later => Q (.ok r.1) p later) :
    HeedsStep rule (Step.perform x) p recent Q := by
  intro t
  have lifted : (((StateT.lift x : StateT (Progress ω) _ α).run p).run t).Heeds rule recent
      fun r later => Q (.ok r.1.1) r.1.2 later := heeds_bind (h t) fun _ _ ok => ok
  exact heeds_bind lifted fun _ _ ok => ok

theorem heedsStep_attempt {x : ExceptT Error (StateT τ Dialogue) α}
    {Q : Result α → Progress ω → List Exchange → Prop}
    (h : ∀ t, (x.run.run t).Heeds rule recent fun r later => Q r.1 p later) :
    HeedsStep rule (Step.attempt x) p recent Q :=
  fun t => heeds_bind (h t) fun _ _ ok => ok

end Steps

/-! ## Programs that are held -/

/-- The exchanges of a program that is held without interruption. -/
def log : Dialogue α → MemoryStore → List Exchange
  | done _, _ => []
  | ask call next, s =>
    ⟨call, (s.answer call).1⟩ :: (next (s.answer call).1).log (s.answer call).2

/-- The stores that its calls meet. -/
def moments : Dialogue α → MemoryStore → List MemoryStore
  | done _, _ => []
  | ask call next, s => s :: (next (s.answer call).1).moments (s.answer call).2

theorem exchanges_log (d : Dialogue α) (s : MemoryStore) : d.Exchanges (d.log s) := by
  induction d generalizing s with
  | done a => exact .nil _
  | ask call next ih => exact .cons (ih _ _)

/-- The answers are those of the stores that the calls meet. -/
theorem answer_of_mem_log {d : Dialogue α} {s : MemoryStore} {x : Exchange} (h : x ∈ d.log s) :
    ∃ u ∈ d.moments s, x.answer = (u.answer x.call).1 := by
  induction d generalizing s with
  | done a => cases h
  | ask call next ih =>
    rcases List.mem_cons.1 h with rfl | mem
    · exact ⟨s, List.mem_cons_self, rfl⟩
    · obtain ⟨u, met, answer⟩ := ih _ mem
      exact ⟨u, List.mem_cons_of_mem _ met, answer⟩

/-- What no call writes is as it was. -/
theorem object?_hold {d : Dialogue α} {s : MemoryStore} {key : ObjectKey}
    (h : ∀ x ∈ d.log s, x.call.written? ≠ some key) :
    (d.hold s).2.object? key = s.object? key := by
  induction d generalizing s with
  | done a => rfl
  | ask call next ih =>
    exact (ih _ fun x mem => h x (List.mem_cons_of_mem _ mem)).trans
      (s.object?_answer (h _ List.mem_cons_self))

end Dialogue

end DesiredState
