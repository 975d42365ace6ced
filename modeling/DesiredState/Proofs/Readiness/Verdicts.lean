import DesiredState.Proofs.Store.Memory
import DesiredState.Readiness.Rulebook

/-!
# Verdicts on what is stored

What the rules say of stored objects, as a function of the store. Asking the store in memory gives
that verdict, unless a queued failure comes in between (`areReady_cases`).
-/

namespace DesiredState.Rulebook

open MemoryStore

/-- What the rules say of an object; objects without a rule are ready. -/
def verdict (b : Rulebook) (s : MemoryStore) (key : ObjectKey) : Result Bool :=
  match b.rules.get? key.groupKind with
  | none => .ok true
  | some rule => (b.judge rule key (s.object? key)).value

/-- What the rules say of several objects, the first that is not ready deciding. -/
def verdicts (b : Rulebook) (s : MemoryStore) : List ObjectKey → Result Bool
  | [] => .ok true
  | key :: rest =>
    match b.verdict s key with
    | .ok true => b.verdicts s rest
    | result => result

variable {b : Rulebook} {s t : MemoryStore}

theorem verdict_congr_at {key : ObjectKey} (h : s.object? key = t.object? key) :
    b.verdict s key = b.verdict t key := by
  unfold verdict
  rw [h]

theorem verdict_congr (h : SameObjects s t) (key : ObjectKey) :
    b.verdict s key = b.verdict t key := verdict_congr_at (h key)

theorem verdicts_congr (keys : List ObjectKey)
    (h : ∀ key ∈ keys, b.verdict s key = b.verdict t key) :
    b.verdicts s keys = b.verdicts t keys := by
  induction keys with
  | nil => rfl
  | cons key rest ih =>
    rw [verdicts, verdicts, h key List.mem_cons_self,
      ih fun k hk => h k (List.mem_cons_of_mem key hk)]

theorem verdict_of_verdicts {keys : List ObjectKey} (h : b.verdicts s keys = .ok true)
    {key : ObjectKey} (mem : key ∈ keys) : b.verdict s key = .ok true := by
  induction keys with
  | nil => cases mem
  | cons k rest ih =>
    rw [verdicts] at h
    split at h
    · rename_i ready
      rcases List.mem_cons.1 mem with e | mem
      · rw [e, ready]
      · exact ih h mem
    · rename_i not_ready
      exact absurd h not_ready

theorem verdicts_of_forall {keys : List ObjectKey} (h : ∀ key ∈ keys, b.verdict s key = .ok true) :
    b.verdicts s keys = .ok true := by
  induction keys with
  | nil => rfl
  | cons key rest ih =>
    rw [verdicts, h key List.mem_cons_self]
    exact ih fun k mem => h k (List.mem_cons_of_mem key mem)

/-- The rule of a kind holds of every object of this kind among those that are ready. -/
theorem rule_of_verdicts {keys : List ObjectKey} (h : b.verdicts s keys = .ok true)
    {key : ObjectKey} (mem : key ∈ keys) {object : Json} (there : s.object? key = some object)
    {rule : Rule} (assigned : b.rules.get? key.groupKind = some rule) :
    (rule object (b.expectedOf key)).value = .ok true := by
  have ready := verdict_of_verdicts h mem
  unfold verdict at ready
  rwa [assigned, there] at ready

theorem isReady_cases (b : Rulebook) (s : MemoryStore) (key : ObjectKey) :
    ∃ result t, (b.isReady store key).run.run s = (result, t) ∧ SameObjects s t ∧
      (Quiet s → Quiet t) ∧ (result = b.verdict s key ∨ ¬ Quiet s ∧ ∃ e, result = .error e) := by
  unfold isReady verdict
  cases b.rules.get? key.groupKind with
  | none => exact ⟨_, s, rfl, fun _ => rfl, id, .inl rfl⟩
  | some rule =>
    rcases get_cases s key with ⟨e, t, got, same⟩ | ⟨t, got, same⟩
    · have loud : ¬ Quiet s := fun quiet => by
        rw [get_of_quiet quiet] at got
        cases got
      have run : (store.get key).run.run s = (.error e, t) := got
      refine ⟨.error e, t, ?_, same, fun quiet => absurd quiet loud, .inr ⟨loud, e, rfl⟩⟩
      rw [ExceptT.run_bind, StateT.run_bind, run]
      rfl
    · have run : (store.get key).run.run s = (.ok (s.object? key), t) := got
      refine ⟨_, t, ?_, same, fun quiet => ?_, .inl rfl⟩
      · rw [ExceptT.run_bind, StateT.run_bind, run]
        rfl
      · rw [get_of_quiet quiet] at got
        rw [← (Prod.mk.inj got).2]
        exact quiet_count quiet .get

/-- Where no call fails, the namespace of an object is as ready as the rules say. -/
theorem namespaceReady_of_quiet (b : Rulebook) (quiet : Quiet s) {key : ObjectKey} {name : String}
    (place : key.ns? = some name) :
    ((b.namespaceReady store key).run.run s).1 = b.verdict s (namespaceKey name) := by
  obtain ⟨result, t, ran, -, -, found⟩ := b.isReady_cases s (namespaceKey name)
  unfold namespaceReady
  rw [place]
  dsimp only
  rw [ran]
  exact found.resolve_right fun loud => loud.1 quiet

theorem areReady_cons (b : Rulebook) (s : MemoryStore) (key : ObjectKey)
    (rest : List ObjectKey) :
    (b.areReady store (key :: rest)).run.run s =
      match (b.isReady store key).run.run s with
      | (.ok true, t) => (b.areReady store rest).run.run t
      | (.ok false, t) => (.ok false, t)
      | (.error e, t) => (.error e, t) := by
  rw [areReady, ExceptT.run_bind, StateT.run_bind]
  rcases (b.isReady store key).run.run s with ⟨e | _ | _, t⟩ <;> rfl

/-- Asking for several objects gives the verdict on them, or fails by a queued failure. -/
theorem areReady_cases (b : Rulebook) (s : MemoryStore) (keys : List ObjectKey) :
    ∃ result t, (b.areReady store keys).run.run s = (result, t) ∧ SameObjects s t ∧
      (Quiet s → Quiet t) ∧ (result = b.verdicts s keys ∨ ¬ Quiet s ∧ ∃ e, result = .error e) := by
  induction keys generalizing s with
  | nil => exact ⟨_, s, rfl, fun _ => rfl, id, .inl rfl⟩
  | cons key rest ih =>
    obtain ⟨result, t, ran, same, still, outcome⟩ := b.isReady_cases s key
    rw [areReady_cons, ran, verdicts]
    rcases outcome with rfl | ⟨loud, e, rfl⟩
    · rcases ready : b.verdict s key with e | _ | _
      · exact ⟨_, t, rfl, same, still, .inl rfl⟩
      · exact ⟨_, t, rfl, same, still, .inl rfl⟩
      · obtain ⟨result, u, ran', same', still', outcome'⟩ := ih t
        refine ⟨result, u, ran', SameObjects.trans same same', fun q => still' (still q), ?_⟩
        rcases outcome' with eq | ⟨loud, error⟩
        · exact .inl (eq.trans (verdicts_congr rest fun k _ => (verdict_congr same k).symm))
        · exact .inr ⟨fun quiet => loud (still quiet), error⟩
    · exact ⟨_, t, rfl, same, still, .inr ⟨loud, e, rfl⟩⟩

end DesiredState.Rulebook
