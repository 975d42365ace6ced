import DesiredState.Proofs.Store.Memory
import DesiredState.Readiness.Rulebook

/-!
# Readiness of several objects

Several objects are ready if each of them is. The first that is not decides what is answered, and
just what comes up to it and has a rule is looked up, once for each key, in order
(`areReady_concluded`). This holds of any store that answers the same while these are looked up, as
the store in memory does while no failure is queued (`steady_of_quiet`), and whatever the rules are.
-/

namespace DesiredState

namespace Store

variable {σ : Type} {s : Store (StateM σ)} {w : σ}

/-! ## Looking -/

/-- The world after some objects were looked up. -/
def after (s : Store (StateM σ)) (looks : List ObjectKey) (w : σ) : σ :=
  looks.foldl (fun v key => ((s.get key).run.run v).2) w

/-- While objects are looked up in order, each is answered for as it was at first. -/
def Steady (s : Store (StateM σ)) (keys : List ObjectKey) (w : σ) : Prop :=
  ∀ looks key, looks ++ [key] <+: keys →
    ((s.get key).run.run (s.after looks w)).1 = ((s.get key).run.run w).1

theorem after_append (looks more : List ObjectKey) (w : σ) :
    s.after (looks ++ more) w = s.after more (s.after looks w) := List.foldl_append

/-- The same operations, with the calls that were made so far, in order. -/
def recorded (s : Store (StateM σ)) : Store (StateM (σ × List Call)) :=
  (s.lift fun x w => ((x.run w.1).1, (x.run w.1).2, w.2)).noting fun call =>
    modify fun w => (w.1, w.2 ++ [call])

theorem run_recorded_get (s : Store (StateM σ)) (key : ObjectKey) (w : σ) (calls : List Call) :
    (s.recorded.get key).run.run (w, calls) =
      (((s.get key).run.run w).1, ((s.get key).run.run w).2, calls ++ [.get key]) := rfl

theorem after_recorded (s : Store (StateM σ)) (looks : List ObjectKey) (w : σ)
    (calls : List Call) :
    s.recorded.after looks (w, calls) = (s.after looks w, calls ++ looks.map .get) := by
  induction looks generalizing w calls with
  | nil => simp [after]
  | cons key rest ih =>
    show s.recorded.after rest ((s.recorded.get key).run.run (w, calls)).2 = _
    rw [run_recorded_get, ih]
    simp [after]

theorem get_after_of_quiet {m : MemoryStore} (quiet : m.Quiet) (looks : List ObjectKey)
    (key : ObjectKey) :
    ((MemoryStore.store.get key).run.run (MemoryStore.store.after looks m)).1 =
      .ok (m.object? key) := by
  induction looks generalizing m with
  | nil =>
    show (m.get key).1 = _
    rw [MemoryStore.get_of_quiet quiet]
  | cons first rest ih =>
    show ((MemoryStore.store.get key).run.run (MemoryStore.store.after rest (m.get first).2)).1 = _
    rw [MemoryStore.get_of_quiet quiet]
    exact ih (MemoryStore.quiet_count quiet .get)

/-- Where no failure is queued, the store in memory finds what it holds. -/
theorem steady_of_quiet {m : MemoryStore} (quiet : m.Quiet) (keys : List ObjectKey) :
    MemoryStore.store.Steady keys m :=
  fun looks key _ =>
    (get_after_of_quiet quiet looks key).trans (get_after_of_quiet quiet [] key).symm

end Store

namespace Rulebook

open Store

variable {σ : Type} {b : Rulebook} {s : Store (StateM σ)} {w : σ} {key : ObjectKey}
  {keys keys' looks : List ObjectKey} {result : Result Bool}

/-! ## One object -/

/-- The kind of an object has a rule. -/
def assigns (b : Rulebook) (key : ObjectKey) : Bool := (b.rules.get? key.groupKind).isSome

/-- What is answered for one object. -/
def readyAt (b : Rulebook) (s : Store (StateM σ)) (w : σ) (key : ObjectKey) : Result Bool :=
  ((b.isReady s key).run.run w).1

/-- The answer is that of the rule for what is found. -/
theorem readyAt_eq (b : Rulebook) (s : Store (StateM σ)) (w : σ) (key : ObjectKey) :
    b.readyAt s w key =
      match b.rules.get? key.groupKind with
      | none => .ok true
      | some rule => ((s.get key).run.run w).1.bind fun live => (b.judge rule key live).value := by
  unfold readyAt isReady
  cases b.rules.get? key.groupKind with
  | none => rfl
  | some rule =>
    dsimp only
    rw [ExceptT.run_bind, StateT.run_bind]
    rcases (s.get key).run.run w with ⟨error | found, v⟩ <;> rfl

/-- An object is looked up just if its kind has a rule. -/
theorem run_isReady (b : Rulebook) (s : Store (StateM σ)) (key : ObjectKey) (w : σ) :
    (b.isReady s key).run.run w = (b.readyAt s w key, s.after ([key].filter b.assigns) w) := by
  refine Prod.ext rfl ?_
  unfold isReady assigns
  cases rule : b.rules.get? key.groupKind with
  | none =>
    simp only [rule, List.filter_cons, Option.isSome_none, Bool.false_eq_true, if_false,
      List.filter_nil]
    rfl
  | some rule =>
    simp only [rule, List.filter_cons, Option.isSome_some, if_true, List.filter_nil]
    rw [ExceptT.run_bind, StateT.run_bind]
    rcases found : (s.get key).run.run w with ⟨error | live, v⟩ <;> simp [after, found] <;> rfl

/-- Objects that were looked up before make no difference to the next one. -/
theorem readyAt_after {done rest : List ObjectKey}
    (steady : s.Steady ((done ++ key :: rest).filter b.assigns) w) :
    b.readyAt s (s.after (done.filter b.assigns) w) key = b.readyAt s w key := by
  rw [readyAt_eq, readyAt_eq]
  cases rule : b.rules.get? key.groupKind with
  | none => rfl
  | some _ =>
    have assigned : b.assigns key = true := by rw [assigns, rule, Option.isSome_some]
    have next : done.filter b.assigns ++ [key] <+: (done ++ key :: rest).filter b.assigns := by
      rw [List.filter_append, List.filter_cons_of_pos assigned]
      exact ⟨rest.filter b.assigns, (List.append_cons ..).symm⟩
    rw [steady _ key next]

/-! ## Several objects -/

/-- What the answers for single objects come to, and what is looked up for that. -/
inductive Concludes (b : Rulebook) (answer : ObjectKey → Result Bool) :
    List ObjectKey → Result Bool → List ObjectKey → Prop where
  /-- All objects are ready. -/
  | ready {keys : List ObjectKey} (all : ∀ key ∈ keys, answer key = .ok true) :
      Concludes b answer keys (.ok true) (keys.filter b.assigns)
  /-- The first that is not decides. What comes after it makes no difference. -/
  | decided {before after : List ObjectKey} {key : ObjectKey}
      (ready : ∀ k ∈ before, answer k = .ok true) (unready : answer key ≠ .ok true) :
      Concludes b answer (before ++ key :: after) (answer key)
        ((before ++ [key]).filter b.assigns)

namespace Concludes

variable {answer : ObjectKey → Result Bool}

theorem head (unready : answer key ≠ .ok true) (after : List ObjectKey) :
    b.Concludes answer (key :: after) (answer key) ([key].filter b.assigns) := by
  have none : ∀ k ∈ ([] : List ObjectKey), answer k = .ok true := nofun
  exact .decided none unready

theorem cons (first : answer key = .ok true) (h : b.Concludes answer keys result looks) :
    b.Concludes answer (key :: keys) result ([key].filter b.assigns ++ looks) := by
  cases h with
  | ready all =>
    rw [← List.filter_append]
    exact .ready (List.forall_mem_cons.2 ⟨first, all⟩)
  | @decided before after k ready unready =>
    rw [← List.filter_append]
    have ready : ∀ k ∈ key :: before, answer k = .ok true :=
      List.forall_mem_cons.2 ⟨first, ready⟩
    exact .decided ready unready

theorem eq_ok_iff (h : b.Concludes answer keys result looks) :
    result = .ok true ↔ ∀ key ∈ keys, answer key = .ok true := by
  cases h with
  | ready all => exact iff_of_true rfl all
  | decided ready unready => exact iff_of_false unready fun all => unready (all _ (by simp))

/-- Where no answer is an error, the conclusion is none. -/
theorem exists_ok (h : b.Concludes answer keys result looks)
    (sound : ∀ key ∈ keys, ∃ ready, answer key = .ok ready) : ∃ ready, result = .ok ready := by
  cases h with
  | ready all => exact ⟨true, rfl⟩
  | decided ready unready => exact sound _ (by simp)

end Concludes

theorem run_areReady_cons (b : Rulebook) (s : Store (StateM σ)) (key : ObjectKey)
    (rest : List ObjectKey) (w : σ) :
    (b.areReady s (key :: rest)).run.run w =
      match b.readyAt s w key with
      | .ok true => (b.areReady s rest).run.run (s.after ([key].filter b.assigns) w)
      | result => (result, s.after ([key].filter b.assigns) w) := by
  rw [areReady, ExceptT.run_bind, StateT.run_bind, run_isReady]
  rcases b.readyAt s w key with error | _ | _ <;> rfl

theorem run_areReady_of_unready (unready : b.readyAt s w key ≠ .ok true)
    (rest : List ObjectKey) :
    (b.areReady s (key :: rest)).run.run w =
      (b.readyAt s w key, s.after ([key].filter b.assigns) w) := by
  rw [run_areReady_cons]
  split
  · contradiction
  · rfl

theorem readyAt_recorded (b : Rulebook) (s : Store (StateM σ)) (w : σ) (calls : List Call) :
    b.readyAt s.recorded (w, calls) = b.readyAt s w := by
  funext key
  rw [readyAt_eq, readyAt_eq, run_recorded_get]

/-- The run over several objects after others, also on the store that records it. -/
theorem run_areReady (done keys : List ObjectKey)
    (steady : s.Steady ((done ++ keys).filter b.assigns) w) :
    ∃ result looks, b.Concludes (b.readyAt s w) keys result looks ∧
      (b.areReady s keys).run.run (s.after (done.filter b.assigns) w) =
        (result, s.after looks (s.after (done.filter b.assigns) w)) ∧
      ∀ calls, (b.areReady s.recorded keys).run.run (s.after (done.filter b.assigns) w, calls) =
        (result, s.after looks (s.after (done.filter b.assigns) w), calls ++ looks.map .get) := by
  -- On what is left: the world is the one after `done`, and the answers are still those in `w`.
  induction keys generalizing done with
  | nil => exact ⟨_, [], .ready nofun, rfl, fun calls => by rw [List.map_nil, List.append_nil]; rfl⟩
  | cons key rest ih =>
    have now := readyAt_after steady
    by_cases ready : b.readyAt s w key = .ok true
    · rw [List.append_cons] at steady
      obtain ⟨result, looks, concludes, ran, recorded⟩ := ih (done ++ [key]) steady
      rw [List.filter_append, after_append] at ran recorded
      refine ⟨result, _, concludes.cons ready, ?_, fun calls => ?_⟩
      · rw [run_areReady_cons, now, ready, after_append]
        exact ran
      · rw [run_areReady_cons, readyAt_recorded, now, ready, after_append, List.map_append,
          ← List.append_assoc, ← recorded, after_recorded]
    · have unready := ready
      rw [← now] at unready
      refine ⟨_, _, .head ready rest, ?_, fun calls => ?_⟩
      · rw [run_areReady_of_unready unready, now]
      · rw [← readyAt_recorded b s _ calls] at unready
        rw [run_areReady_of_unready unready, readyAt_recorded, now, after_recorded]

/-- Several objects are ready if each of them is. Otherwise the first that is not decides. What
comes up to it and has a rule is looked up in order, and nothing else is called. So whether all are
ready does not hang on their order, and neither does the answer if none is an error. -/
theorem areReady_concluded (b : Rulebook) (s : Store (StateM σ)) (w : σ) (keys : List ObjectKey)
    (steady : s.Steady (keys.filter b.assigns) w) :
    ∃ result looks, b.Concludes (b.readyAt s w) keys result looks ∧
      (b.areReady s keys).run.run w = (result, s.after looks w) ∧
      (b.areReady s.recorded keys).run.run (w, []) =
        (result, s.after looks w, looks.map Call.get) ∧
      (result = .ok true ↔ ∀ key ∈ keys, b.readyAt s w key = .ok true) ∧
      ∀ keys', keys.Perm keys' → s.Steady (keys'.filter b.assigns) w →
        (((b.areReady s keys').run.run w).1 = .ok true ↔ result = .ok true) ∧
        ((∀ key ∈ keys, ∃ ready, b.readyAt s w key = .ok ready) →
          ((b.areReady s keys').run.run w).1 = result) := by
  obtain ⟨result, looks, concludes, ran, recorded⟩ := run_areReady [] keys steady
  refine ⟨result, looks, concludes, ran, recorded [], concludes.eq_ok_iff,
    fun keys' perm steady' => ?_⟩
  obtain ⟨result', looks', concludes', ran', -⟩ := run_areReady [] keys' steady'
  have same : result' = .ok true ↔ result = .ok true := by
    rw [concludes.eq_ok_iff, concludes'.eq_ok_iff]
    exact ⟨fun all key mem => all key (perm.mem_iff.1 mem),
      fun all key mem => all key (perm.mem_iff.2 mem)⟩
  have answered : ((b.areReady s keys').run.run w).1 = result' := congrArg Prod.fst ran'
  rw [answered]
  refine ⟨same, fun sound => ?_⟩
  obtain ⟨ready, eq⟩ := concludes.exists_ok sound
  obtain ⟨ready', eq'⟩ := concludes'.exists_ok fun key mem => sound key (perm.mem_iff.2 mem)
  subst eq eq'
  cases ready <;> cases ready' <;> simp_all

/-! ### An instance -/

section Instance

def widgetKey : ObjectKey := .of ⟨"example.dev", "v1", "Widget"⟩ (some "north") "w"

def limitsKey : ObjectKey := .of ⟨"", "v1", "LimitRange"⟩ (some "north") "limits"

/-- A store with one namespace that is active and one that is on its way out, and with a widget. -/
def town : MemoryStore :=
  ((MemoryStore.empty.put (namespaceKey "north") (.object [("status",
      .object [("phase", .str "Active")])])).put (namespaceKey "south") (.object [("status",
        .object [("phase", .str "Terminating")])])).put widgetKey (.object [])

/-- The standard rules, and one more: widgets never become ready. -/
def townRules : Rulebook :=
  Rulebook.standard.register widgetKey.groupKind fun _ _ => return .error (.readiness "broken")

/-- The objects that are asked for. -/
def townKeys : List ObjectKey := [limitsKey, namespaceKey "north", widgetKey, namespaceKey "south"]

/-- Limits have no rule and are not looked up. The north is ready, and the widget decides, although
the south is not ready either. Without the widget, the namespaces may come in any order. -/
theorem town_concluded :
    MemoryStore.store.Steady (townKeys.filter townRules.assigns) town ∧
      townRules.Concludes (townRules.readyAt MemoryStore.store town) townKeys
        (.error (.readiness "broken")) [namespaceKey "north", widgetKey] ∧
      ((townRules.areReady MemoryStore.store.recorded townKeys).run.run (town, [])).2.2 =
        [.get (namespaceKey "north"), .get widgetKey] ∧
      ((townRules.areReady MemoryStore.store
        [namespaceKey "south", namespaceKey "north"]).run.run town).1 = .ok false := by
  have steady (keys : List ObjectKey) : MemoryStore.store.Steady keys town :=
    Store.steady_of_quiet (fun _ => rfl) keys
  obtain ⟨result, looks, concludes, -, recorded, -⟩ :=
    areReady_concluded townRules MemoryStore.store town townKeys (steady _)
  have answered : ((townRules.areReady MemoryStore.store.recorded townKeys).run.run (town, [])).1 =
      .error (.readiness "broken") := by decide +kernel
  have called : ((townRules.areReady MemoryStore.store.recorded townKeys).run.run (town, [])).2.2 =
      [namespaceKey "north", widgetKey].map Call.get := by rfl
  rw [recorded] at answered called
  have looked : looks = [namespaceKey "north", widgetKey] :=
    List.map_injective_iff.2 (fun _ _ same => Call.get.inj same) called
  subst answered looked
  refine ⟨steady _, concludes, congrArg (·.2.2) recorded, ?_⟩
  obtain ⟨result, looks, -, ran, -, -, ordered⟩ := areReady_concluded townRules MemoryStore.store
    town [namespaceKey "north", namespaceKey "south"] (steady _)
  have answered : ((townRules.areReady MemoryStore.store
      [namespaceKey "north", namespaceKey "south"]).run.run town).1 = .ok false := by
    decide +kernel
  rw [ran] at answered
  subst answered
  have sound : ∀ key ∈ [namespaceKey "north", namespaceKey "south"],
      ∃ ready, townRules.readyAt MemoryStore.store town key = .ok ready := by
    simp only [List.forall_mem_cons, List.not_mem_nil, false_imp_iff, implies_true, and_true]
    exact ⟨⟨true, by decide +kernel⟩, false, by decide +kernel⟩
  exact (ordered _ (.swap _ _ _) (steady _)).2 sound

end Instance

end Rulebook

end DesiredState
