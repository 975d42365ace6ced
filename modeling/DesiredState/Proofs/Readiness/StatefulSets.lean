import DesiredState.Proofs.Object.Shape

/-!
# Rollouts of stateful sets

A stateful set is ready once its rollout is finished, which is a matter of plain integers
(`Rollout.Finished`). The rule takes the partition off the wanted replicas in 32 bits without a
check. The difference fits unless a negative number of replicas is wanted and the partition is
large (`overflows_iff`), and then the rule breaks off; everywhere else it tells whether the rollout
is finished (`statefulSet_judged`).
-/

namespace DesiredState

open Json

/-! ## What a live object says of its rollout -/

/-- What the readiness of a stateful set depends on. -/
structure Rollout where
  /-- There is a status. -/
  reported : Bool
  generation : Option Int
  observed : Option Int
  replicas : Option Int
  partition : Option Int
  updated : Option Int
  ready : Option Int
  current : Option Int

namespace Rollout

/-- The numbers that a live object states, however large. -/
def of (live : Json) : Rollout where
  reported := live.statesAt ["status"]
  generation := live.integerAt? ["metadata", "generation"]
  observed := live.integerAt? ["status", "observedGeneration"]
  replicas := live.integerAt? ["spec", "replicas"]
  partition := live.integerAt? ["spec", "updateStrategy", "rollingUpdate", "partition"]
  updated := live.integerAt? ["status", "updatedReplicas"]
  ready := live.integerAt? ["status", "readyReplicas"]
  current := live.integerAt? ["status", "replicas"]

/-- The status is of the present generation. -/
def UpToDate (r : Rollout) : Prop := r.reported = true ∧ r.generation = r.observed

/-- Of the wanted replicas, so many are updated and all are ready, and there are no others. -/
def Reaches (r : Rollout) (wanted due : Int) : Prop :=
  r.UpToDate ∧ due ≤ r.updated.getD 0 ∧ wanted ≤ r.ready.getD 0 ∧ r.current.getD 0 ≤ wanted

instance (r : Rollout) : Decidable r.UpToDate := inferInstanceAs (Decidable (_ ∧ _))

instance (r : Rollout) (wanted due : Int) : Decidable (r.Reaches wanted due) :=
  inferInstanceAs (Decidable (_ ∧ _))

/-- How many replicas are left if those below the partition keep the old revision. -/
def due (wanted : Int) (partition : Option Int) : Int :=
  max 0 (wanted - max 0 (partition.getD 0))

/-- The wanted replicas from the partition on are updated. -/
def Finished (r : Rollout) : Prop :=
  ∃ wanted, r.replicas = some wanted ∧ r.Reaches wanted (due wanted r.partition)

/-- It is worked out how many replicas to update, and the difference does not fit in 32 bits. -/
def Overflows (r : Rollout) : Prop :=
  r.UpToDate ∧ ∃ wanted, r.replicas = some wanted ∧
    ¬ Word.HoldsSigned 32 (wanted - max 0 (r.partition.getD 0))

/-- More replicas are updated or ready, or the partition is larger. Nothing else differs. -/
structure RaisedTo (r r' : Rollout) : Prop where
  reported : r.reported = r'.reported
  generation : r.generation = r'.generation
  observed : r.observed = r'.observed
  replicas : r.replicas = r'.replicas
  current : r.current = r'.current
  updated : r.updated.getD 0 ≤ r'.updated.getD 0
  ready : r.ready.getD 0 ≤ r'.ready.getD 0
  partition : r.partition.getD 0 ≤ r'.partition.getD 0

/-! ## The difference in 32 bits -/

section Differences

variable {wanted : Int} {partition partition' : Option Int}

theorem holdsSigned_iff {n : Int} :
    Word.HoldsSigned 32 n ↔ -2147483648 ≤ n ∧ n < 2147483648 := Iff.rfl

/-- What lies as far below the words as two of them reach comes round once. -/
theorem wrap_of_low {n : Int} (low : -6442450944 ≤ n) (high : n < -2147483648) :
    Word.wrap 32 n = n + 4294967296 := by
  have word : Word.HoldsSigned 32 (n + 4294967296) := holdsSigned_iff.2 (by omega)
  have round : Word.wrap 32 (n + 4294967296) = Word.wrap 32 n := Int.add_bmod_right n 4294967296
  rw [← round, @Word.wrap_eq_self 31 _ word]

theorem replicasToUpdate_of_holds
    (holds : Word.HoldsSigned 32 (wanted - max 0 (partition.getD 0))) :
    Rule.replicasToUpdate wanted partition = pure (due wanted partition) := by
  unfold Rule.replicasToUpdate due
  rw [Int.max_comm (partition.getD 0), @Word.unchecked_of_holds 31 _ holds, pure_bind,
    Int.max_comm]

/-- To work out how many replicas to update breaks off if the difference does not fit. -/
theorem overflowed_replicasToUpdate
    (large : ¬ Word.HoldsSigned 32 (wanted - max 0 (partition.getD 0))) :
    (Rule.replicasToUpdate wanted partition).overflowed = true := by
  unfold Rule.replicasToUpdate Word.unchecked
  rw [Int.max_comm (partition.getD 0), decide_eq_false large]
  rfl

variable (word : Word.HoldsSigned 32 wanted)
  (words : ∀ n, partition = some n → Word.HoldsSigned 32 n)

include word words

/-- The difference does not fit if the partition is too far above the wanted replicas, which are
fewer than none then. -/
theorem not_holds_iff :
    ¬ Word.HoldsSigned 32 (wanted - max 0 (partition.getD 0)) ↔
      ∃ n, partition = some n ∧ wanted + 2147483648 < n := by
  rw [holdsSigned_iff] at word ⊢
  cases partition with
  | none => simp; omega
  | some n =>
    have word' := holdsSigned_iff.1 (words n rfl)
    simp only [Option.getD_some, Option.some.injEq, exists_eq_left']
    omega

theorem value_replicasToUpdate_of_low {n : Int} (placed : partition = some n)
    (low : wanted + 2147483648 < n) :
    (Rule.replicasToUpdate wanted partition).value = wanted - n + 4294967296 := by
  rw [holdsSigned_iff] at word
  have word' := holdsSigned_iff.1 (words n placed)
  have positive : max n 0 = n := by omega
  unfold Rule.replicasToUpdate Word.unchecked
  rw [placed, Option.getD_some, positive, wrap_of_low (by omega) (by omega), Tracked.value_bind,
    Tracked.value_pure]
  dsimp only
  omega

end Differences

/-! ## The rule -/

section Rule

variable {live live' : Json} {expected : List String}

variable (admitted : Shape.statefulSet.admits live = true)

include admitted

/-! ### What the rule looks at -/

theorem intAt?_of_admits {path : List String}
    (led : Shape.statefulSet.along path = some Shape.int32) :
    live.intAt? 32 path = live.integerAt? path := Shape.intAt?_along led admitted

theorem counter_of_admits {name : String}
    (led : Shape.statefulSet.along ["status", name] = some Shape.int32) :
    Rule.counter live name = (live.integerAt? ["status", name]).getD 0 := by
  rw [Rule.counter, intAt?_of_admits admitted led]

theorem observed_of_admits : Rule.observed live = decide (of live).UpToDate := by
  unfold Rule.observed
  rw [Shape.hasObjectAt_along rfl admitted, Shape.intAt?_along rfl admitted,
    Shape.intAt?_along rfl admitted]
  rw [Bool.eq_iff_iff, Bool.and_eq_true, decide_eq_true_iff, decide_eq_true_iff]
  rfl

/-- With a status of another generation, or no number of replicas wanted, a stateful set is not
ready. -/
theorem statefulSet_of_idle
    (idle : ¬ ((of live).UpToDate ∧ ∃ wanted, (of live).replicas = some wanted)) :
    Rule.statefulSet live expected = pure (.ok false) := by
  unfold Rule.statefulSet Rule.shaped
  dsimp only
  rw [if_pos admitted, observed_of_admits admitted, intAt?_of_admits admitted rfl]
  cases stated : live.integerAt? ["spec", "replicas"] with
  | none => cases decide (of live).UpToDate <;> rfl
  | some wanted =>
    have stale : ¬ (of live).UpToDate := fun current => idle ⟨current, wanted, stated⟩
    rw [decide_eq_false stale]

/-- Otherwise it is ready if the replicas come to as many as are worked out. -/
theorem statefulSet_of_current {wanted : Int} (current : (of live).UpToDate)
    (stated : (of live).replicas = some wanted) :
    Rule.statefulSet live expected =
      (fun due => .ok (decide ((of live).Reaches wanted due))) <$>
        Rule.replicasToUpdate wanted (of live).partition := by
  unfold Rule.statefulSet Rule.shaped
  dsimp only
  rw [if_pos admitted, observed_of_admits admitted, decide_eq_true current,
    intAt?_of_admits admitted rfl, show live.integerAt? ["spec", "replicas"] = some wanted from
      stated, intAt?_of_admits admitted rfl, counter_of_admits admitted rfl,
    counter_of_admits admitted rfl, counter_of_admits admitted rfl, map_eq_pure_bind]
  simp only [Reaches, current, true_and, Bool.decide_and, Bool.and_assoc]
  rfl

/-! ### Where it breaks off -/

/-- All numbers of a rollout that the difference is taken of fit in 32 bits. -/
theorem words_of_admits :
    (∀ n, (of live).replicas = some n → Word.HoldsSigned 32 n) ∧
      ∀ n, (of live).partition = some n → Word.HoldsSigned 32 n :=
  ⟨fun _ found => Shape.holds_along rfl admitted found,
    fun _ found => Shape.holds_along rfl admitted found⟩

theorem overflows_iff :
    (of live).Overflows ↔ (of live).UpToDate ∧ ∃ wanted n, (of live).replicas = some wanted ∧
      (of live).partition = some n ∧ wanted + 2147483648 < n := by
  obtain ⟨word, words⟩ := words_of_admits admitted
  constructor
  · rintro ⟨current, wanted, stated, large⟩
    obtain ⟨n, placed, low⟩ := (not_holds_iff (word wanted stated) words).1 large
    exact ⟨current, wanted, n, stated, placed, low⟩
  · rintro ⟨current, wanted, n, stated, placed, low⟩
    exact ⟨current, wanted, stated, (not_holds_iff (word wanted stated) words).2 ⟨n, placed, low⟩⟩

theorem statefulSet_of_overflows (overflows : (of live).Overflows) :
    (Rule.statefulSet live expected).checked = .error .overflow := by
  obtain ⟨current, wanted, stated, large⟩ := overflows
  rw [statefulSet_of_current admitted current stated, Tracked.checked_eq_overflow_iff,
    Tracked.overflowed_map, overflowed_replicasToUpdate large]

/-- Without an overflow, the rule tells whether the rollout is finished. -/
theorem statefulSet_of_fitting (fitting : ¬ (of live).Overflows) (expected : List String) :
    ∃ ready, Rule.statefulSet live expected = pure (.ok ready) ∧
      (ready = true ↔ (of live).Finished) := by
  by_cases idle : (of live).UpToDate ∧ ∃ wanted, (of live).replicas = some wanted
  · obtain ⟨current, wanted, stated⟩ := idle
    have holds : Word.HoldsSigned 32 (wanted - max 0 ((of live).partition.getD 0)) := by
      by_contra large
      exact fitting ⟨current, wanted, stated, large⟩
    refine ⟨decide ((of live).Reaches wanted (due wanted (of live).partition)), ?_, ?_⟩
    · rw [statefulSet_of_current admitted current stated, replicasToUpdate_of_holds holds, map_pure]
    · rw [decide_eq_true_iff, Finished, stated]
      simp only [Option.some.injEq, exists_eq_left']
  · refine ⟨false, statefulSet_of_idle admitted idle, iff_of_false Bool.false_ne_true ?_⟩
    rintro ⟨wanted, stated, current, -⟩
    exact idle ⟨current, wanted, stated⟩

theorem checked_statefulSet_iff :
    (Rule.statefulSet live expected).checked = .ok (.ok true) ↔
      ¬ (of live).Overflows ∧ (of live).Finished := by
  by_cases overflows : (of live).Overflows
  · rw [statefulSet_of_overflows admitted overflows]
    exact iff_of_false (by simp) fun h => h.1 overflows
  · obtain ⟨ready, eq, finished⟩ := statefulSet_of_fitting admitted overflows expected
    rw [eq, Tracked.checked_pure, Except.ok.injEq, Except.ok.injEq, finished]
    exact (and_iff_right overflows).symm

/-- If nobody looks out for the difference, another number of replicas has to be updated. -/
theorem value_statefulSet_of_low {wanted n : Int} (stated : (of live).replicas = some wanted)
    (placed : (of live).partition = some n) (low : wanted + 2147483648 < n) :
    (Rule.statefulSet live expected).value = .ok true ↔
      (of live).Reaches wanted (wanted - n + 4294967296) := by
  by_cases current : (of live).UpToDate
  · obtain ⟨word, words⟩ := words_of_admits admitted
    rw [statefulSet_of_current admitted current stated, Tracked.value_map,
      value_replicasToUpdate_of_low (word wanted stated) words placed low, Except.ok.injEq,
      decide_eq_true_iff]
  · rw [statefulSet_of_idle admitted fun h => current h.1]
    exact iff_of_false (by simp) fun h => current h.1

omit admitted in
/-- More replicas that are updated or ready, or a larger partition, leave a rollout finished. -/
theorem Finished.raised (finished : (of live).Finished) (raised : (of live).RaisedTo (of live')) :
    (of live').Finished := by
  obtain ⟨wanted, stated, ⟨reported, generation⟩, updated, all, none⟩ := finished
  have fewer : due wanted (of live').partition ≤ due wanted (of live).partition := by
    have larger := raised.partition
    rw [due, due]
    omega
  refine ⟨wanted, raised.replicas ▸ stated, ⟨raised.reported ▸ reported, ?_⟩, ?_, ?_, ?_⟩
  · rw [← raised.generation, ← raised.observed, generation]
  · exact Int.le_trans fewer (Int.le_trans updated raised.updated)
  · exact Int.le_trans all raised.ready
  · exact raised.current ▸ none

/-- What the rule says of a stateful set, for all numbers that it may state. -/
structure Judged (live : Json) (expected : List String) : Prop where
  /-- The rule breaks off just where the difference does not fit. -/
  breaks_off : (Rule.statefulSet live expected).checked = .error .overflow ↔ (of live).Overflows
  /-- Everywhere else it tells whether the rollout is finished. -/
  answered : ¬ (of live).Overflows →
    ∃ ready, (Rule.statefulSet live expected).checked = .ok (.ok ready) ∧
      (ready = true ↔ (of live).Finished)
  /-- The difference does not fit just if the partition is too far above the wanted replicas. -/
  overflows : (of live).Overflows ↔ (of live).UpToDate ∧ ∃ wanted n,
    (of live).replicas = some wanted ∧ (of live).partition = some n ∧ wanted + 2147483648 < n
  /-- If nobody looks out for it, it comes round there, and some replicas have to be updated
  although none is left. -/
  wrapped : ∀ wanted n, (of live).replicas = some wanted → (of live).partition = some n →
    wanted + 2147483648 < n →
      (due wanted (some n) = 0 ∧ 0 < wanted - n + 4294967296) ∧
        ((Rule.statefulSet live expected).value = .ok true ↔
          (of live).Reaches wanted (wanted - n + 4294967296))
  /-- Unless it comes to an overflow, more replicas that are updated or ready, or a larger
  partition, leave a stateful set ready. -/
  raised : ∀ live', Shape.statefulSet.admits live' = true → (of live).RaisedTo (of live') →
    ¬ (of live').Overflows →
      (Rule.statefulSet live expected).checked = .ok (.ok true) →
        (Rule.statefulSet live' expected).checked = .ok (.ok true)

/-- Every document of the shape of a stateful set is judged by its rollout. -/
theorem statefulSet_judged (expected : List String) : Judged live expected where
  breaks_off := by
    refine ⟨fun ended => ?_, statefulSet_of_overflows admitted⟩
    by_contra fitting
    obtain ⟨ready, eq, -⟩ := statefulSet_of_fitting admitted fitting expected
    rw [eq] at ended
    cases ended
  answered fitting := by
    obtain ⟨ready, eq, finished⟩ := statefulSet_of_fitting admitted fitting expected
    exact ⟨ready, by rw [eq, Tracked.checked_pure], finished⟩
  overflows := overflows_iff admitted
  wrapped := by
    intro wanted n stated placed low
    obtain ⟨word, words⟩ := words_of_admits admitted
    have word := holdsSigned_iff.1 (word wanted stated)
    have word' := holdsSigned_iff.1 (words n placed)
    refine ⟨⟨?_, by omega⟩, value_statefulSet_of_low admitted stated placed low⟩
    rw [due, Option.getD_some]
    omega
  raised := by
    intro live' admitted' raised fitting' ready
    have finished := ((checked_statefulSet_iff admitted).1 ready).2
    exact (checked_statefulSet_iff admitted').2 ⟨fitting', finished.raised raised⟩

end Rule

/-! ### Instances -/

section Instances

/-- A stateful set that wants so many replicas from a partition on, and has some of them. -/
def database (wanted n current ready updated : Int) : Json :=
  .object [("apiVersion", .str "apps/v1"), ("kind", .str "StatefulSet"),
    ("metadata", .object [("name", .str "db"), ("generation", .int 1)]),
    ("spec", .object [("replicas", .int wanted),
      ("updateStrategy", .object [("rollingUpdate", .object [("partition", .int n)])])]),
    ("status", .object [("observedGeneration", .int 1), ("replicas", .int current),
      ("readyReplicas", .int ready), ("updatedReplicas", .int updated)])]

theorem of_database (wanted n current ready updated : Int) :
    of (database wanted n current ready updated) =
      ⟨true, some 1, some 1, some wanted, some n, some updated, some ready, some current⟩ := by
  simp [of, database, integerAt?, statesAt, path?, member?, asObject?, Json.object,
    SortedMap.ofList, Json.int, isNull]

/-- Two of three replicas keep the old revision. -/
theorem database_judged :
    Shape.statefulSet.admits (database 3 2 3 3 1) = true ∧
      ¬ (of (database 3 2 3 3 1)).Overflows ∧ (of (database 3 2 3 3 1)).Finished ∧
      (Rule.statefulSet (database 3 2 3 3 1) []).checked = .ok (.ok true) := by
  have admitted : Shape.statefulSet.admits (database 3 2 3 3 1) = true := by decide +kernel
  have judged := statefulSet_judged admitted []
  have fitting : ¬ (of (database 3 2 3 3 1)).Overflows := by
    rw [judged.overflows, of_database]
    simp
  have done : (of (database 3 2 3 3 1)).Finished := by
    rw [of_database]
    exact ⟨3, rfl, ⟨rfl, rfl⟩, by decide⟩
  obtain ⟨ready, answered, finished⟩ := judged.answered fitting
  exact ⟨admitted, fitting, done, finished.2 done ▸ answered⟩

/-- Fewer than no replicas are wanted, and there are that many. With the largest partition, the
rollout is as finished as it is without one, but the rule breaks off. If nobody looks out for the
difference, the set is not ready any more. -/
theorem database_breaks_off :
    Shape.statefulSet.admits (database (-2) 2147483647 (-2) 0 0) = true ∧
      (of (database (-2) 2147483647 (-2) 0 0)).Finished ∧
      (Rule.statefulSet (database (-2) 2147483647 (-2) 0 0) []).checked = .error .overflow ∧
      (Rule.statefulSet (database (-2) 2147483647 (-2) 0 0) []).value = .ok false ∧
      (of (database (-2) 0 (-2) 0 0)).RaisedTo (of (database (-2) 2147483647 (-2) 0 0)) ∧
      (Rule.statefulSet (database (-2) 0 (-2) 0 0) []).checked = .ok (.ok true) := by
  refine ⟨by decide +kernel, ?_, by decide +kernel, by decide +kernel, ?_, by decide +kernel⟩
  · rw [of_database]
    exact ⟨-2, rfl, ⟨rfl, rfl⟩, by decide⟩
  · rw [of_database, of_database]
    constructor <;> decide

end Instances

end Rollout

end DesiredState
