import DesiredState.Proofs.Backoff
import Mathlib.Data.List.DropRight
import Mathlib.Data.List.Induction

/-!
# When delays double

However a table of failures was used, the next delay of a name depends on its failures in a row
alone (`nanos_next`). It is the base doubled that often, up to the cap, as long as the power of two
fits in 32 bits. From 32 failures on the factor stays where it is, and a cap that is out of its
reach is never reached (`next_delayed`).
-/

namespace DesiredState.Backoff

/-! ## Uses of a table -/

/-- What can be done with a table of failures. -/
inductive Use where
  /-- A name failed, and its delay is asked for. -/
  | next (name : String)
  /-- The failures of a name are forgotten. -/
  | reset (name : String)
  deriving DecidableEq

/-- The table after a use. -/
def Use.after (b : Backoff) : Use → Backoff
  | next name => (b.next name).2
  | reset name => b.reset name

/-- The table after some uses of a new one. -/
def run (base cap : Duration) (uses : List Use) : Backoff := uses.foldl Use.after (start base cap)

/-- How often a name failed since its failures were last forgotten. -/
def streak (name : String) (uses : List Use) : Nat :=
  (uses.rtakeWhile (· ≠ .reset name)).count (.next name)

variable {base cap : Duration} {uses : List Use} {name : String}

theorem run_snoc (base cap : Duration) (uses : List Use) (x : Use) :
    run base cap (uses ++ [x]) = x.after (run base cap uses) := List.foldl_concat ..

theorem streak_snoc (name : String) (uses : List Use) (x : Use) :
    streak name (uses ++ [x]) =
      if x = .reset name then 0
      else if x = .next name then streak name uses + 1
      else streak name uses := by
  unfold streak
  rw [List.rtakeWhile_concat]
  by_cases forgotten : x = .reset name
  · simp [forgotten]
  · by_cases failed : x = .next name
    · simp [failed]
    · simp [forgotten, failed]

theorem base_run (base cap : Duration) (uses : List Use) : (run base cap uses).base = base := by
  induction uses using List.reverseRecOn with
  | nil => rfl
  | append_singleton uses x ih =>
    rw [run_snoc]
    cases x <;> exact ih

theorem cap_run (base cap : Duration) (uses : List Use) :
    (run base cap uses).cap = max cap base := by
  induction uses using List.reverseRecOn with
  | nil => rfl
  | append_singleton uses x ih =>
    rw [run_snoc]
    cases x <;> exact ih

/-- The count of a name is its streak, up to the largest count. -/
theorem failures_run (base cap : Duration) (uses : List Use) (name : String) :
    (run base cap uses).failures name = min (streak name uses) largestCount := by
  induction uses using List.reverseRecOn with
  | nil => rfl
  | append_singleton uses x ih =>
    rw [run_snoc, streak_snoc]
    cases x with
    | next other =>
      show ((run base cap uses).fail other).failures name = _
      rw [failures_fail]
      by_cases mine : name = other
      · subst mine
        simp only [if_true, reduceCtorEq, if_false, ih]
        omega
      · simp [mine, Ne.symm mine, ih]
    | reset other =>
      show ((run base cap uses).reset other).failures name = _
      rw [failures_reset]
      by_cases mine : name = other
      · simp [mine]
      · simp [mine, Ne.symm mine, ih]

/-! ## Delays -/

/-- Counts that stop at the largest one make no difference to the factor. -/
theorem factor_min (n : Nat) : factor (min n largestCount) = factor n := by
  unfold factor largestCount
  by_cases small : n < 32
  · rw [Nat.min_eq_left (by omega)]
  · rw [if_neg (by omega), if_neg small]

theorem nanos_le_longest (d : Duration) : d.nanos ≤ Duration.longest.nanos :=
  Nat.le_sub_one_of_lt d.bounded

/-- The next delay of a name, whatever happened before. Products that stop at the longest length of
time make no difference, as the cap is no longer. -/
theorem nanos_next (base cap : Duration) (uses : List Use) (name : String) :
    ((run base cap uses).next name).1.nanos =
      min (base.nanos * min (twoTo (streak name uses)) largestCount)
        (max base.nanos cap.nanos) := by
  have longest := nanos_le_longest (max cap base)
  show ((run base cap uses).delay _).nanos = _
  rw [nanos_delay, failures_run, factor_min, base_run, cap_run, factor_eq_min]
  rw [Duration.nanos_max] at longest ⊢
  omega

/-- The base doubled `n` times, up to the cap or the base if that is longer. -/
def doubled (base cap : Duration) (n : Nat) : Nat :=
  min (base.nanos * twoTo n) (max base.nanos cap.nanos)

/-- The delay after `n` failures in a row. -/
structure Delayed (base cap : Duration) (n : Nat) (delay : Duration) : Prop where
  nanos : delay.nanos =
    min (base.nanos * min (twoTo n) largestCount) (max base.nanos cap.nanos)
  /-- The base is doubled each time just if the factor fits, or does not matter. -/
  doubles : delay.nanos = doubled base cap n ↔
    n < 32 ∨ base.nanos = 0 ∨ max base.nanos cap.nanos ≤ base.nanos * largestCount
  /-- A cap within reach is reached after 32 failures at the latest. -/
  capped : max base.nanos cap.nanos ≤ base.nanos * largestCount → 32 ≤ n →
    delay.nanos = max base.nanos cap.nanos
  /-- Any other is never reached. -/
  short : base.nanos * largestCount < max base.nanos cap.nanos →
    delay.nanos < max base.nanos cap.nanos

theorem min_twoTo_of_lt {n : Nat} (small : n < 32) : min (twoTo n) largestCount = twoTo n := by
  have fits := factor_eq_min n
  rw [factor, if_pos small] at fits
  exact fits.symm

theorem min_twoTo_of_le {n : Nat} (large : 32 ≤ n) :
    min (twoTo n) largestCount = largestCount := by
  have stopped := factor_eq_min n
  rw [factor, if_neg (by omega)] at stopped
  exact stopped.symm

/-- From 32 failures on, a product with the factor is below the one with the power of two, unless
both are nothing. -/
theorem mul_largestCount_lt {n b : Nat} (large : 32 ≤ n) (positive : b ≠ 0) :
    b * largestCount < b * twoTo n := by
  have above : 4294967296 ≤ twoTo n := twoTo_le large
  refine Nat.mul_lt_mul_of_pos_left ?_ (Nat.pos_of_ne_zero positive)
  unfold largestCount
  omega

/-- The delays of a name depend on its failures in a row, and double as far as a word of 32 bits
reaches. -/
theorem next_delayed (base cap : Duration) (uses : List Use) (name : String) :
    Delayed base cap (streak name uses) ((run base cap uses).next name).1 := by
  have delay := nanos_next base cap uses name
  generalize ((run base cap uses).next name).1 = d at delay ⊢
  generalize streak name uses = n at delay ⊢
  have least : base.nanos * min (twoTo n) largestCount ≤ base.nanos * largestCount :=
    Nat.mul_le_mul_left _ (Nat.min_le_right _ _)
  refine ⟨delay, ?_, ?_, ?_⟩
  · rw [delay, doubled]
    by_cases small : n < 32
    · rw [min_twoTo_of_lt small]
      exact iff_of_true rfl (.inl small)
    · by_cases nothing : base.nanos = 0
      · rw [nothing, Nat.zero_mul, Nat.zero_mul]
        exact iff_of_true rfl (.inr (.inl rfl))
      · have large : 32 ≤ n := by omega
        have grows := mul_largestCount_lt large nothing
        rw [min_twoTo_of_le large]
        generalize base.nanos * largestCount = most at grows ⊢
        omega
  · intro reached large
    rw [min_twoTo_of_le large] at delay
    omega
  · intro beyond
    omega

/-! ### An instance -/

section Instance

/-- Thirty-two failures in a row of one name, with one of another among them. -/
def longStreak : List Use :=
  .next "b" :: List.replicate 20 (.next "a") ++ .next "b" :: List.replicate 12 (.next "a")

/-- From one nanosecond and up to ten seconds, the delay after them is short of the double of the
one before by a nanosecond, and the cap is never reached. -/
theorem nanosecond_short :
    streak "a" longStreak = 32 ∧
      ((run (.ofNanos 1) (.ofSeconds 10) longStreak).next "a").1.nanos = 4294967295 ∧
      doubled (.ofNanos 1) (.ofSeconds 10) 32 = 4294967296 ∧
      ∀ uses name, ((run (.ofNanos 1) (.ofSeconds 10) uses).next name).1.nanos <
        (Duration.ofSeconds 10).nanos := by
  have base : (Duration.ofNanos 1).nanos = 1 := by decide
  have cap : (Duration.ofSeconds 10).nanos = 10000000000 := by decide
  refine ⟨by decide, by decide +kernel, by decide +kernel, fun uses name => ?_⟩
  have most : min (twoTo (streak name uses)) largestCount ≤ 4294967295 := Nat.min_le_right _ _
  rw [nanos_next, base, cap]
  omega

end Instance

end DesiredState.Backoff
