import DesiredState.Backoff

/-!
# How delays grow

A delay is never below the base and never above the cap, and more failures before it do not make it
shorter.
-/

namespace DesiredState.Backoff

variable {b : Backoff}

theorem factor_pos (count : Nat) : 0 < factor count := by
  rw [factor_eq_min]
  have := twoTo_pos count
  unfold largestCount
  omega

theorem factor_le {m n : Nat} (h : m ≤ n) : factor m ≤ factor n := by
  rw [factor_eq_min, factor_eq_min]
  have := twoTo_le h
  omega

theorem nanos_delay (b : Backoff) (count : Nat) :
    (b.delay count).nanos =
      min (min (b.base.nanos * factor count) Duration.longest.nanos) b.cap.nanos := by
  rw [delay, Duration.nanos_min, Duration.nanos_times]

theorem delay_le_cap (count : Nat) : b.delay count ≤ b.cap := by
  show (b.delay count).nanos ≤ b.cap.nanos
  rw [nanos_delay]
  omega

theorem base_le_delay (ordered : b.base ≤ b.cap) (count : Nat) : b.base ≤ b.delay count := by
  show b.base.nanos ≤ (b.delay count).nanos
  rw [nanos_delay]
  have ordered : b.base.nanos ≤ b.cap.nanos := ordered
  have multiple : b.base.nanos ≤ b.base.nanos * factor count :=
    Nat.le_mul_of_pos_right _ (factor_pos count)
  have bounded : b.base.nanos ≤ Duration.longest.nanos := Nat.le_sub_one_of_lt b.base.bounded
  omega

theorem delay_le {m n : Nat} (h : m ≤ n) : b.delay m ≤ b.delay n := by
  show (b.delay m).nanos ≤ (b.delay n).nanos
  rw [nanos_delay, nanos_delay]
  have multiple := Nat.mul_le_mul_left b.base.nanos (factor_le h)
  omega

/-! ## From a new table on -/

theorem base_le_delay_start (base cap : Duration) (count : Nat) :
    base ≤ (start base cap).delay count := by
  refine base_le_delay (b := start base cap) ?_ count
  show base.nanos ≤ (max cap base).nanos
  rw [Duration.nanos_max]
  omega

theorem delay_start_le (base cap : Duration) (count : Nat) :
    (start base cap).delay count ≤ max base cap := by
  have capped : ((start base cap).delay count).nanos ≤ (max cap base).nanos := delay_le_cap count
  show ((start base cap).delay count).nanos ≤ (max base cap).nanos
  rw [Duration.nanos_max] at capped ⊢
  omega

end DesiredState.Backoff
