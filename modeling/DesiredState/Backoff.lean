import DesiredState.Number.Power
import DesiredState.SortedMap
import DesiredState.Time.Duration

/-!
# Delays between failing attempts

Each name has a count of its failures in a row. The delay after a failure doubles with every
earlier one, from a base up to a cap. Counts and factors are 32-bit words that stop at the
largest.
-/

namespace DesiredState

/-- The largest count of failures and the largest factor. -/
def Backoff.largestCount : Nat := 4294967295

structure Backoff where
  base : Duration
  cap : Duration
  counts : SortedMap String Nat

namespace Backoff

/-- No failures yet. The cap is never below the base. -/
def start (base cap : Duration) : Backoff := ⟨base, max cap base, SortedMap.empty⟩

/-- From five milliseconds to five minutes. -/
def standard : Backoff := start (.ofMillis 5) (.ofSeconds 300)

/-- How often a name failed in a row. -/
def failures (b : Backoff) (name : String) : Nat := (b.counts.get? name).getD 0

/-- The power of two for a count. -/
def factor (count : Nat) : Nat := if count < 32 then twoTo count else largestCount

/-- The delay after a failure that so many others came before. -/
def delay (b : Backoff) (count : Nat) : Duration := min (b.base.times (factor count)) b.cap

/-- Count a failure of a name. -/
def fail (b : Backoff) (name : String) : Backoff :=
  { b with counts := b.counts.insert name (min (b.failures name + 1) largestCount) }

/-- Count a failure of a name, and the delay before its next attempt. -/
def next (b : Backoff) (name : String) : Duration × Backoff :=
  (b.delay (b.failures name), b.fail name)

/-- Forget the failures of a name. -/
def reset (b : Backoff) (name : String) : Backoff := { b with counts := b.counts.erase name }

theorem factor_eq_min (count : Nat) : factor count = min (twoTo count) largestCount := by
  unfold factor largestCount
  split
  · rename_i h
    have below : twoTo count ≤ 2147483648 := twoTo_le (show count ≤ 31 by omega)
    omega
  · rename_i h
    have above : 4294967296 ≤ twoTo count := twoTo_le (show 32 ≤ count by omega)
    omega

theorem failures_fail (b : Backoff) (name other : String) :
    (b.fail name).failures other =
      if other = name then min (b.failures name + 1) largestCount else b.failures other := by
  simp only [failures, fail, SortedMap.get?_insert]
  split <;> rfl

theorem failures_reset (b : Backoff) (name other : String) :
    (b.reset name).failures other = if other = name then 0 else b.failures other := by
  simp only [failures, reset, Entries.get?_erase]
  split <;> rfl

end Backoff

end DesiredState
