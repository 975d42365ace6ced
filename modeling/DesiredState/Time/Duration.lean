/-!
# Lengths of time

A length of time counts nanoseconds. It has a longest value, and a product that would pass it
stops there.
-/

namespace DesiredState

/-- The nanoseconds of one second. -/
def nanosPerSecond : Nat := 1000000000

/-- The first number of nanoseconds whose whole seconds need more than 64 bits. -/
def Duration.limit : Nat := 18446744073709551616 * nanosPerSecond

/-- A length of time in nanoseconds. -/
structure Duration where
  nanos : Nat
  bounded : nanos < Duration.limit
  deriving DecidableEq

namespace Duration

/-- The longest length of time. -/
def longest : Duration := ⟨limit - 1, by decide⟩

/-- So many nanoseconds, or the longest length of time if they are too many. -/
def ofNanos (n : Nat) : Duration :=
  if h : n < limit then ⟨n, h⟩ else longest

def ofSeconds (n : Nat) : Duration := ofNanos (n * nanosPerSecond)

def ofMillis (n : Nat) : Duration := ofNanos (n * 1000000)

instance : LE Duration := ⟨fun a b => a.nanos ≤ b.nanos⟩

instance (a b : Duration) : Decidable (a ≤ b) := inferInstanceAs (Decidable (a.nanos ≤ b.nanos))

instance : Min Duration := ⟨fun a b => if a ≤ b then a else b⟩

instance : Max Duration := ⟨fun a b => if a ≤ b then b else a⟩

/-- A multiple, as far as lengths of time go. -/
def times (d : Duration) (k : Nat) : Duration := ofNanos (d.nanos * k)

/-- The whole seconds. -/
def seconds (d : Duration) : Nat := d.nanos / nanosPerSecond

/-- The nanoseconds past the whole seconds. -/
def subsecondNanos (d : Duration) : Nat := d.nanos % nanosPerSecond

/-- The whole milliseconds. -/
def millis (d : Duration) : Nat := d.nanos / 1000000

/-! ## Laws -/

theorem nanos_ofNanos (n : Nat) : (ofNanos n).nanos = min n longest.nanos := by
  unfold ofNanos longest limit nanosPerSecond
  split <;> simp only <;> omega

theorem nanos_times (d : Duration) (k : Nat) :
    (d.times k).nanos = min (d.nanos * k) longest.nanos := nanos_ofNanos _

theorem nanos_min (a b : Duration) : (min a b).nanos = min a.nanos b.nanos := by
  change (if a.nanos ≤ b.nanos then a else b).nanos = _
  split <;> omega

theorem nanos_max (a b : Duration) : (max a b).nanos = max a.nanos b.nanos := by
  change (if a.nanos ≤ b.nanos then b else a).nanos = _
  split <;> omega

end Duration

end DesiredState
