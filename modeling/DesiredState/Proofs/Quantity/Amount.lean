import DesiredState.Proofs.Quantity.Steps
import Mathlib.Data.Rat.Floor
import Mathlib.Tactic.FieldSimp
import Mathlib.Tactic.Linarith

/-!
# Exact amounts of quantities

A spelling denotes a rational number of units of `10 ^ -9`. What is read is that number, rounded
away from zero to a whole one, as long as the words hold the steps (`Spelling.Fits.reading_eq`). Two
sums are not checked, that of the decimal exponents and the one that rounds up, and the reading
breaks off where one of them does not fit (`Spelling.Overflows.overflowed`). Everything else is
refused (`Spelling.reading_refused`). So two quantities are the same exactly if they are of one
amount, whatever their spellings (`nanos_exact`).
-/

namespace DesiredState.Quantity

open Reading

/-! ## Amounts -/

/-- The value and the divisor fit, and their sum does not. -/
def SumOverflows (mantissa two : Nat) (ten : Int) : Prop :=
  mantissa * 2 ^ two < 2 ^ 127 ∧ -38 ≤ ten ∧ ten < 0 ∧
    2 ^ 127 ≤ mantissa * 2 ^ two + 10 ^ (-ten).toNat

instance (mantissa two : Nat) (ten : Int) : Decidable (SumOverflows mantissa two ten) :=
  inferInstanceAs (Decidable (_ ∧ _))

section Amounts

variable {m two : Nat} {ten : Int}

/-- The amount once the mantissa is scaled by the power of two. -/
theorem amount_of_lt (h : m * 2 ^ two < 2 ^ 127) :
    amount m two ten =
      if 0 ≤ ten then power ten.toNat >>= fun p => fitting ((m * 2 ^ two : Nat) * p)
      else power (-ten).toNat >>= quotient (m * 2 ^ two : Nat) := by
  rw [amount, ← Nat.cast_mul, twoTo_eq_pow, fitting_eq, if_pos h, pure_then]

theorem amount_of_le (h : 2 ^ 127 ≤ m * 2 ^ two) : amount m two ten = refused := by
  rw [amount, ← Nat.cast_mul, twoTo_eq_pow, fitting_eq, if_neg (not_lt.2 h), refused_then]

/-- A power of ten multiplies. -/
theorem amount_of_nonneg (h : 0 ≤ ten) (small : ten ≤ 38)
    (fits : m * 2 ^ two * 10 ^ ten.toNat < 2 ^ 127) :
    amount m two ten = pure ((m * 2 ^ two * 10 ^ ten.toNat : Nat) : Int) := by
  have value : m * 2 ^ two < 2 ^ 127 :=
    (Nat.le_mul_of_pos_right _ (by positivity)).trans_lt fits
  rw [amount_of_lt value, if_pos h, power_eq, if_pos (by omega), pure_then, ← Nat.cast_mul,
    fitting_eq, if_pos fits]

/-- A negative power of ten divides, and the quotient is rounded up. -/
theorem amount_of_neg (h : ten < 0) (small : -38 ≤ ten)
    (sum : m * 2 ^ two + 10 ^ (-ten).toNat < 2 ^ 127) :
    amount m two ten =
      pure (((m * 2 ^ two + 10 ^ (-ten).toNat - 1) / 10 ^ (-ten).toNat : Nat) : Int) := by
  rw [amount_of_lt ((Nat.le_add_right _ _).trans_lt sum), if_neg (not_le.2 h), power_eq,
    if_pos (by omega), pure_then, quotient_of_lt (by positivity) sum]

theorem overflowed_amount (h : SumOverflows m two ten) : (amount m two ten).Overflowed := by
  obtain ⟨value, low, down, large⟩ := h
  rw [amount_of_lt value, if_neg (not_le.2 down), power_eq, if_pos (by omega), pure_then]
  exact overflowed_quotient large

end Amounts

/-! ## Rounding -/

/-- Rounding a quotient up in whole numbers. -/
theorem ceil_div_eq (n : Nat) {d : Nat} (positive : 0 < d) :
    ⌈(n / d : ℚ)⌉ = ((n + d - 1) / d : Nat) := by
  have quotient : (0 : ℚ) < d := by exact_mod_cast positive
  have low := Nat.div_mul_le_self (n + d - 1) d
  have high := Nat.lt_div_mul_add (a := n + d - 1) positive
  generalize (n + d - 1) / d = q at low high ⊢
  rw [Int.ceil_eq_iff, Int.cast_natCast, lt_div_iff₀ quotient, div_le_iff₀ quotient, sub_mul,
    one_mul]
  constructor
  · have below : q * d < n + d := by omega
    have below : (q * d : ℚ) < n + d := by exact_mod_cast below
    linarith
  · have above : n ≤ q * d := by omega
    exact_mod_cast above

namespace Spelling

variable (q : Spelling)

/-- The number of units of `10 ^ -9` that a spelling denotes, apart from its sign. -/
def size : ℚ := q.mantissa * 2 ^ q.two * 10 ^ q.ten

/-- The amount that a spelling denotes, rounded away from zero to whole units of `10 ^ -9`. -/
def nanos : Int := q.sign.of ⌈q.size⌉

/-- The amount can be worked out in words of 128 bits. -/
structure Fits : Prop where
  low : -38 ≤ q.ten
  high : q.ten ≤ 38
  product : q.mantissa * 2 ^ q.two * 10 ^ q.ten.toNat < 2 ^ 127
  sum : q.ten < 0 → q.mantissa * 2 ^ q.two + 10 ^ (-q.ten).toNat < 2 ^ 127

instance : Decidable q.Fits :=
  decidable_of_iff (-38 ≤ q.ten ∧ q.ten ≤ 38 ∧
      q.mantissa * 2 ^ q.two * 10 ^ q.ten.toNat < 2 ^ 127 ∧
      (q.ten < 0 → q.mantissa * 2 ^ q.two + 10 ^ (-q.ten).toNat < 2 ^ 127))
    ⟨fun h => ⟨h.1, h.2.1, h.2.2.1, h.2.2.2⟩, fun h => ⟨h.low, h.high, h.product, h.sum⟩⟩

/-- The mantissa fits, while the sum of the decimal exponents does not, or the sum that rounds the
amount up does not. -/
def Overflows : Prop :=
  q.mantissa < 2 ^ 127 ∧ (¬ Word.HoldsSigned 32 q.ten ∨ SumOverflows q.mantissa q.two q.ten)

instance : Decidable q.Overflows := inferInstanceAs (Decidable (_ ∧ _))

theorem size_of_nonneg (h : 0 ≤ q.ten) :
    q.size = ((q.mantissa * 2 ^ q.two * 10 ^ q.ten.toNat : Nat) : ℚ) := by
  have power : (10 : ℚ) ^ q.ten = 10 ^ q.ten.toNat := by
    rw [← zpow_natCast, Int.toNat_of_nonneg h]
  rw [size, power]
  push_cast
  rfl

theorem size_of_neg (h : q.ten < 0) :
    q.size = ((q.mantissa * 2 ^ q.two : Nat) : ℚ) / ((10 ^ (-q.ten).toNat : Nat) : ℚ) := by
  have power : (10 : ℚ) ^ q.ten = (10 ^ (-q.ten).toNat)⁻¹ := by
    rw [← zpow_natCast, ← zpow_neg, Int.toNat_of_nonneg (by omega), neg_neg]
  rw [size, power, div_eq_mul_inv]
  push_cast
  rfl

variable {q}

/-! ### What fits -/

/-- What fits is worked out exactly and rounded up. -/
theorem Fits.amount_eq (fits : q.Fits) : amount q.mantissa q.two q.ten = pure ⌈q.size⌉ := by
  rcases lt_or_ge q.ten 0 with down | up
  · rw [amount_of_neg down fits.low (fits.sum down), size_of_neg q down,
      ceil_div_eq _ (by positivity)]
  · rw [amount_of_nonneg up fits.high fits.product, size_of_nonneg q up, Int.ceil_natCast]

theorem Fits.mantissa_lt (fits : q.Fits) : q.mantissa < 2 ^ 127 :=
  calc q.mantissa ≤ q.mantissa * 2 ^ q.two := Nat.le_mul_of_pos_right _ (by positivity)
    _ ≤ q.mantissa * 2 ^ q.two * 10 ^ q.ten.toNat := Nat.le_mul_of_pos_right _ (by positivity)
    _ < 2 ^ 127 := fits.product

theorem Fits.holds_ten (fits : q.Fits) : Word.HoldsSigned (31 + 1) q.ten := by
  have low := fits.low
  have high := fits.high
  have wide : ((twoTo (31 + 1 - 1) : Nat) : Int) = 2147483648 := rfl
  exact ⟨by omega, by omega⟩

/-- The amount is a natural number, whose sign can be changed. -/
theorem Fits.taken_neg (fits : q.Fits) : taken (-⌈q.size⌉) = pure (-⌈q.size⌉) := by
  have amount : ∃ n : Nat, ⌈q.size⌉ = n ∧ n < 2 ^ 127 := by
    rcases lt_or_ge q.ten 0 with down | up
    · rw [size_of_neg q down, ceil_div_eq _ (by positivity)]
      have sum := fits.sum down
      exact ⟨_, rfl, (Nat.div_le_self _ _).trans_lt (by omega)⟩
    · rw [size_of_nonneg q up, Int.ceil_natCast]
      exact ⟨_, rfl, fits.product⟩
  obtain ⟨n, eq, small⟩ := amount
  refine taken_of_holds ?_
  rw [eq, Word.HoldsSigned, twoTo_eq_pow]
  omega

/-! ### The ends of a reading -/

section Ends

variable {text : String} (short : text.utf8ByteSize < 2 ^ 31) (spells : q.Spells text)

include short spells

/-- A quantity that fits is read as the amount that it denotes. -/
theorem Fits.reading_eq (fits : q.Fits) : reading text = pure q.nanos := by
  rw [reading_of_spells short spells, if_pos fits.mantissa_lt,
    Word.unchecked_of_holds fits.holds_ten, step_pure, pure_then, fits.amount_eq, pure_then,
    nanos, Sign.of, fits.taken_neg]
  split <;> rfl

/-- The reading overflows at the first of the two sums that does not fit. -/
theorem Overflows.overflowed (h : q.Overflows) : (reading text).Overflowed := by
  obtain ⟨mantissa, sums⟩ := h
  rw [reading_of_spells short spells, if_pos mantissa]
  by_cases exponent : Word.HoldsSigned (31 + 1) q.ten
  · rw [Word.unchecked_of_holds exponent, step_pure, pure_then]
    exact (overflowed_amount (sums.resolve_left (not_not_intro exponent))).bind _
  · exact (overflowed_step exponent).bind _

/-- What neither fits nor overflows is refused by a step that is checked. -/
theorem reading_refused (calm : ¬ q.Overflows) (unfit : ¬ q.Fits) : reading text = refused := by
  rw [reading_of_spells short spells]
  by_cases mantissa : q.mantissa < 2 ^ 127
  case neg => rw [if_neg mantissa]
  have exponent : Word.HoldsSigned (31 + 1) q.ten := by
    by_contra large
    exact calm ⟨mantissa, .inl large⟩
  have sum : ¬ SumOverflows q.mantissa q.two q.ten := fun h => calm ⟨mantissa, .inr h⟩
  rw [if_pos mantissa, Word.unchecked_of_holds exponent, step_pure, pure_then]
  suffices amount q.mantissa q.two q.ten = refused by rw [this, refused_then]
  by_cases value : q.mantissa * 2 ^ q.two < 2 ^ 127
  case neg => exact amount_of_le (not_lt.1 value)
  rw [amount_of_lt value]
  rcases lt_or_ge q.ten 0 with down | up
  · have low : ¬ (-q.ten).toNat ≤ 38 := by
      intro low
      refine unfit ⟨by omega, by omega, ?_, fun _ => ?_⟩
      · rwa [Int.toNat_of_nonpos down.le, pow_zero, mul_one]
      · exact not_le.1 fun large => sum ⟨value, by omega, down, large⟩
    rw [if_neg (not_le.2 down), power_eq, if_neg low, refused_then]
  · rw [if_pos up, power_eq]
    by_cases high : q.ten.toNat ≤ 38
    · have product : ¬ q.mantissa * 2 ^ q.two * 10 ^ q.ten.toNat < 2 ^ 127 :=
        fun product => unfit ⟨by omega, by omega, product, fun down => absurd up (not_le.2 down)⟩
      rw [if_pos high, pure_then, ← Nat.cast_mul, fitting_eq, if_neg product]
    · rw [if_neg high, refused_then]

end Ends

/-- A product that does not fit leaves neither a sum to overflow nor an amount. -/
theorem refused_of_product (exponent : Word.HoldsSigned 32 q.ten)
    (large : 2 ^ 127 ≤ q.mantissa * 2 ^ q.two * 10 ^ q.ten.toNat) :
    ¬ q.Overflows ∧ ¬ q.Fits := by
  refine ⟨?_, fun fits => absurd fits.product (not_lt.2 large)⟩
  rintro ⟨-, apart | ⟨value, -, down, -⟩⟩
  · exact apart exponent
  · rw [Int.toNat_of_nonpos down.le, pow_zero, mul_one] at large
    omega

end Spelling

/-! ## What is answered -/

section Answers

variable {a b text : String} {x y : Int}

theorem nanos_of_pure (h : reading text = pure x) : nanos text = .ok (some x) := by
  rw [nanos, h]
  rfl

theorem nanos_of_refused (h : reading text = refused) : nanos text = .ok none := by
  rw [nanos, h]
  rfl

theorem nanos_of_overflowed (h : (reading text).Overflowed) : nanos text = .error .overflow :=
  Tracked.checked_eq_overflow_iff.2 h

theorem comparison_of_pure (first : reading a = pure x) (second : reading b = pure y) :
    (comparison a b).checked = .ok (decide (x = y)) := by
  unfold comparison
  by_cases alike : a = b
  · have same : x = y := by
      subst alike
      exact Option.some.inj (congrArg (·.run.value) (first.symm.trans second))
    rw [if_pos alike, decide_eq_true same]
    rfl
  · rw [if_neg alike, first, second]
    rfl

end Answers

/-- In a short text, what is no quantity is not read. What spells one is read as the amount that it
denotes, rounded away from zero to units of `10 ^ -9`, if that can be worked out, and it is the same
as another one exactly if they are of one amount. It is not read if it is too large, and the reading
breaks off if the value and the divisor fit, but not their sum. -/
theorem nanos_exact (text : String) (short : text.utf8ByteSize < 2 ^ 31) :
    ((¬ ∃ q : Spelling, q.Spells text) → nanos text = .ok none) ∧
      ∀ q : Spelling, q.Spells text →
        (q.Fits → nanos text = .ok (some q.nanos) ∧
          ∀ (other : String) (p : Spelling), other.utf8ByteSize < 2 ^ 31 → p.Spells other →
            p.Fits → (comparison text other).checked = .ok (decide (q.nanos = p.nanos))) ∧
        (Word.HoldsSigned 32 q.ten → 2 ^ 127 ≤ q.mantissa * 2 ^ q.two * 10 ^ q.ten.toNat →
          nanos text = .ok none) ∧
        (SumOverflows q.mantissa q.two q.ten → nanos text = .error .overflow) := by
  refine ⟨fun unspelled => ?_, fun q spells => ⟨fun fits => ⟨?_, ?_⟩, ?_, ?_⟩⟩
  · exact nanos_of_refused (reading_of_unspelled short unspelled)
  · exact nanos_of_pure (fits.reading_eq short spells)
  · intro other p short' spells' fits'
    exact comparison_of_pure (fits.reading_eq short spells) (fits'.reading_eq short' spells')
  · intro exponent large
    obtain ⟨calm, unfit⟩ := Spelling.refused_of_product exponent large
    exact nanos_of_refused (Spelling.reading_refused short spells calm unfit)
  · intro sum
    have mantissa : q.mantissa < 2 ^ 127 :=
      (Nat.le_mul_of_pos_right _ (by positivity)).trans_lt sum.1
    have overflows : q.Overflows := ⟨mantissa, .inr sum⟩
    exact nanos_of_overflowed (overflows.overflowed short spells)

/-! ### Instances -/

section Instances

/-- An amount below zero, with more digits than are kept. -/
def overdraft : Spelling :=
  ⟨.minus, lastDigits [1], some (lastDigits [0, 0, 0, 0, 0, 0, 0, 0, 0, 5]),
    .named [] ⟨0, 0⟩ (by decide), by decide⟩

/-- Two thousand, in two spellings. -/
def twoThousand : Spelling :=
  ⟨.plus, lastDigits [2], none, .named ['k'] ⟨3, 0⟩ (by decide), by decide⟩

def twoThousandths : Spelling :=
  ⟨.unsigned, [], some (lastDigits [0, 0, 2]),
    .exponent false .plus (lastDigits [0, 6]) (by decide) (by decide), by decide⟩

/-- More than a word of 128 bits holds. -/
def hoard : Spelling :=
  ⟨.unsigned, lastDigits [9, 9, 9], none,
    .exponent true .unsigned (lastDigits [3, 0]) (by decide) (by decide), by decide⟩

/-- What is below a unit of `10 ^ -9` is rounded away from zero, spellings of one amount are the
same, what is too large is not read, and neither is a number with two points. -/
theorem overdraft_exact :
    nanos " -1.0000000005 " = .ok (some (-1000000001)) ∧
      (comparison "+2k" ".002e+06").checked = .ok true ∧
      nanos "999E30" = .ok none ∧ nanos "1.2.3" = .ok none := by
  have rounded : overdraft.nanos = -1000000001 := by
    rw [Spelling.nanos, Spelling.size_of_neg _ (by decide), ceil_div_eq _ (by decide)]
    decide
  have agree : twoThousand.nanos = twoThousandths.nanos := by
    rw [Spelling.nanos, Spelling.nanos, Spelling.size_of_nonneg _ (by decide),
      Spelling.size_of_nonneg _ (by decide), Int.ceil_natCast, Int.ceil_natCast]
    decide
  refine ⟨?_, ?_, ?_, ?_⟩
  · rw [← rounded]
    exact (((nanos_exact " -1.0000000005 " (by decide)).2 overdraft (by decide)).1 (by decide)).1
  · rw [← decide_eq_true agree]
    exact (((nanos_exact "+2k" (by decide)).2 twoThousand (by decide)).1 (by decide)).2 ".002e+06"
      twoThousandths (by decide) (by decide) (by decide)
  · exact ((nanos_exact "999E30" (by decide)).2 hoard (by decide)).2.1 (by decide) (by decide)
  · refine (nanos_exact "1.2.3" (by decide)).1 ?_
    rintro ⟨q, spells⟩
    have cut := split?_chars q
    rw [spells, show split? (Text.trimChars "1.2.3".toList) = none by decide] at cut
    cases cut

/-- The suffix of units of `10 ^ -9`. -/
def nanoSuffix : Suffix := .named ['n'] ⟨-9, 0⟩ (by decide)

/-- An amount that fits in a word of 128 bits, and that together with ten exceeds it by one. -/
def rim : Spelling :=
  ⟨.unsigned, lastDigits [1, 7, 0, 1, 4, 1, 1, 8, 3, 4, 6, 0, 4, 6, 9, 2, 3, 1, 7, 3, 1, 6, 8, 7, 3,
      0, 3, 7, 1, 5, 8, 8, 4, 1, 0, 5, 7, 1], some (lastDigits [8]), nanoSuffix, by decide⟩

/-- The amount and its divisor come to just what no word holds any more. The rounded amount is far
below that, and still it is not worked out. -/
theorem rim_breaks_off :
    "17014118346046923173168730371588410571.8n".utf8ByteSize < 2 ^ 31 ∧
      rim.Spells "17014118346046923173168730371588410571.8n" ∧
      -38 ≤ rim.ten ∧ rim.ten < 0 ∧
      rim.mantissa * 2 ^ rim.two * 10 ^ rim.ten.toNat < 2 ^ 127 ∧
      rim.mantissa * 2 ^ rim.two + 10 ^ (-rim.ten).toNat = 2 ^ 127 ∧
      rim.nanos = 17014118346046923173168730371588410572 ∧
      nanos "17014118346046923173168730371588410571.8n" = .error .overflow := by
  refine ⟨by decide, by decide, by decide, by decide, by decide, by decide, ?_, by decide +kernel⟩
  rw [Spelling.nanos, Spelling.size_of_neg _ (by decide), ceil_div_eq _ (by decide)]
  decide

end Instances

end DesiredState.Quantity
