import DesiredState.Number.Power

/-!
# Finite binary64 numbers

A magnitude is stored as its rank among the non-negative finite numbers, which is also its bit
pattern without the sign: the next larger number has the next rank. Arithmetic is exact on
fractions and rounds once, to the nearest number, a tie going to the even rank.
-/

namespace DesiredState

/-- The rank that the first number beyond the finite ones would have. -/
def Binary64.limit : Nat := 2047 * twoTo 52

/-- A sign and the rank of a magnitude. -/
structure Binary64 where
  negative : Bool
  rank : Nat
  rank_lt : rank < Binary64.limit
  deriving DecidableEq

namespace Binary64

/-- A number with this sign and rank, unless it would be infinite. -/
def ofRank? (negative : Bool) (rank : Nat) : Option Binary64 :=
  if h : rank < limit then some ⟨negative, rank, h⟩ else none

def zero (negative : Bool) : Binary64 := ⟨negative, 0, by decide⟩

def isZero (x : Binary64) : Bool := x.rank == 0

/-- The magnitude is `mantissa * 2 ^ exponent`. -/
def mantissa (x : Binary64) : Nat :=
  if x.rank < twoTo 52 then x.rank else twoTo 52 + x.rank % twoTo 52

def exponent (x : Binary64) : Int :=
  if x.rank < twoTo 52 then -1074 else (x.rank / twoTo 52 : Nat) - 1075

/-- Equality of values: the two zeros are the same number. -/
def same (x y : Binary64) : Bool :=
  x.rank == y.rank && (x.negative == y.negative || x.rank == 0)

/-! ## Rounding -/

/-- `num / den` as an integer, a half going to the even neighbour. -/
def nearestEven (num den : Nat) : Nat :=
  let q := num / den
  let twice := 2 * (num % den)
  if twice < den then q
  else if den < twice then q + 1
  else q + q % 2

/-- The exponent of the last place of `num / den`, not below that of the subnormal numbers. -/
def lastPlace (num den : Nat) : Int :=
  let top : Int := (num.log2 : Int) - den.log2
  let reached : Bool :=
    if 0 ≤ top then den * twoTo top.toNat ≤ num else den ≤ num * twoTo (-top).toNat
  max (-1074) (if reached then top - 52 else top - 53)

/-- The rank nearest to `num / den`, which reaches `limit` when the value is too large. -/
def rankOf (num den : Nat) : Nat :=
  if num = 0 then 0
  else
    let e := lastPlace num den
    let scaled :=
      if 0 ≤ e then nearestEven num (den * twoTo e.toNat)
      else nearestEven (num * twoTo (-e).toNat) den
    (e + 1074).toNat * twoTo 52 + scaled

/-- The number nearest to a fraction, unless that is infinite. -/
def ofFraction? (negative : Bool) (num den : Nat) : Option Binary64 :=
  ofRank? negative (rankOf num den)

/-- The magnitude as a fraction. -/
def fraction (x : Binary64) : Nat × Nat :=
  if 0 ≤ x.exponent then (x.mantissa * twoTo x.exponent.toNat, 1)
  else (x.mantissa, twoTo (-x.exponent).toNat)

/-- The product, unless it is infinite. -/
def mul? (x y : Binary64) : Option Binary64 :=
  ofFraction? (x.negative != y.negative) (x.fraction.1 * y.fraction.1)
    (x.fraction.2 * y.fraction.2)

/-- The quotient by a number that is not zero, unless it is infinite. -/
def div? (x y : Binary64) : Option Binary64 :=
  ofFraction? (x.negative != y.negative) (x.fraction.1 * y.fraction.2)
    (x.fraction.2 * y.fraction.1)

/-! ## Small lemmas -/

theorem same_self (x : Binary64) : x.same x = true := by simp [same]

theorem same_zero : (zero true).same (zero false) = true := by decide

theorem ofRank?_rank (x : Binary64) : ofRank? x.negative x.rank = some x := by
  simp [ofRank?, x.rank_lt]

end Binary64

end DesiredState
