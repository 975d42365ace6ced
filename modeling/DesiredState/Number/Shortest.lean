import DesiredState.Number.Binary64

/-!
# Shortest decimal digits

The digits of the shortest decimal that rounds to a given binary64 number; of several of that
length, the one nearest to the number, a tie going to the even digit.
-/

namespace DesiredState

/-- The decimal `digits * 10 ^ exponent`. -/
structure Decimal where
  digits : Nat
  exponent : Int
  deriving DecidableEq

namespace Decimal

/-- Order of `a * 10 ^ p` and `b * 2 ^ q`. -/
def compareScaled (a : Nat) (p : Int) (b : Nat) (q : Int) : Ordering :=
  compare (a * tenTo p.toNat * twoTo (-q).toNat) (b * twoTo q.toNat * tenTo (-p).toNat)

end Decimal

namespace Binary64

/-- The numbers that round to a magnitude lie between `low` and `high` quarters of its last
place; the ends belong to them when `closed`. -/
structure Interval where
  low : Nat
  middle : Nat
  high : Nat
  exponent : Int
  closed : Bool

def interval (x : Binary64) : Interval where
  low := 4 * x.mantissa - (if x.mantissa == twoTo 52 && x.exponent != -1074 then 1 else 2)
  middle := 4 * x.mantissa
  high := 4 * x.mantissa + 2
  exponent := x.exponent - 2
  closed := x.mantissa % 2 == 0

def Interval.contains (i : Interval) (digits : Nat) (exponent : Int) : Bool :=
  let lo := Decimal.compareScaled digits exponent i.low i.exponent
  let hi := Decimal.compareScaled digits exponent i.high i.exponent
  (lo == .gt && hi == .lt) || (i.closed && (lo == .eq || hi == .eq))

/-- The number of digits before the point: the magnitude lies in `[10 ^ (k - 1), 10 ^ k)`. -/
def wholeDigits (x : Binary64) : Int :=
  let guess : Int := ((x.mantissa.log2 : Int) + x.exponent) * 30103 / 100000
  let below (k : Int) : Bool := Decimal.compareScaled 1 k x.mantissa x.exponent == .gt
  if below guess then guess
  else if below (guess + 1) then guess + 1
  else guess + 2

/-- The largest multiple of `10 ^ p` not above the magnitude, in units of `10 ^ p`. -/
def floorAt (x : Binary64) (p : Int) : Nat :=
  (x.mantissa * twoTo x.exponent.toNat * tenTo (-p).toNat) /
    (twoTo (-x.exponent).toNat * tenTo p.toNat)

/-- The better of the two decimals next to the magnitude on the grid of `10 ^ p`, if one of
them rounds to it. -/
def nearestOnGrid (x : Binary64) (p : Int) : Option Decimal :=
  let i := x.interval
  let c := x.floorAt p
  match i.contains c p, i.contains (c + 1) p with
  | false, false => none
  | true, false => some ⟨c, p⟩
  | false, true => some ⟨c + 1, p⟩
  | true, true =>
    match Decimal.compareScaled (2 * c + 1) p (2 * i.middle) i.exponent with
    | .gt => some ⟨c, p⟩
    | .lt => some ⟨c + 1, p⟩
    | .eq => some ⟨c + c % 2, p⟩

/-- The first grid that holds a decimal, from coarse to fine. -/
def firstGrid (x : Binary64) (k : Int) : Nat → Option Decimal
  | 0 => none
  | fuel + 1 =>
    match x.nearestOnGrid (k - (18 - (fuel + 1) : Int)) with
    | some d => some d
    | none => firstGrid x k fuel

/-- The shortest decimal that rounds to a magnitude other than zero. Seventeen digits always
suffice. -/
def shortest (x : Binary64) : Decimal :=
  let k := x.wholeDigits
  match x.firstGrid k 17 with
  | some ⟨d, p⟩ => if d % 10 = 0 && d != 0 then ⟨d / 10, p + 1⟩ else ⟨d, p⟩
  | none => ⟨x.floorAt (k - 17), k - 17⟩

end Binary64

end DesiredState
