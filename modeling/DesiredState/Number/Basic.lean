import DesiredState.Number.Shortest
import DesiredState.Number.Word

/-!
# Numbers of a document

A number is an integer or a finite binary64 number, and the two never count as the same:
`1` and `1.0` differ. The text of either reads back to the same number.
-/

namespace DesiredState

inductive Number where
  | int (value : Int)
  | float (value : Binary64)
  deriving DecidableEq

/-- Digits with a point or with an exponent: positional from `0.00001` up to sixteen digits
before the point, with at least one digit after it; otherwise one digit before the point, and an
exponent with its sign. -/
def Decimal.text (d : Decimal) : String :=
  let digits := (Nat.repr d.digits).toList
  let length : Int := digits.length
  let whole : Int := length + d.exponent
  if 0 ≤ d.exponent ∧ whole ≤ 16 then
    String.ofList (digits ++ List.replicate d.exponent.toNat '0') ++ ".0"
  else if 0 < whole ∧ whole ≤ 16 then
    String.ofList (digits.take whole.toNat) ++ "." ++ String.ofList (digits.drop whole.toNat)
  else if -5 < whole ∧ whole ≤ 0 then
    "0." ++ String.ofList (List.replicate (-whole).toNat '0' ++ digits)
  else
    let point := if digits.length = 1 then "" else "."
    let sign := if 0 < whole then "+" else ""
    String.ofList (digits.take 1) ++ point ++ String.ofList (digits.drop 1) ++ "e" ++ sign
      ++ toString (whole - 1)

/-- The shortest text that reads back, with the sign of a zero kept. -/
def Binary64.text (x : Binary64) : String :=
  (if x.negative then "-" else "") ++ (if x.isZero then "0.0" else x.shortest.text)

namespace Number

def text : Number → String
  | int n => toString n
  | float x => x.text

/-- Equality of values; an integer never equals a floating number. -/
def same : Number → Number → Bool
  | int m, int n => m == n
  | float x, float y => x.same y
  | _, _ => false

/-- The integer, if it fits in a signed word of this many bits. -/
def toSigned? (bits : Nat) : Number → Option Int
  | int n => if Word.HoldsSigned bits n then some n else none
  | float _ => none

/-- The integer, if it fits in an unsigned word of this many bits. -/
def toUnsigned? (bits : Nat) : Number → Option Nat
  | int n => if Word.HoldsUnsigned bits n then some n.toNat else none
  | float _ => none

theorem same_self (n : Number) : n.same n = true := by
  cases n <;> simp [same, Binary64.same_self]

theorem int_same_float (n : Int) (x : Binary64) : (int n).same (float x) = false := rfl

end Number

end DesiredState
