import DesiredState.Number.Basic

/-!
# Reading a number

A literal is an optional minus, a whole part without idle zeros, and optionally a fraction and
an exponent. Whole literals that fit in 64 bits are integers. All others are floating: up to 64
bits of the digits are kept, a digit before the point that no longer fits counts as a factor of
ten and one after it is dropped, and the kept number is scaled once by a power of ten. A literal
whose number would be infinite has no number.
-/

namespace DesiredState.Number

/-- The digits at the front of a text, and the rest. -/
def spanDigits (s : List Char) : List Char × List Char :=
  (s.takeWhile Char.isDigit, s.dropWhile Char.isDigit)

def digitValue (c : Char) : Nat := c.toNat - '0'.toNat

/-- Extend a significand digit by digit while it stays below `bound`; the second part is the
digits from the first one that does not fit. -/
def extend (bound : Nat) : Nat → List Char → Nat × List Char
  | n, [] => (n, [])
  | n, c :: cs =>
    if n * 10 + digitValue c < bound then extend bound (n * 10 + digitValue c) cs else (n, c :: cs)

/-- A power of ten, rounded. Every power up to `10 ^ 308` is finite. -/
def powerOfTen (e : Nat) : Binary64 :=
  (Binary64.ofFraction? false (tenTo e) 1).getD (Binary64.zero false)

/-- Divide by a power of ten, in steps of `10 ^ 308` where it is larger. -/
def scaleDown (x : Binary64) (e : Nat) : Option Binary64 :=
  if e ≤ 308 then x.div? (powerOfTen e)
  else if x.isZero then some x
  else (x.div? (powerOfTen 308)).bind fun y => scaleDown y (e - 308)
termination_by e

/-- The significand times a power of ten, unless that is infinite. -/
def scale (significand : Nat) (e : Int) : Option Binary64 := do
  let x ← Binary64.ofFraction? false significand 1
  if 0 ≤ e then
    if e ≤ 308 then x.mul? (powerOfTen e.toNat)
    else if x.isZero then some x
    else none
  else scaleDown x (-e).toNat

def negate (negative : Bool) (x : Binary64) : Binary64 := { x with negative := negative }

/-- The exponent after its letter: an optional sign and at least one digit. The value is absent
when it does not fit in 31 bits. -/
def readExponent (s : List Char) : Option (Bool × Option Nat × List Char) :=
  let (negative, s) := match s with
    | '+' :: r => (false, r)
    | '-' :: r => (true, r)
    | r => (false, r)
  match spanDigits s with
  | ([], _) => none
  | (ds, rest) =>
    match extend (twoTo 31) 0 ds with
    | (n, []) => some (negative, some n, rest)
    | (_, _ :: _) => some (negative, none, rest)

/-- The floating number of a significand, its exponent so far and the text after the digits. The
number is absent when it is infinite. -/
def finish (negative : Bool) (significand : Nat) (e : Int) (s : List Char) :
    Option (Option Number × List Char) :=
  let float (x : Option Binary64) (rest : List Char) :=
    some (x.map fun x => Number.float (negate negative x), rest)
  match s with
  | c :: s' =>
    if c = 'e' ∨ c = 'E' then
      match readExponent s' with
      | none => none
      | some (down, some n, rest) => float (scale significand (if down then e - n else e + n)) rest
      | some (down, none, rest) =>
        float (if significand = 0 ∨ down then some (Binary64.zero false) else none) rest
    else float (scale significand e) s
  | [] => float (scale significand e) s

/-- The whole part: a single zero, or digits that do not start with zero. -/
def spanWhole : List Char → Option (List Char × List Char)
  | '0' :: rest =>
    match rest with
    | c :: _ => if c.isDigit then none else some (['0'], rest)
    | [] => some (['0'], rest)
  | s =>
    match spanDigits s with
    | ([], _) => none
    | (ds, rest) => some (ds, rest)

/-- A number after its sign. -/
def readMagnitude (negative : Bool) (s : List Char) : Option (Option Number × List Char) :=
  match spanWhole s with
  | none => none
  | some (ds, rest) =>
    let (significand, spill) := extend (twoTo 64) 0 ds
    match rest with
    | '.' :: rest' =>
      match spanDigits rest' with
      | ([], _) => none
      | (fs, rest'') =>
        let (significand, dropped) := extend (twoTo 64) significand fs
        finish negative significand ((spill.length : Int) - (fs.length - dropped.length : Nat))
          rest''
    | c :: _ =>
      if c = 'e' ∨ c = 'E' ∨ spill ≠ [] then finish negative significand spill.length rest
      else some (some (whole negative significand), rest)
    | [] =>
      if spill ≠ [] then finish negative significand spill.length rest
      else some (some (whole negative significand), rest)
where
  /-- A whole literal of 64 bits: negative zero and integers below the signed range are
  floating. -/
  whole (negative : Bool) (n : Nat) : Number :=
    if negative then
      if n = 0 ∨ twoTo 63 < n then
        match Binary64.ofFraction? true n 1 with
        | some x => .float x
        | none => .int (-n)
      else .int (-n)
    else .int n

/-- The number of the literal at the front of a text, unless it is infinite, and the rest. -/
def read : List Char → Option (Option Number × List Char)
  | '-' :: s => readMagnitude true s
  | s => readMagnitude false s

end DesiredState.Number
