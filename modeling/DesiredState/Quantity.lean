import DesiredState.Number.Tracked
import DesiredState.Text.Blank

/-!
# Resource quantities

A quantity is a decimal number with a suffix that scales it by a power of ten or of two. A
server spells quantities its own way ("2000m" comes back as "2"), so two of them are compared by
amount, in units of `10 ^ -9`, rounded away from zero. Amounts are signed numbers of 128 bits. What
does not fit in a step that is checked is not read; the steps on the decimal exponent and those that
round are not checked.
-/

namespace DesiredState.Quantity

/-- The names whose objects map resource names to quantities. -/
def mapNames : List String :=
  ["limits", "requests", "hard", "default", "defaultRequest", "max", "min",
    "maxLimitRequestRatio", "capacity", "allocatable"]

/-! ## Arithmetic -/

/-- A computation that finds a value or none, some of whose steps are not checked. -/
abbrev Reading : Type → Type := OptionT Tracked

namespace Reading

variable {α : Type}

def ofOption (a? : Option α) : Reading α := OptionT.mk (pure a?)

/-- A step that is not checked. -/
def step (x : Tracked α) : Reading α := OptionT.mk (some <$> x)

end Reading

/-- A number that has to fit in 128 bits. -/
def fitting (n : Int) : Reading Int := .ofOption (Word.checked? 128 n)

/-- A number that is taken to fit in 128 bits. -/
def taken (n : Int) : Reading Int := .step (Word.unchecked 128 n)

/-- A power of ten that has to fit in 128 bits. -/
def power (e : Nat) : Reading Int := .ofOption (if e ≤ 38 then some (tenTo e) else none)

/-! ## Reading -/

/-- The powers of ten and of two by which a suffix scales. -/
structure Scale where
  ten : Int
  two : Nat
  deriving DecidableEq

def isAsciiDigit (c : Char) : Bool := '0' ≤ c && c ≤ '9'

def isNumberChar (c : Char) : Bool := isAsciiDigit c || c == '.' || c == '+' || c == '-'

/-- The number that digits write, unless it needs more than 127 bits. -/
def readDigits : Nat → List Char → Option Nat
  | n, [] => some n
  | n, c :: cs =>
    let next := n * 10 + (c.toNat - '0'.toNat)
    if next < twoTo 127 then readDigits next cs else none

/-- A decimal exponent: an optional sign, digits, and a value of 32 bits. -/
def readExponent (s : List Char) : Option Int :=
  let (negative, ds) := match s with
    | '-' :: r => (true, r)
    | '+' :: r => (false, r)
    | r => (false, r)
  if ds.isEmpty || !ds.all isAsciiDigit then none
  else
    match readDigits 0 ds with
    | none => none
    | some n =>
      let exponent : Int := if negative then -n else n
      if Word.HoldsSigned 32 exponent then some exponent else none

/-- The scale of a suffix. -/
def readSuffix : List Char → Option Scale
  | [] => some ⟨0, 0⟩
  | ['n'] => some ⟨-9, 0⟩
  | ['u'] => some ⟨-6, 0⟩
  | ['m'] => some ⟨-3, 0⟩
  | ['k'] => some ⟨3, 0⟩
  | ['M'] => some ⟨6, 0⟩
  | ['G'] => some ⟨9, 0⟩
  | ['T'] => some ⟨12, 0⟩
  | ['P'] => some ⟨15, 0⟩
  | ['E'] => some ⟨18, 0⟩
  | ['K', 'i'] => some ⟨0, 10⟩
  | ['M', 'i'] => some ⟨0, 20⟩
  | ['G', 'i'] => some ⟨0, 30⟩
  | ['T', 'i'] => some ⟨0, 40⟩
  | ['P', 'i'] => some ⟨0, 50⟩
  | ['E', 'i'] => some ⟨0, 60⟩
  | 'e' :: s => (readExponent s).map (⟨·, 0⟩)
  | 'E' :: s => (readExponent s).map (⟨·, 0⟩)
  | _ => none

/-- The parts of a quantity: a sign, the digits before and after the point, and the suffix. -/
structure Parts where
  negative : Bool
  whole : List Char
  fraction : List Char
  suffix : List Char
  deriving DecidableEq

/-- Cut a quantity into its parts. The number must have a digit and nothing but digits around
its point. -/
def split? (s : List Char) : Option Parts :=
  let number := s.takeWhile isNumberChar
  let suffix := s.dropWhile isNumberChar
  let (negative, digits) := match number with
    | '-' :: r => (true, r)
    | '+' :: r => (false, r)
    | r => (false, r)
  let whole := digits.takeWhile (· ≠ '.')
  let fraction := (digits.dropWhile (· ≠ '.')).drop 1
  if (whole ++ fraction).isEmpty || !(whole ++ fraction).all isAsciiDigit then none
  else some ⟨negative, whole, fraction, suffix⟩

/-- The number that the digits of a quantity write. A digit is taken off its character in a
byte. -/
def readMantissa : Int → List Char → Reading Int
  | n, [] => return n
  | n, c :: cs => do
    let tens ← fitting (n * 10)
    let digit ← Reading.step (Word.uncheckedUnsigned 8 (c.toNat - '0'.toNat))
    let next ← fitting (tens + digit)
    readMantissa next cs

/-- A quotient, rounded up. -/
def quotient (value divisor : Int) : Reading Int := do
  let sum ← taken (value + divisor)
  let less ← taken (sum - 1)
  taken (less.tdiv divisor)

/-- `mantissa * 2 ^ two * 10 ^ ten`, rounded up. -/
def amount (mantissa : Int) (two : Nat) (ten : Int) : Reading Int := do
  let value ← fitting (mantissa * twoTo two)
  if 0 ≤ ten then
    let factor ← power ten.toNat
    fitting (value * factor)
  else
    let divisor ← power (-ten).toNat
    quotient value divisor

/-- The amount of a quantity in units of `10 ^ -9`. The number of the places after the point is cut
to a word of 32 bits, in which the exponent is summed up. -/
def reading (text : String) : Reading Int := do
  let parts ← .ofOption (split? (Text.trimChars text.toList))
  let mantissa ← readMantissa 0 (parts.whole ++ parts.fraction)
  let start ← .step (Word.unchecked 32 (9 - Word.wrap 32 parts.fraction.length))
  let scale ← .ofOption (readSuffix parts.suffix)
  let ten ← .step (Word.unchecked 32 (start + scale.ten))
  let value ← amount mantissa scale.two ten
  if parts.negative then taken (-value) else return value

/-- What is read, unless a step on the way leaves its word. -/
def nanos (text : String) : Except Overflow (Option Int) := (reading text).run.checked

/-- What is read if steps that leave their words come round. -/
def nanos? (text : String) : Option Int := (reading text).run.value

/-! ## Comparing -/

/-- The texts are equal, or both are quantities of the same amount. -/
def comparison (a b : String) : Tracked Bool :=
  if a = b then return true
  else do
    match ← (reading a).run, ← (reading b).run with
    | some x, some y => return x == y
    | _, _ => return false

/-- The answer of a comparison. -/
def same (a b : String) : Bool := (comparison a b).value

theorem comparison_self (a : String) : comparison a a = pure true := if_pos rfl

theorem same_self (a : String) : same a a = true := congrArg Tracked.value (comparison_self a)

end DesiredState.Quantity
