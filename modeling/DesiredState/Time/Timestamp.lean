import DesiredState.Text.Blank
import DesiredState.Time.Civil

/-!
# Timestamps

An instant is written in universal time to the second, `2024-01-01T00:00:00Z`. Read are a date, a
mark (`T`, `t` or a blank), a time with an optional fraction, and an offset; blanks may stand
before each part, and parts may leave out leading zeros.
-/

namespace DesiredState

/-- A second counted from the start of 1970; an inserted leap second comes after the second that
it extends. -/
structure Timestamp where
  seconds : Int
  leap : Bool
  deriving DecidableEq

namespace Timestamp

def ofSeconds (seconds : Int) : Timestamp := ⟨seconds, false⟩

/-! ## Writing -/

/-- A number with at least this many digits. -/
def padded (width n : Nat) : String :=
  let digits := (Nat.repr n).toList
  String.ofList (List.replicate (width - digits.length) '0' ++ digits)

/-- Years from 0 to 9999 have four digits; all others also have a sign. -/
def yearText (year : Int) : String :=
  if year < 0 then "-" ++ padded 4 year.natAbs
  else if 9999 < year then "+" ++ padded 4 year.natAbs
  else padded 4 year.natAbs

def text (t : Timestamp) : String :=
  let date := CivilDate.ofDays (t.seconds / 86400)
  let second := (t.seconds % 86400).toNat
  yearText date.year ++ "-" ++ padded 2 date.month ++ "-" ++ padded 2 date.day ++ "T"
    ++ padded 2 (second / 3600) ++ ":" ++ padded 2 (second / 60 % 60) ++ ":"
    ++ padded 2 (second % 60 + (if t.leap then 1 else 0)) ++ "Z"

/-! ## Reading -/

def skipBlanks (s : List Char) : List Char := s.dropWhile Text.isBlank

def isAsciiDigit (c : Char) : Bool := '0' ≤ c && c ≤ '9'

def digitsValue (ds : List Char) : Nat := ds.foldl (fun n c => n * 10 + (c.toNat - '0'.toNat)) 0

/-- At least one digit and at most `most`, if there is a bound. -/
def readNatural (most : Option Nat) (s : List Char) : Option (Nat × List Char) :=
  let run := s.takeWhile isAsciiDigit
  let ds := match most with
    | some n => run.take n
    | none => run
  if ds.isEmpty then none else some (digitsValue ds, s.drop ds.length)

/-- A year: up to four digits, or a sign and any number of digits. -/
def readYear (s : List Char) : Option (Int × List Char) :=
  match skipBlanks s with
  | '-' :: r => (readNatural none r).map fun (n, r) => (-(n : Int), r)
  | '+' :: r => (readNatural none r).map fun (n, r) => ((n : Int), r)
  | r => (readNatural (some 4) r).map fun (n, r) => ((n : Int), r)

/-- A number of one or two digits. -/
def readPair (s : List Char) : Option (Nat × List Char) := readNatural (some 2) (skipBlanks s)

/-- A mark that must come next, after blanks. -/
def readMark (mark : Char) (s : List Char) : Option (List Char) :=
  match skipBlanks s with
  | c :: r => if c = mark then some r else none
  | [] => none

/-- Leave out a fraction of a second; its point must have a digit. -/
def skipFraction : List Char → Option (List Char)
  | '.' :: r => (readNatural none r).map (·.2)
  | s => some s

def isUtcName (a b c : Char) : Bool :=
  (a == 'U' || a == 'u') && (b == 'T' || b == 't') && (c == 'C' || c == 'c')

/-- An offset in seconds: a name of universal time, or a sign, two digits of hours, and two of
minutes below sixty. -/
def readOffset : List Char → Option (Int × List Char)
  | c :: rest =>
    if c = 'Z' ∨ c = 'z' then some (0, rest)
    else if c = '+' ∨ c = '-' ∨ c = '\u2212' then
      match rest with
      | h :: h' :: rest' =>
        match rest'.dropWhile fun c => c = ':' || Text.isBlank c with
        | m :: m' :: r =>
          if [h, h', m, m'].all isAsciiDigit && m < '6' then
            let offset : Int := (digitsValue [h, h'] * 3600 + digitsValue [m, m'] * 60 : Nat)
            some (if c = '+' then offset else -offset, r)
          else none
        | _ => none
      | _ => none
    else
      match rest with
      | c' :: c'' :: r => if isUtcName c c' c'' then some (0, r) else none
      | _ => none
  | [] => none

/-- The second lies in the years from -262143 to 262142. -/
def isCounted (seconds : Int) : Bool :=
  CivilDate.toDays ⟨-262143, 1, 1⟩ * 86400 ≤ seconds &&
    seconds < CivilDate.toDays ⟨262143, 1, 1⟩ * 86400

/-- The instant of a text, if it is counted both by the clock of the text and in universal time. -/
def read? (text : String) : Option Timestamp := do
  let (year, s) ← readYear text.toList
  let (month, s) ← readPair (← readMark '-' s)
  let (day, s) ← readPair (← readMark '-' s)
  let s ← match s with
    | c :: r => if c = 'T' ∨ c = 't' ∨ c = ' ' then some r else none
    | [] => none
  let (hour, s) ← readPair s
  let (minute, s) ← readPair (← readMark ':' s)
  let (second, s) ← readPair (← readMark ':' s)
  let (offset, s) ← readOffset (skipBlanks (← skipFraction s))
  let date : CivilDate := ⟨year, month, day⟩
  let clock := date.toDays * 86400 + ((hour * 3600 + minute * 60 + min second 59 : Nat) : Int)
  if (skipBlanks s).isEmpty ∧ date.isValid ∧ hour < 24 ∧ minute < 60 ∧ second ≤ 60
      ∧ offset.natAbs < 86400 ∧ isCounted clock ∧ isCounted (clock - offset) then
    return ⟨clock - offset, second == 60⟩
  else none

end Timestamp

end DesiredState
