/-!
# Texts without control sequences

A text that does not go to a terminal loses its control sequences and all control characters but
tabs and ends of lines. A sequence starts with an escape character and ends as its kind demands; a
tab or an end of a line may stand inside a command, is kept, and suspends the command up to the
next character that is not kept.
-/

namespace DesiredState.Text

/-- How far a control sequence has come. -/
inductive Sequence where
  /-- There is none. -/
  | none
  | escape
  | escapeMark
  /-- A command, which a letter ends. -/
  | command
  | deviceEntry
  | deviceParameter
  | deviceMark
  /-- Data up to a terminator. -/
  | data
  /-- A title, which may hold the terminator of data. -/
  | title
  deriving DecidableEq

namespace Sequence

/-- The escape character starts a sequence anew, and two others cancel it. -/
def interrupted? (n : Nat) : Option Sequence :=
  if n = 0x1B then some .escape else if n = 0x18 ∨ n = 0x1A then some .none else Option.none

/-- What an escape character and this code start. -/
def started (n : Nat) : Sequence :=
  if n < 0x20 ∨ n = 0x7F then .escape
  else if n < 0x30 then .escapeMark
  else if n = 0x5B then .command
  else if n = 0x5D then .title
  else if n = 0x50 then .deviceEntry
  else if n = 0x58 ∨ n = 0x5E ∨ n = 0x5F then .data
  else .none

/-- The sequence after an ASCII code. -/
def next (s : Sequence) (n : Nat) : Sequence :=
  (interrupted? n).getD <|
    match s with
    | .none => .none
    | .escape => started n
    | .escapeMark => if 0x30 ≤ n ∧ n < 0x7F then .none else .escapeMark
    | .command => if 0x40 ≤ n ∧ n < 0x7F then .none else .command
    | .deviceEntry | .deviceParameter | .deviceMark =>
      if n < 0x20 ∨ n = 0x7F then s
      else if n < 0x30 then .deviceMark
      else if 0x40 ≤ n ∨ s = .deviceMark ∨ (s = .deviceParameter ∧ 0x3C ≤ n) then .data
      else .deviceParameter
    | .data => .data
    | .title => if n = 0x07 then .none else .title

/-- An ASCII code is kept where a sequence has come so far. -/
def keeps (s : Sequence) (n : Nat) : Bool :=
  let isBreak := n == 0x09 || n == 0x0A || n == 0x0C || n == 0x0D
  match s with
  | .none => isBreak || (0x20 ≤ n && n < 0x7F)
  | .escape | .escapeMark | .command => isBreak
  | _ => false

/-- The bytes of a character hold the terminator of data. -/
def terminates (c : Char) : Bool := c.toString.toUTF8.toList.contains 0x9C

/-- The sequence after a character beyond ASCII. -/
def nextBeyond (s : Sequence) (c : Char) : Sequence :=
  if s = .data ∧ terminates c then .none else s

end Sequence

/-- Where a text is: in a sequence, or among kept characters, where a sequence may be suspended. -/
structure Passage where
  kept : Bool
  sequence : Sequence

/-- The passage after a character, and whether the character is kept. -/
def Passage.step (p : Passage) (c : Char) : Passage × Bool :=
  let n := c.toNat
  if 0x80 ≤ n then
    if p.kept || p.sequence = .none then (⟨true, .none⟩, true)
    else (⟨false, p.sequence.nextBeyond c⟩, false)
  else
    let s := if p.kept then (Sequence.interrupted? n).getD p.sequence else p.sequence
    if (p.kept && Sequence.none.keeps n) || s.keeps n then (⟨true, s⟩, true)
    else (⟨false, s.next n⟩, false)

/-- The characters that are kept of a text. -/
def plainFrom : Passage → List Char → List Char
  | _, [] => []
  | p, c :: rest =>
    let (p, kept) := p.step c
    if kept then c :: plainFrom p rest else plainFrom p rest

/-- The text without control sequences. -/
def plain (s : String) : String := String.ofList (plainFrom ⟨false, .none⟩ s.toList)

end DesiredState.Text
