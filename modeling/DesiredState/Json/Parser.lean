import DesiredState.Json.Written
import DesiredState.Number.Literal

/-!
# Reading JSON text

Readers take a text as a list of characters and give what is written at its front with the rest of
the text. Values nest at most 127 deep; what is nested deeper is well formed, but has no value.
-/

namespace DesiredState.Json

/-- Leave out blanks at the front. -/
def skipBlanks (s : List Char) : List Char :=
  s.dropWhile fun c => c = ' ' || c = '\n' || c = '\t' || c = '\r'

/-! ## Strings -/

def hexValue? (c : Char) : Option Nat :=
  if c.isDigit then some (c.toNat - '0'.toNat)
  else if 'a' ≤ c ∧ c ≤ 'f' then some (c.toNat - 'a'.toNat + 10)
  else if 'A' ≤ c ∧ c ≤ 'F' then some (c.toNat - 'A'.toNat + 10)
  else none

def hexWord? (a b c d : Char) : Option Nat := do
  return (((← hexValue? a) * 16 + (← hexValue? b)) * 16 + (← hexValue? c)) * 16 + (← hexValue? d)

/-- The character that a backslash and a letter stand for. -/
def escaped? : Char → Option Char
  | '"' => some '"'
  | '\\' => some '\\'
  | '/' => some '/'
  | 'b' => some '\x08'
  | 'f' => some '\x0c'
  | 'n' => some '\n'
  | 'r' => some '\r'
  | 't' => some '\t'
  | _ => none

/-- The characters of a string so far, the last one first, and half of a surrogate pair that waits
for the other half. The characters are absent once a half stayed alone. -/
structure Spelling where
  chars : Option (List Char)
  half : Option Nat

namespace Spelling

def empty : Spelling := ⟨some [], none⟩

/-- The string, if no half stayed alone. -/
def text? (s : Spelling) : Option String :=
  if s.half.isSome then none else s.chars.map fun cs => String.ofList cs.reverse

def push (s : Spelling) (c : Char) : Spelling :=
  if s.half.isSome then ⟨none, none⟩ else ⟨s.chars.map (c :: ·), none⟩

/-- Push what an escaped number of sixteen bits stands for. -/
def pushWord (s : Spelling) (n : Nat) : Spelling :=
  if n < 0xD800 ∨ 0xDFFF < n then s.push (Char.ofNat n)
  else
    match s.half with
    | none => if n < 0xDC00 then ⟨s.chars, some n⟩ else ⟨none, none⟩
    | some high =>
      if n < 0xDC00 then ⟨none, some n⟩
      else ⟨s.chars.map (Char.ofNat (0x10000 + (high - 0xD800) * 0x400 + (n - 0xDC00)) :: ·), none⟩

end Spelling

/-- The rest of a string after its opening quote. A control character that is not escaped is
refused. -/
def readString (done : Spelling) : List Char → Option (Option String × List Char)
  | '"' :: rest => some (done.text?, rest)
  | '\\' :: 'u' :: a :: b :: c :: d :: rest =>
    match hexWord? a b c d with
    | some n => readString (done.pushWord n) rest
    | none => none
  | '\\' :: e :: rest =>
    match escaped? e with
    | some c => readString (done.push c) rest
    | none => none
  | c :: rest => if c.toNat < 0x20 then none else readString (done.push c) rest
  | [] => none

/-! ## Values -/

/-- Items after the opening bracket of a list that is not empty. -/
def readItems (value : List Char → Option (Written × List Char)) (done : List Written) :
    Nat → List Char → Option (List Written × List Char)
  | 0, _ => none
  | fuel + 1, s =>
    match value s with
    | none => none
    | some (v, rest) =>
      match skipBlanks rest with
      | ',' :: rest' => readItems value (v :: done) fuel rest'
      | ']' :: rest' => some ((v :: done).reverse, rest')
      | _ => none

/-- Members after the opening brace of an object that is not empty. -/
def readMembers (value : List Char → Option (Written × List Char)) (done : Written.Members) :
    Nat → List Char → Option (Written.Members × List Char)
  | 0, _ => none
  | fuel + 1, s =>
    match skipBlanks s with
    | '"' :: s' =>
      match readString .empty s' with
      | none => none
      | some (name, rest) =>
        match skipBlanks rest with
        | ':' :: rest' =>
          match value rest' with
          | none => none
          | some (v, rest'') =>
            match skipBlanks rest'' with
            | ',' :: r => readMembers value ((name, v) :: done) fuel r
            | '}' :: r => some (((name, v) :: done).reverse, r)
            | _ => none
        | _ => none
    | _ => none

/-- A value that is no list and no object. -/
def readScalar : List Char → Option (Written × List Char)
  | 'n' :: 'u' :: 'l' :: 'l' :: rest => some (.null, rest)
  | 't' :: 'r' :: 'u' :: 'e' :: rest => some (.bool true, rest)
  | 'f' :: 'a' :: 'l' :: 's' :: 'e' :: rest => some (.bool false, rest)
  | '"' :: rest =>
    (readString .empty rest).map fun (s, rest) => ((s.map .str).getD .valueless, rest)
  | s => (Number.read s).map fun (n, rest) => ((n.map .num).getD .valueless, rest)

/-- A list or an object at a depth where so many levels are left. -/
def atDepth (left : Nat) (w : Written) : Written := if left = 0 then .valueless else w

/-- A value where so many levels of lists and objects are left. The text has at most `length`
characters, and lists and objects nest at most `fuel` deep. -/
def readValue (length : Nat) :
    (fuel left : Nat) → List Char → Option (Written × List Char)
  | 0, _, s => readScalar (skipBlanks s)
  | fuel + 1, left, s =>
    match skipBlanks s with
    | '[' :: rest =>
      match skipBlanks rest with
      | ']' :: rest' => some (atDepth left (.arr []), rest')
      | rest' =>
        (readItems (readValue length fuel (left - 1)) [] length rest').map fun (l, r) =>
          (atDepth left (.arr l), r)
    | '{' :: rest =>
      match skipBlanks rest with
      | '}' :: rest' => some (atDepth left (.obj []), rest')
      | rest' =>
        (readMembers (readValue length fuel (left - 1)) [] length rest').map fun (l, r) =>
          (atDepth left (.obj l), r)
    | s => readScalar s

/-- How deep lists and objects with a value may nest. -/
def depthLimit : Nat := 127

end DesiredState.Json

namespace DesiredState

/-- What a whole text writes. -/
def Written.ofText? (text : String) : Option Written :=
  let s := text.toList
  match Json.readValue s.length s.length Json.depthLimit s with
  | some (w, rest) => if (Json.skipBlanks rest).isEmpty then some w else none
  | none => none

/-- The value that a whole text holds. -/
def Json.parse? (text : String) : Option Json := (Written.ofText? text).bind Written.value?

end DesiredState
