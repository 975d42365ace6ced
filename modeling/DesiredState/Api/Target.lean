/-!
# Targets of requests

A request names its target by a path and a query. A question mark ends the path, and what follows
a number sign is not sent. Blanks, controls and a few more characters are refused, and so are texts
of more than 65534 bytes.
-/

namespace DesiredState

structure Target where
  path : String
  /-- Names and values. -/
  query : List (String × String)
  deriving DecidableEq

namespace Target

/-- A path may hold the character. -/
def isPathChar (c : Char) : Bool :=
  let n := c.toNat
  n == 0x21 || n == 0x22 || (0x24 ≤ n && n ≤ 0x3B) || n == 0x3D || (0x40 ≤ n && n ≤ 0x5F)
    || (0x61 ≤ n && n != 0x7F)

/-- A query may hold the character. -/
def isQueryChar (c : Char) : Bool :=
  let n := c.toNat
  n == 0x21 || (0x24 ≤ n && n ≤ 0x3B) || n == 0x3D || (0x3F ≤ n && n != 0x7F)

/-- The text before the first of a character, and the text after it. -/
def cut (at' : Char) (s : List Char) : List Char × List Char :=
  (s.takeWhile (· ≠ at'), (s.dropWhile (· ≠ at')).drop 1)

/-- A name with its value, which may be left out. -/
def pair (s : List Char) : String × String :=
  let (name, value) := cut '=' s
  (String.ofList name, String.ofList value)

/-- The pairs of a query, which ampersands divide. -/
def pairs (s : List Char) : List (String × String) :=
  ((s.splitOn '&').filter (!·.isEmpty)).map pair

/-- How many bytes a text may have. -/
def sizeLimit : Nat := 65534

/-- The target of a text, unless it is too long or holds a character that is refused. -/
def ofText? (text : String) : Option Target :=
  let (path, query) := cut '?' (cut '#' text.toList).1
  if text.utf8ByteSize ≤ sizeLimit && path.all isPathChar && query.all isQueryChar then
    some ⟨String.ofList path, pairs query⟩
  else none

/-! ## Values in queries -/

/-- A digit of base sixteen. -/
def hexDigit (n : Nat) : Char := (Nat.digitChar n).toUpper

/-- A byte of a value: letters, digits and four marks stand for themselves, a plus stands for a
blank, and all other bytes are named by their number. -/
def byteText (b : UInt8) : List Char :=
  let c := Char.ofNat b.toNat
  if c.isAlphanum || c == '*' || c == '-' || c == '.' || c == '_' then [c]
  else if c == ' ' then ['+']
  else ['%', hexDigit (b.toNat / 16), hexDigit (b.toNat % 16)]

/-- The text of a value in a query. -/
def valueText (value : String) : String :=
  String.ofList (value.toUTF8.toList.flatMap byteText)

end Target

end DesiredState
