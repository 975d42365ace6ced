/-!
# Base64

The standard alphabet with padding, in its one canonical form: full groups of four, `=` only at
the end, and no stray bits before it (RFC 4648).
-/

namespace DesiredState.Text.Base64

/-- The value of a character of the alphabet. -/
def digit? (c : Char) : Option Nat :=
  if 'A' ≤ c ∧ c ≤ 'Z' then some (c.toNat - 'A'.toNat)
  else if 'a' ≤ c ∧ c ≤ 'z' then some (c.toNat - 'a'.toNat + 26)
  else if '0' ≤ c ∧ c ≤ '9' then some (c.toNat - '0'.toNat + 52)
  else if c = '+' then some 62
  else if c = '/' then some 63
  else none

/-- The bytes of a text. -/
def bytes? : List Char → Option (List Nat)
  | [] => some []
  | [a, b, '=', '='] => do
    let x := (← digit? a) * 64 + (← digit? b)
    if x % 16 = 0 then some [x / 16] else none
  | [a, b, c, '='] => do
    let x := ((← digit? a) * 64 + (← digit? b)) * 64 + (← digit? c)
    if x % 4 = 0 then some [x / 1024, x / 4 % 256] else none
  | a :: b :: c :: d :: rest => do
    let x := (((← digit? a) * 64 + (← digit? b)) * 64 + (← digit? c)) * 64 + (← digit? d)
    return x / 65536 :: x / 256 % 256 :: x % 256 :: (← bytes? rest)
  | _ => none

end DesiredState.Text.Base64
