import DesiredState.Json.Printer

/-!
# Writing block text

The block form of a document has one line for each scalar. Members stand below their object's
name, two blanks deeper; items stand below their list's name at the same depth, each behind a
dash. Strings stand as they are, so the form suits documents whose strings need no quotes.
-/

namespace DesiredState.Json

/-- The form of a value that needs no lines below its name. -/
def inline? : Json → Option String
  | str "" => some "''"
  | str s => some s
  | arr [] => some "[]"
  | arr _ => none
  | obj .nil => some "\x7b\x7d"
  | obj _ => none
  | j => some j.text

/-- Put an item behind its dash. -/
def dashed : List String → List String
  | [] => []
  | first :: rest => ("- " ++ first) :: rest.map ("  " ++ ·)

mutual

/-- The lines of a list or an object. -/
def blockLines : Json → List String
  | arr items => blockItems items
  | obj fields => blockFields fields
  | _ => []

def blockItems : List Json → List String
  | [] => []
  | x :: xs =>
    (match inline? x with
      | some s => ["- " ++ s]
      | none => dashed (blockLines x)) ++ blockItems xs

def blockFields : {b : Option String} → Entries String Json b → List String
  | _, .nil => []
  | _, .cons k _ v rest =>
    (match inline? v with
      | some s => [k ++ ": " ++ s]
      | none =>
        (k ++ ":") :: (if v.isObject then (blockLines v).map ("  " ++ ·) else blockLines v))
      ++ blockFields rest

end

/-- The block form, each line ended. -/
def block (j : Json) : String :=
  match inline? j with
  | some s => s ++ "\n"
  | none => String.join ((blockLines j).map (· ++ "\n"))

end DesiredState.Json
