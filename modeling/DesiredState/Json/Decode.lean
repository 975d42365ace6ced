import DesiredState.Json.Basic
import DesiredState.Text.Quoted

/-!
# Reading documents as typed values

A decoder takes a document apart or says what is wrong with it. Nothing is converted: a number is
no string, and a floating number is no integer.
-/

namespace DesiredState

inductive DecodeError where
  /-- A value of the wrong type. -/
  | wrongType (found expected : String)
  /-- A value of the right type that is not admitted. -/
  | wrongValue (found expected : String)
  /-- A member that has to be there is not. -/
  | missing (member : String)
  /-- A name that is none of several. -/
  | unknownName (found expected : String)
  /-- Anything else. -/
  | other (description : String)
  deriving DecidableEq

namespace DecodeError

def message : DecodeError → String
  | wrongType found expected => "invalid type: " ++ found ++ ", expected " ++ expected
  | wrongValue found expected => "invalid value: " ++ found ++ ", expected " ++ expected
  | missing member => "missing field " ++ "\x60" ++ member ++ "\x60"
  | unknownName found expected =>
    "unknown name " ++ "\x60" ++ found ++ "\x60, expected " ++ expected
  | other description => description

end DecodeError

/-- Reads a document as a value of type `α`. -/
abbrev Decoder (α : Type) : Type := Json → Except DecodeError α

namespace Json

/-- What a document is, in an error. -/
def described : Json → String
  | null => "null"
  | bool b => "boolean " ++ "\x60" ++ (if b then "true" else "false") ++ "\x60"
  | num (.int n) => "integer " ++ "\x60" ++ toString n ++ "\x60"
  | num (.float x) => "floating point " ++ "\x60" ++ x.text ++ "\x60"
  | str s => "string " ++ Text.quoted s
  | arr _ => "sequence"
  | obj _ => "map"

def wrongType {α : Type} (expected : String) (j : Json) : Except DecodeError α :=
  .error (.wrongType j.described expected)

end Json

namespace Decoder

/-! ## Single values -/

def string : Decoder String
  | .str s => .ok s
  | j => j.wrongType "a string"

def bool : Decoder Bool
  | .bool b => .ok b
  | j => j.wrongType "a boolean"

/-- What a word is, in an error. -/
def wordText (kind : String) (bits : Nat) : String :=
  kind ++ " word of " ++ toString bits ++ " bits"

/-- An integer that fits in a signed word. -/
def signed (bits : Nat) : Decoder Int
  | .num (.int n) =>
    match (Number.int n).toSigned? bits with
    | some n => .ok n
    | none => .error (.wrongValue (Json.int n).described (wordText "a signed" bits))
  | j => j.wrongType (wordText "a signed" bits)

/-- An integer that fits in an unsigned word. -/
def unsigned (bits : Nat) : Decoder Nat
  | .num (.int n) =>
    match (Number.int n).toUnsigned? bits with
    | some n => .ok n
    | none => .error (.wrongValue (Json.int n).described (wordText "an unsigned" bits))
  | j => j.wrongType (wordText "an unsigned" bits)

/-- The members of an object, which the error calls by this name. -/
def object (expected : String) : Decoder Object
  | .obj fields => .ok fields
  | j => j.wrongType expected

/-- The members of a record, from an object or from a list of their values in the order of their
names. A list may end early, and then lacks the last ones. -/
def record (expected : String) (names : List String) : Decoder Object
  | .obj fields => .ok fields
  | .arr items =>
    if items.length ≤ names.length then .ok (SortedMap.ofList (names.zip items))
    else
      .error (.other
        ("invalid length " ++ toString items.length ++ ", expected fewer elements in array"))
  | j => j.wrongType expected

/-- Any document. -/
def any : Decoder Json := .ok

/-! ## Lists and maps -/

def items {α : Type} (d : Decoder α) : List Json → Except DecodeError (List α)
  | [] => .ok []
  | x :: xs => do
    let v ← d x
    return v :: (← items d xs)

def list {α : Type} (d : Decoder α) : Decoder (List α)
  | .arr l => items d l
  | j => j.wrongType "a sequence"

def entries {α : Type} (d : Decoder α) : {b : Option String} → Entries String Json b →
    Except DecodeError (Entries String α b)
  | _, .nil => .ok .nil
  | _, .cons k h v rest => do
    let w ← d v
    return .cons k h w (← entries d rest)

/-- A map from names. -/
def map {α : Type} (d : Decoder α) : Decoder (SortedMap String α)
  | .obj fields => entries d fields
  | j => j.wrongType "a map"

end Decoder

/-! ## Members -/

namespace Object

variable {α : Type}

/-- A member that has to be there. -/
def required (o : Object) (name : String) (d : Decoder α) : Except DecodeError α :=
  match o.get? name with
  | some v => d v
  | none => .error (.missing name)

/-- A member that may be absent or null. -/
def optional (o : Object) (name : String) (d : Decoder α) : Except DecodeError (Option α) :=
  match o.get? name with
  | some .null => .ok none
  | some v => (d v).map some
  | none => .ok none

/-- A member that may be absent but not null. -/
def withDefault (o : Object) (name : String) (d : Decoder α) (value : α) :
    Except DecodeError α :=
  match o.get? name with
  | some v => d v
  | none => .ok value

/-- A member that counts as `value` when it is absent or null. -/
def orElse (o : Object) (name : String) (d : Decoder α) (value : α) : Except DecodeError α :=
  (o.optional name d).map (·.getD value)

end Object

end DesiredState
