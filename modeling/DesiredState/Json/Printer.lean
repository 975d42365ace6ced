import DesiredState.Json.Basic

/-!
# Writing JSON text

`text` writes on one line without blanks; `indented` puts every item and member on a line of its
own, two blanks deeper than its parent.
-/

namespace DesiredState.Json

/-- Two hexadecimal digits. -/
def hexPair (n : Nat) : String :=
  String.ofList [Nat.digitChar (n / 16), Nat.digitChar (n % 16)]

/-- A character inside quotes: quote, backslash and control characters are escaped. -/
def escapeChar (c : Char) : String :=
  if c = '"' then "\\\""
  else if c = '\\' then "\\\\"
  else if c = '\n' then "\\n"
  else if c = '\r' then "\\r"
  else if c = '\t' then "\\t"
  else if c = '\x08' then "\\b"
  else if c = '\x0c' then "\\f"
  else if c.toNat < 0x20 then "\\u00" ++ hexPair c.toNat
  else c.toString

/-- A string in quotes. -/
def quote (s : String) : String := "\"" ++ String.join (s.toList.map escapeChar) ++ "\""

mutual

/-- The text of a value on one line. -/
def text : Json → String
  | null => "null"
  | bool b => if b then "true" else "false"
  | num n => n.text
  | str s => quote s
  | arr items => "[" ++ ",".intercalate (textItems items) ++ "]"
  | obj fields => "\x7b" ++ ",".intercalate (textFields fields) ++ "\x7d"

def textItems : List Json → List String
  | [] => []
  | x :: xs => text x :: textItems xs

def textFields : {b : Option String} → Entries String Json b → List String
  | _, .nil => []
  | _, .cons k _ v rest => (quote k ++ ":" ++ text v) :: textFields rest

end

/-- Parts on lines of their own between two brackets. -/
def lines (opening closing margin : String) : List String → String
  | [] => opening ++ closing
  | parts =>
    opening ++ "\n" ++ ",\n".intercalate (parts.map ((margin ++ "  ") ++ ·)) ++ "\n" ++ margin
      ++ closing

mutual

/-- The text of a value over several lines, behind a margin. -/
def indentedAt (margin : String) : Json → String
  | arr items => lines "[" "]" margin (indentedItems (margin ++ "  ") items)
  | obj fields => lines "\x7b" "\x7d" margin (indentedFields (margin ++ "  ") fields)
  | j => text j

def indentedItems (margin : String) : List Json → List String
  | [] => []
  | x :: xs => indentedAt margin x :: indentedItems margin xs

def indentedFields (margin : String) : {b : Option String} → Entries String Json b → List String
  | _, .nil => []
  | _, .cons k _ v rest =>
    (quote k ++ ": " ++ indentedAt margin v) :: indentedFields margin rest

end

/-- The text of a value over several lines. -/
def indented (j : Json) : String := indentedAt "" j

end DesiredState.Json
