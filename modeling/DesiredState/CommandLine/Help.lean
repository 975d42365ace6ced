import DesiredState.CommandLine.Setting
import DesiredState.Text.Plain

/-!
# Help texts

Help lists entries in two columns. Where the first is wide and a second would not fit on a line of
a hundred characters, every second column stands on a line of its own. No line is broken, but where
a text has lines of its own, they are indented as its first one. Control sequences, which the value
of a variable may bring along, are left out.
-/

namespace DesiredState.CommandLine

/-- An entry of a list: what it is called, and what is said about it. -/
structure Entry where
  term : String
  description : String

/-! ## Lists -/

/-- How many characters a line holds. -/
def lineWidth : Nat := 100

def blanks (n : Nat) : String := String.ofList (List.replicate n ' ')

/-- A text whose further lines start behind a margin. -/
def hanging (margin : Nat) (text : String) : String :=
  ("\n" ++ blanks margin).intercalate (text.splitOn "\n")

/-- How wide the first column is. -/
def termWidth (l : List Entry) : Nat := l.foldl (fun w e => max w e.term.length) 0

/-- The descriptions do not fit beside the terms. -/
def needsLines (l : List Entry) : Bool :=
  let taken := termWidth l + 12
  100 * taken > 40 * lineWidth && l.any fun e => e.description.length > lineWidth - taken

/-- An entry on one line. -/
def Entry.beside (width : Nat) (e : Entry) : String :=
  "  " ++ e.term ++ blanks (width - e.term.length) ++ "  " ++ hanging (width + 4) e.description
    ++ "\n"

/-- An entry with its description below. -/
def Entry.above (e : Entry) : String :=
  "  " ++ e.term ++ "\n" ++ blanks 10 ++ hanging 10 e.description ++ "\n"

/-- The lines of a list. -/
def listText (l : List Entry) : String :=
  if needsLines l then String.join (l.map Entry.above)
  else String.join (l.map (Entry.beside (termWidth l)))

/-- A list under its title. -/
def listUnder (title : String) (l : List Entry) : String :=
  if l.isEmpty then "" else "\n" ++ title ++ ":\n" ++ listText l

/-! ## Commands -/

/-- How a setting is written. -/
def Setting.term (s : Setting) : String :=
  let short :=
    match s.short with
    | some c => "-" ++ c.toString ++ ", "
    | none => "    "
  let value :=
    match s.value? with
    | some v => " <" ++ v.name ++ ">"
    | none => ""
  short ++ "--" ++ s.long ++ value

/-- What is said about the value of a setting: its variable, its default and what is admitted. -/
def Setting.notes (environment : String → Option String) (s : Setting) : List String :=
  let stand := s.env?.map fun name =>
    "[env: " ++ name ++ "=" ++ (environment name).getD "" ++ "]"
  let default := s.value?.map fun v => "[default: " ++ v.default ++ "]"
  let listed := (s.value?.map Value.listed).getD []
  let possible :=
    if listed.isEmpty then none else some ("[possible values: " ++ ", ".intercalate listed ++ "]")
  stand.toList ++ default.toList ++ possible.toList

def Setting.entry (environment : String → Option String) (s : Setting) : Entry :=
  ⟨s.term, " ".intercalate ((if s.help.isEmpty then [] else [s.help]) ++ s.notes environment)⟩

def helpEntry : Entry := ⟨"-h, --help", "Print help"⟩

/-- The help of a command under a program. -/
def Command.helpText (program : String) (environment : String → Option String) (c : Command) :
    String :=
  let entries := c.settings.map (Setting.entry environment) ++ [helpEntry]
  let use := "Usage: " ++ program ++ " " ++ c.name ++ " [OPTIONS]\n"
  Text.plain (c.about ++ "\n\n" ++ use ++ listUnder "Options" entries)

end DesiredState.CommandLine
