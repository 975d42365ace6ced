/-!
# Settings of commands

A command has settings, each at most once in a command line. Arguments are read from left to
right, and the first that is refused or asks for help ends the reading. A setting that takes a
value has it attached or as the next argument, which must not look like an option.
-/

namespace DesiredState.CommandLine

/-- The value that a setting takes. -/
structure Value where
  /-- What help calls the value. -/
  name : String
  admits : String → Bool
  default : String
  /-- The values that are admitted, if they can be listed. -/
  listed : List String

structure Setting where
  /-- The name after two hyphens. -/
  long : String
  short : Option Char
  /-- A flag takes no value. -/
  value? : Option Value
  help : String
  /-- The variable that stands in for the setting. -/
  env? : Option String

structure Command where
  name : String
  about : String
  settings : List Setting

/-- Why the reading of arguments ends before they do. -/
inductive Stop where
  | usage
  | help
  deriving DecidableEq

/-- The settings that were given, by their long names. -/
abbrev Given : Type := List (String × String)

namespace Given

def get? (g : Given) (name : String) : Option String := (g.find? (·.1 = name)).map (·.2)

end Given

namespace Setting

/-- The value may stand for the setting. A flag has two values. -/
def admits (o : Setting) (text : String) : Bool :=
  match o.value? with
  | some v => v.admits text
  | none => text == "true" || text == "false"

/-- Take the setting with its value, unless it is refused or there already. -/
def take (o : Setting) (text : String) (given : Given) : Except Stop Given :=
  if (given.get? o.long).isNone && o.admits text then .ok ((o.long, text) :: given)
  else .error .usage

end Setting

namespace Command

/-- How far an argument gets: to what is given, and to a setting that waits for its value. -/
abbrev Reading : Type := Except Stop (Option Setting × Given)

/-- A setting is given, with a value attached to it or not. -/
def give (o : Setting) (attached : Option String) (given : Given) : Reading :=
  match o.value?, attached with
  | none, none => (o.take "true" given).map (none, ·)
  | none, some _ => .error .usage
  | some _, some text => (o.take text given).map (none, ·)
  | some _, none => .ok (some o, given)

/-- The text after an equals sign. -/
def afterEquals : List Char → Option String
  | '=' :: rest => some (String.ofList rest)
  | _ => none

/-- Read an argument that starts with two hyphens, which are left out here. -/
def readLong (c : Command) (s : List Char) (given : Given) : Reading :=
  let name := String.ofList (s.takeWhile (· ≠ '='))
  let attached := afterEquals (s.dropWhile (· ≠ '='))
  match c.settings.find? (·.long = name) with
  | some o => give o attached given
  | none => if name = "help" && attached.isNone then .error .help else .error .usage

/-- Read the letters after one hyphen. What follows a setting that takes a value is its value. -/
def readShort (c : Command) : List Char → Given → Reading
  | [], given => .ok (none, given)
  | letter :: rest, given =>
    match c.settings.find? (·.short = some letter) with
    | none => if letter = 'h' then .error .help else .error .usage
    | some o =>
      if o.value?.isSome then
        if rest.isEmpty then give o none given
        else give o (some ((afterEquals rest).getD (String.ofList rest))) given
      else
        match give o none given with
        | .error stop => .error stop
        | .ok (_, given) => readShort c rest given

/-- Read an argument that is no value. -/
def readOne (c : Command) (arg : List Char) (given : Given) : Reading :=
  match arg with
  | '-' :: '-' :: name => c.readLong name given
  | '-' :: letter :: letters => c.readShort (letter :: letters) given
  | _ => .error .usage

/-- The argument looks like an option. A hyphen alone does not. -/
def looksLikeOption (arg : String) : Bool :=
  match arg.toList with
  | '-' :: _ :: _ => true
  | _ => false

/-- Read the arguments of a command. Two hyphens alone end them, and nothing may follow. -/
def read (c : Command) : Option Setting → Given → List String → Except Stop Given
  | none, given, [] => .ok given
  | some _, _, [] => .error .usage
  | some o, given, arg :: rest =>
    if looksLikeOption arg then .error .usage
    else
      match o.take arg given with
      | .error stop => .error stop
      | .ok given => c.read none given rest
  | none, given, arg :: rest =>
    if arg = "--" then (if rest.isEmpty then .ok given else .error .usage)
    else
      match c.readOne arg.toList given with
      | .error stop => .error stop
      | .ok (waiting, given) => c.read waiting given rest

/-- Settings that were not given take the values of their variables, which have to be admitted. -/
def fill (environment : String → Option String) : List Setting → Given → Except Stop Given
  | [], given => .ok given
  | o :: rest, given =>
    match (given.get? o.long).isNone, o.env?.bind environment with
    | true, some text =>
      match o.take text given with
      | .error stop => .error stop
      | .ok given => fill environment rest given
    | _, _ => fill environment rest given

/-- The settings that a command line and the variables give. -/
def given? (c : Command) (environment : String → Option String) (args : List String) :
    Except Stop Given := do
  fill environment c.settings (← c.read none [] args)

end Command

end DesiredState.CommandLine
