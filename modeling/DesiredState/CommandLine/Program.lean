import DesiredState.Applier
import DesiredState.CommandLine.Help
import DesiredState.Json.Block
import DesiredState.Json.Printer
import DesiredState.Tenant.Budget
import DesiredState.Tenant.Definition

/-!
# The command line of the program

The program has two commands: one runs the controller of tenants, and one prints the definition of
their kind. A command line either asks for a run, or has an answer that does not need a cluster.
-/

namespace DesiredState.CommandLine

def programName : String := "converge"

def programAbout : String := "Declarative convergence operator"

def programVersion : String := "0.1.0"

/-! ## Settings -/

/-- Any text may be the value. -/
def textValue (name default : String) : Value := ⟨name, fun _ => true, default, []⟩

/-- The whole number that a text of decimal digits stands for; it may have a sign. -/
def wholeNumber? (s : String) : Option Int :=
  let digits := fun (cs : List Char) =>
    if cs.isEmpty || !cs.all Char.isDigit then none
    else some (cs.foldl (fun n c => 10 * n + (c.toNat - '0'.toNat)) 0 : Nat)
  match s.toList with
  | '+' :: rest => (digits rest).map Int.ofNat
  | '-' :: rest => (digits rest).map fun n => -Int.ofNat n
  | rest => (digits rest).map Int.ofNat

/-- How many owners a text asks to be reconciled at a time, which fits in 16 bits. -/
def workers? (s : String) : Option Nat :=
  (wholeNumber? s).bind fun n => if Word.HoldsUnsigned 16 n then some n.toNat else none

/-- The name of a variable for a setting. -/
def variableOf (long : String) : String :=
  "CONVERGE_" ++ String.ofList (long.toList.map fun c => if c = '-' then '_' else c.toUpper)

/-- The name of a value for a setting. -/
def valueNameOf (long : String) : String :=
  String.ofList (long.toList.map fun c => if c = '-' then '_' else c.toUpper)

/-- A setting that takes any text and has a variable. -/
def textSetting (long help default : String) : Setting :=
  ⟨long, none, some (textValue (valueNameOf long) default), help, some (variableOf long)⟩

/-- The settings for the default amounts of cpu and memory. -/
def amountSettings (part : String) (default : Amounts) : List Setting :=
  [textSetting ("default-" ++ part ++ "-cpu") "" default.cpu,
    textSetting ("default-" ++ part ++ "-memory") "" default.memory]

def defaultWorkers : Nat := 4

def runCommand : Command where
  name := "run"
  about := "Run the TenantNamespace controller against the current cluster"
  settings :=
    [⟨"workers", none,
        some ⟨"WORKERS", fun s => (workers? s).isSome, toString defaultWorkers, []⟩,
        "Owners reconciled concurrently", some (variableOf "workers")⟩,
      textSetting "field-manager" "Field manager recorded on every write" Applier.defaultManager,
      ⟨"wait-for-namespace", none, none,
        "Hold namespaced children until their namespace is active",
        some (variableOf "wait-for-namespace")⟩] ++
      amountSettings "limits" Budget.standard.limits ++
      amountSettings "requests" Budget.standard.requests ++
      amountSettings "max" Budget.standard.max ++
      amountSettings "quota-requests" Budget.standard.quotaRequests ++
      amountSettings "quota-limits" Budget.standard.quotaLimits

/-- How the definition is printed. -/
def outputs : List String := ["yaml", "json"]

def crdCommand : Command where
  name := "crd"
  about := "Print the TenantNamespace CustomResourceDefinition"
  settings := [⟨"output", some 'o', some ⟨"OUTPUT", outputs.contains, "yaml", outputs⟩, "", none⟩]

/-! ## Runs -/

/-- How the controller is run. -/
structure RunSettings where
  workers : Nat
  manager : String
  waitForNamespace : Bool
  defaults : Budget
  deriving DecidableEq

namespace RunSettings

/-- The amounts that are given, or else the defaults. -/
def amounts (given : Given) (part : String) (default : Amounts) : Amounts where
  cpu := (given.get? ("default-" ++ part ++ "-cpu")).getD default.cpu
  memory := (given.get? ("default-" ++ part ++ "-memory")).getD default.memory

def ofGiven (given : Given) : RunSettings where
  workers := ((given.get? "workers").bind workers?).getD defaultWorkers
  manager := (given.get? "field-manager").getD Applier.defaultManager
  waitForNamespace := given.get? "wait-for-namespace" == some "true"
  defaults :=
    { limits := amounts given "limits" Budget.standard.limits
      requests := amounts given "requests" Budget.standard.requests
      max := amounts given "max" Budget.standard.max
      quotaRequests := amounts given "quota-requests" Budget.standard.quotaRequests
      quotaLimits := amounts given "quota-limits" Budget.standard.quotaLimits }

end RunSettings

/-! ## Command lines -/

/-- What a command line asks for. -/
inductive Demand where
  /-- Print a text and end well. -/
  | print (text : String)
  /-- The command line is refused. -/
  | refuse
  | run (settings : RunSettings)
  deriving DecidableEq

/-- The names and descriptions of the commands. -/
def commandEntries : List Entry :=
  [⟨"run", runCommand.about⟩, ⟨"crd", crdCommand.about⟩,
    ⟨"help", "Print this message or the help of the given subcommand(s)"⟩]

/-- The help of the program as a whole. -/
def programHelp : String :=
  programAbout ++ "\n\nUsage: " ++ programName ++ " <COMMAND>\n" ++
    listUnder "Commands" commandEntries ++
    listUnder "Options" [helpEntry, ⟨"-V, --version", "Print version"⟩]

/-- The help of the help command. -/
def helpHelp : String :=
  "Print this message or the help of the given subcommand(s)\n\nUsage: " ++ programName ++
    " help [COMMAND]...\n" ++
    listUnder "Arguments" [⟨"[COMMAND]...", "Print help for the subcommand(s)"⟩]

def versionText : String := programName ++ " " ++ programVersion ++ "\n"

/-- The definition of the tenant kind in one of the outputs. -/
def definitionText (output : String) : String :=
  if output = "json" then Tenant.Definition.document.indented
  else Tenant.Definition.document.block

/-- What a command does with its settings, if its arguments do not end the reading early. -/
def demandOf (c : Command) (environment : String → Option String) (args : List String)
    (act : Given → Demand) : Demand :=
  match c.given? environment args with
  | .ok given => act given
  | .error .help => .print (c.helpText programName environment)
  | .error .usage => .refuse

/-- What the help command prints. -/
def helpDemand (environment : String → Option String) : List String → Demand
  | [] => .print programHelp
  | ["run"] => .print (runCommand.helpText programName environment)
  | ["crd"] => .print (crdCommand.helpText programName environment)
  | ["help"] => .print helpHelp
  | _ => .refuse

/-- What a letter after a hyphen asks for. -/
def letterDemand : Option Char → Demand
  | some 'h' => .print programHelp
  | some 'V' => .print versionText
  | _ => .refuse

/-- What a command line asks for. -/
def demand (environment : String → Option String) : List String → Demand
  | [] => .refuse
  | "run" :: args => demandOf runCommand environment args fun given => .run (.ofGiven given)
  | "crd" :: args =>
    demandOf crdCommand environment args fun given =>
      .print (definitionText ((given.get? "output").getD "yaml"))
  | "help" :: args => helpDemand environment args
  | "--help" :: _ => .print programHelp
  | "--version" :: _ => .print versionText
  | arg :: _ =>
    match arg.toList with
    | '-' :: letters => letterDemand letters.head?
    | _ => .refuse

/-! ## Answers -/

/-- What a call of the program leaves behind. -/
structure Answer where
  exitCode : Nat
  output : String
  deriving DecidableEq

/-- The answer where no cluster can be reached, so that a run fails. -/
def answer (environment : String → Option String) (args : List String) : Answer :=
  match demand environment args with
  | .print text => ⟨0, text⟩
  | .refuse => ⟨2, ""⟩
  | .run _ => ⟨1, ""⟩

end DesiredState.CommandLine
