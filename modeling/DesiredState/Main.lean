import DesiredState.CommandLine.Program

/-!
# The program

Arguments and variables come from outside; the answer goes to standard output.
-/

open DesiredState

/-- Look up the variables that stand in for settings. -/
def settingVariables : IO (String → Option String) := do
  let names := CommandLine.runCommand.settings.filterMap CommandLine.Setting.env?
  let found ← names.mapM fun name => do return (name, ← IO.getEnv name)
  return fun name => (found.find? (·.1 = name)).bind (·.2)

def main (args : List String) : IO UInt32 := do
  let answer := CommandLine.answer (← settingVariables) args
  IO.print answer.output
  match CommandLine.demand (← settingVariables) args with
  | .run _ => IO.eprintln "no cluster can be reached"
  | .refuse => IO.eprintln CommandLine.programHelp
  | .print _ => pure ()
  return answer.exitCode.toUInt32
