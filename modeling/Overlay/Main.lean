import Overlay.Program.Startup

/-!
# The program

Reads arguments and environment, and writes what `Startup.run` reports: the program's own lines and
the log to the standard output, and why it has ended to the standard error.
-/

namespace Overlay

/-- The environment variables that the program reads. -/
def environmentNames : List String :=
  [Startup.filterVariable, Startup.formatVariable]
    ++ CommandOption.all.map CommandOption.environmentName

/-- The variables of the environment that are set. -/
def readEnvironment : IO Environment := do
  let found ← environmentNames.mapM fun name => return (← IO.getEnv name).map fun v => (name, v)
  return OrderedMap.ofList (found.filterMap id)

/-- Writes a report. -/
def writeReport (env : Environment) (report : Startup.Report) : IO Unit := do
  for line in report.output do
    IO.println line
  for record in report.log do
    IO.println (if Startup.isJsonLog env then record.json.text else record.text)
  for line in (report.failure.map Startup.Failure.lines).getD [] do
    IO.eprintln line

end Overlay

/-- Runs the program. -/
def main (args : List String) : IO UInt32 := do
  let env ← Overlay.readEnvironment
  let report := Overlay.Startup.run args env
  Overlay.writeReport env report
  return UInt32.ofNat report.exitCode
