import ForecastJob.Request

/-!
# The program

Reads what a command asks for, and prints the result.
-/

open ForecastJob

def fileText? (path : String) : IO (Option String) :=
  try some <$> IO.FS.readFile path catch _ => return none

def commandText? (c : Command) : IO (Option String) := do
  if c.readsInput then some <$> (← IO.getStdin).readToEnd else fileText? c.file

def resultOf (args : List String) : IO Result := do
  match Request.ofArgs? args with
  | none => return .usage
  | some .help => return { code := 0, output := Request.helpText }
  | some .version => return { code := 0, output := Request.versionText }
  | some (.run c) => return c.result (← commandText? c)

/-- Prints the result of the arguments. -/
def main (args : List String) : IO UInt32 := do
  let r ← resultOf args
  (← IO.getStdout).putStr r.output
  (← IO.getStderr).putStr r.complaint
  return r.code.toUInt32
