import MetricLayer.CommandLine

namespace MetricLayer

def entryAt (path : String) : IO PathEntry := do
  if ← (← IO.FS.realPath path).isDir then return .error .directory
  let bytes ← IO.FS.readBinFile path
  return (String.fromUTF8? bytes).elim (.error .notText) .ok

def attempt {α : Type} (action : IO α) : IO (Option α) := do
  let result ← action.toBaseIO
  return result.toOption

/-- A file that must not be read is there all the same. -/
def findEntry (path : String) : IO (Option PathEntry) := do
  match ← attempt (IO.FS.realPath path) with
  | none => return none
  | some _ => return some ((← attempt (entryAt path)).getD (.error .denied))

def machine : Host IO := ⟨fun name => IO.getEnv name, findEntry⟩

end MetricLayer

def main (arguments : List String) : IO UInt32 := do
  let outcome ← MetricLayer.CommandLine.run MetricLayer.machine arguments
  (← IO.getStderr).putStr outcome.messages
  (← IO.getStdout).putStr outcome.output
  return outcome.status.code.toUInt32
