import Ingest.Cli.Run

/-!
The loader's command line.

Reads the arguments, the `DSVLOAD_LOG_LEVEL` environment variable and the files the command
names, runs the command (`Cli.run`), prints what it printed and exits with its status.
-/

namespace Ingest.Cli

/-- Reads a file, or nothing when it cannot be read. -/
def readIfPresent (path : String) : IO (Option (String × String)) := do
  try
    let text ← IO.FS.readFile path
    return some (path, text)
  catch _ =>
    return none

end Ingest.Cli

open Ingest.Cli

def main (args : List String) : IO UInt32 := do
  let paths := match Invocation.parse? args with
    | some inv => inv.command.paths
    | none => []
  let files ← paths.filterMapM readIfPresent
  let level ← IO.getEnv "DSVLOAD_LOG_LEVEL"
  let outcome := run { files, logLevel := level } args
  let stdout ← IO.getStdout
  stdout.putStr outcome.stdout
  stdout.flush
  if let some cls := outcome.exception then
    (← IO.getStderr).putStrLn cls
  return outcome.exitCode.toUInt32
