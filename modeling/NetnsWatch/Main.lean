import NetnsWatch.CommandLine.Program

/-!
# The command line program

Reads the log filter from the environment, runs, prints, and gives the exit code.
-/

open NetnsWatch in
/-- Run with the arguments of the command line. -/
def main (arguments : List String) : IO UInt32 := do
  let filter ← IO.getEnv "RUST_LOG"
  let outcome := Program.run arguments
  IO.print (Program.output filter outcome)
  IO.eprint (Program.errors filter outcome)
  return UInt32.ofNat (Program.exitCode outcome)
