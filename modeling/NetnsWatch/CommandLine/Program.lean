import NetnsWatch.CommandLine.Help
import NetnsWatch.CommandLine.LogFilter
import NetnsWatch.CommandLine.Options
import NetnsWatch.Digest
import NetnsWatch.Session.Script

/-!
# The program

Help goes to the standard output and complaints about arguments to the error output. A run in self
test mode logs what the filter lets through, and complains about what it cannot read in the filter.
The kernel mode needs tracepoints and a notification socket, which are outside this program.
-/

namespace NetnsWatch.Program

/-- What a run leaves behind. -/
inductive Outcome where
  /-- Help was asked for. -/
  | help (text : String)
  /-- The arguments were refused. -/
  | refused (error : UsageError)
  /-- The self test ran and logged these notices. -/
  | logged (notices : List Notice)
  /-- The mode is not available here. -/
  | unavailable (fault : Fault)
  /-- No end of the run was asked for. -/
  | endless

/-- The capacity of the ring in bytes. -/
def ringCapacity : UInt64 := 0x1000000

/-- Run the self test with given options. -/
def runSelfTest (options : Options) : Outcome :=
  match options.time, Ring.create ringCapacity with
  | none, _ => .endless
  | some _, .error fault => .unavailable fault
  | some time, .ok ring => .logged (Session.timedBurst ring options.window time).journal

/-- Run with given arguments. -/
def run (arguments : List String) : Outcome :=
  match CommandLine.read arguments with
  | .error error => .refused error
  | .ok (.help long) => .help (CommandLine.help long)
  | .ok (.run options) =>
    match options.channel with
    | .kernel => .unavailable .programNotFound
    | .selftest => runSelfTest options

/-- The exit code. -/
def exitCode : Outcome → Nat
  | .help _ | .logged _ | .endless => 0
  | .refused _ => 2
  | .unavailable _ => 1

/-- The lines that a filter lets through; without one, only errors pass. -/
def logLines (filter : Option String) (notices : List Notice) : List String :=
  (notices.filter (LogFilter.passes (filter.getD ""))).map Notice.line

/-- The text on the standard output. -/
def output (filter : Option String) : Outcome → String
  | .help text => text
  | .logged notices => String.join ((logLines filter notices).map (· ++ "\n"))
  | .refused _ | .unavailable _ | .endless => ""

/-- The sorted digests of the lines on the standard output. -/
def digests (filter : String) : Outcome → List String
  | .help text => ((text.dropEnd 1).copy.splitOn "\n").mergeSort fun a b => a ≤ b
  | .logged notices => Notice.digests (notices.filter (LogFilter.passes filter))
  | .refused _ | .unavailable _ | .endless => []

/-- The complaints about a filter, line by line. -/
def filterComplaints (filter : Option String) : String :=
  String.join ((LogFilter.complaints (filter.getD "")).map (· ++ "\n"))

/-- The text on the error output; the filter is read once the arguments are accepted. -/
def errors (filter : Option String) : Outcome → String
  | .refused error => error.message
  | .unavailable fault => filterComplaints filter ++ "Error: " ++ fault.message ++ "\n"
  | .logged _ | .endless => filterComplaints filter
  | .help _ => ""

end NetnsWatch.Program
