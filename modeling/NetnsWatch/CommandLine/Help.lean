/-!
# Help

The short help has a line for each option; the long one has a paragraph.
-/

namespace NetnsWatch.CommandLine

/-- The help with a line for each option. -/
def shortHelp : String :=
  "Process lifecycle and network namespace monitor\n" ++
  "\n" ++
  "Usage: nsmon [OPTIONS]\n" ++
  "\n" ++
  "Options:\n" ++
  "      --channel <CHANNEL>            [default: kernel] [possible values: kernel, selftest]\n" ++
  "      --window <WINDOW>              How far back a CLONE/UNSHARE/SETNS event looks for an NSID assignment [default: 50ms]\n" ++
  "      --poll-timeout <POLL_TIMEOUT>  Idle timeout of the drain loops [default: 250ms]\n" ++
  "      --time <TIME>                  Time duration (e.g., 20s, 5m, 1h). Runs until Ctrl-C when omitted\n" ++
  "  -h, --help                         Print help (see more with '--help')\n"

/-- The help with a paragraph for each option. -/
def longHelp : String :=
  "Process lifecycle and network namespace monitor\n" ++
  "\n" ++
  "Usage: nsmon [OPTIONS]\n" ++
  "\n" ++
  "Options:\n" ++
  "      --channel <CHANNEL>\n" ++
  "          Possible values:\n" ++
  "          - kernel:   Attach the tracepoints and subscribe to NSID notifications\n" ++
  "          - selftest: Feed a synthetic burst through the in-process ring. Needs no privileges\n" ++
  "          \n" ++
  "          [default: kernel]\n" ++
  "\n" ++
  "      --window <WINDOW>\n" ++
  "          How far back a CLONE/UNSHARE/SETNS event looks for an NSID assignment\n" ++
  "          \n" ++
  "          [default: 50ms]\n" ++
  "\n" ++
  "      --poll-timeout <POLL_TIMEOUT>\n" ++
  "          Idle timeout of the drain loops\n" ++
  "          \n" ++
  "          [default: 250ms]\n" ++
  "\n" ++
  "      --time <TIME>\n" ++
  "          Time duration (e.g., 20s, 5m, 1h). Runs until Ctrl-C when omitted\n" ++
  "\n" ++
  "  -h, --help\n" ++
  "          Print help (see a summary with '-h')\n"

/-- The help of a given length. -/
def help (long : Bool) : String :=
  if long then longHelp else shortHelp

end NetnsWatch.CommandLine
