import NetnsWatch.Channel
import NetnsWatch.Correlator
import NetnsWatch.Ring
import NetnsWatch.Supervisor

/-!
# A monitoring session

The tasks of a session share two channels, a ring and the supervisor. The ring's drain and the
notification listener send source events to the correlation, which sends entries to the report; the
self test writes records into the ring and sends one notification of its own. Each task is a small
state, and every step of it is one function on the whole session, so that any interleaving of tasks
is a sequence of steps.
-/

namespace NetnsWatch

/-- Where the drain of the ring stands. -/
inductive DrainPhase where
  /-- Waiting for records, for the poll timeout, or for the token. -/
  | waiting
  /-- Taking records; this many have been sent since the wait. -/
  | draining (count : Nat)
  /-- About to send the event of a record. -/
  | sending (count : Nat) (event : SourceEvent)
  | ended
  deriving DecidableEq, Repr

/-- Where the listener for notifications stands. -/
inductive ListenPhase where
  /-- Waiting for a datagram, for the poll timeout, or for the token. -/
  | waiting
  /-- About to send these events, all of one datagram. -/
  | sending (events : List SourceEvent)
  | ended
  deriving DecidableEq, Repr

/-- Where the correlation stands. -/
inductive CorrelatePhase where
  /-- Waiting for an event or for the token. -/
  | waiting
  /-- About to send an entry. -/
  | sending (entry : Entry)
  | ended
  deriving DecidableEq, Repr

/-- Where the report stands. -/
inductive ReportPhase where
  /-- Waiting for an entry or for the token. -/
  | waiting
  | ended
  deriving DecidableEq, Repr

/-- Where the self test stands; each phase knows how many records were dropped so far. -/
inductive BurstPhase where
  /-- Writers for these processes have yet to submit their records. -/
  | forking (left : List UInt32) (dropped : Nat)
  /-- About to send the notification. -/
  | sending (event : SourceEvent) (dropped : Nat)
  /-- Resting before the last record. -/
  | resting (due : Instant) (dropped : Nat)
  | ended
  deriving DecidableEq, Repr

/-- Everything that the tasks of a session see. -/
structure Session where
  now : Instant
  ring : Ring
  source : Channel SourceEvent
  entries : Channel Entry
  drain : DrainPhase
  /-- The records that complete drains have taken. -/
  drained : Nat
  listen : ListenPhase
  correlate : CorrelatePhase
  correlator : Correlator
  report : ReportPhase
  /-- The entries that were reported. -/
  reported : Nat
  burst : BurstPhase
  supervisor : Supervisor
  journal : List Notice

namespace Session

/-- The name of the drain's task. -/
def drainTask : String := "ringbuf"

/-- The name of the listener's task. -/
def listenTask : String := "nsid"

/-- The name of the correlation's task. -/
def correlateTask : String := "correlator"

/-- The name of the report's task. -/
def reportTask : String := "agent"

/-- The name of the self test's task. -/
def burstTask : String := "selftest"

/-- A session in which no task runs. -/
def idle (ring : Ring) (window : Duration) : Session where
  now := 0
  ring := ring
  source := .create "source" 0
  entries := .create "entries" 0
  drain := .ended
  drained := 0
  listen := .ended
  correlate := .ended
  correlator := .create window
  report := .ended
  reported := 0
  burst := .ended
  supervisor := .create []
  journal := []

/-- Log a notice. -/
def note (notice : Notice) (s : Session) : Session :=
  { s with journal := s.journal ++ [notice] }

/-- Let time pass. -/
def advance (d : Duration) (s : Session) : Session :=
  { s with now := s.now + d }

/-- Note that a task has ended. -/
def finish (task : String) (ending : Ending) (s : Session) : Session :=
  let (supervisor, notices) := s.supervisor.finish task ending
  { s with supervisor, journal := s.journal ++ notices }

/-- Cancel the token. -/
def cancel (s : Session) : Session :=
  { s with supervisor := s.supervisor.cancel }

/-- Ask all tasks to stop. -/
def beginShutdown (s : Session) : Session :=
  let (supervisor, notices) := s.supervisor.beginShutdown
  { s with supervisor, journal := s.journal ++ notices }

/-- Join the task that ended first among those left. -/
def joinNext (s : Session) : Session :=
  let (supervisor, notices) := s.supervisor.joinNext
  { s with supervisor, journal := s.journal ++ notices }

/-- Join every task that has ended. -/
def joinEnded (s : Session) : Session :=
  let (supervisor, notices) := s.supervisor.joinEnded
  { s with supervisor, journal := s.journal ++ notices }

/-- Whether the token is cancelled. -/
def cancelled (s : Session) : Bool :=
  s.supervisor.cancelled

/-- Submit a record from outside the session. -/
def submit (record : Bytes) (s : Session) : Submission × Session :=
  let (submission, ring) := s.ring.submit record
  (submission, { s with ring })

end Session

end NetnsWatch
