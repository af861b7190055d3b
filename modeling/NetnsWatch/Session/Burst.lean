import NetnsWatch.Event.Record
import NetnsWatch.Session

/-!
# The self test's burst

Three writers submit a FORK each, in any order. Then the self test sends an assignment, rests a
little, and submits a CLONE, which belongs to the assignment if the window reaches that far. The
timer that ends the rest is late by more than one of its ticks, a millisecond, so the window has to
be wider than the rest. The self test does not look at the token.
-/

namespace NetnsWatch.Burst

/-- The processes that fork. -/
def forkPids : List UInt32 := [100, 101, 102]

/-- The process that clones. -/
def clonePid : UInt32 := 200

/-- The number that is assigned. -/
def nsid : NsId := 5

/-- How long the self test rests before the clone. -/
def rest : Duration := Duration.ofMillis 10

/-- How much later than that the clone is seen, in nanoseconds. -/
def lateness : Duration := 1500000

/-- The record of a process with one thread, a child of the first process. -/
def record (kind : Kind) (pid : UInt32) (name : String) : Bytes :=
  let pidTgid := (pid.toUInt64 <<< 32) ||| pid.toUInt64
  (Record.ofPairs kind pidTgid 0 1 (Command.ofName name.toUTF8.toList)).toBytes

/-- The notification that the number is assigned. -/
def notification : NsidNotification where
  change := .assigned
  nsid := some nsid
  bodyNsid := some nsid.toInt32

end NetnsWatch.Burst

namespace NetnsWatch.Session

/-- One dropped record more, if the record found no room. -/
def countDropped (submission : Submission) (dropped : Nat) : Nat :=
  match submission with
  | .accepted => dropped
  | .dropped => dropped + 1

/-- End the self test and give up its sender. -/
def endBurst (ending : Ending) (s : Session) : Session :=
  finish burstTask ending { s with burst := .ended, source := s.source.dropSender }

/-- Let the writer for a process submit its record. -/
def fork (pid : UInt32) (s : Session) : Session :=
  match s.burst with
  | .forking left dropped =>
    if pid ∈ left then
      let (submission, s) := s.submit (Burst.record .fork pid "bash")
      { s with burst := .forking (left.erase pid) (countDropped submission dropped) }
    else s
  | .sending .. | .resting .. | .ended => s

/-- Stamp the notification once all writers are done. -/
def announce (s : Session) : Session :=
  match s.burst with
  | .forking [] dropped => { s with burst := .sending ⟨s.now, .nsid Burst.notification⟩ dropped }
  | .forking (_ :: _) _ | .sending .. | .resting .. | .ended => s

/-- Send the notification and begin to rest. -/
def sendAnnouncement (s : Session) : Session :=
  match s.burst with
  | .sending event dropped =>
    match s.source.send event with
    | .ok source => { s with source, burst := .resting (s.now + Burst.rest) dropped }
    | .error fault => endBurst (.failed fault) s
  | .forking .. | .resting .. | .ended => s

/-- Submit the last record when the rest is over, and end. -/
def clone (s : Session) : Session :=
  match s.burst with
  | .resting due dropped =>
    if due ≤ s.now then
      let (submission, s) := s.submit (Burst.record .clone Burst.clonePid "ip")
      let dropped := countDropped submission dropped
      let s := if dropped = 0 then s else s.note (.burstDropped dropped)
      endBurst .finished (s.note .burstSubmitted)
    else s
  | .forking .. | .sending .. | .ended => s

end NetnsWatch.Session
