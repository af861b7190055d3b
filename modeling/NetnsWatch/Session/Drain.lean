import NetnsWatch.Event.Record
import NetnsWatch.Session

/-!
# Draining the ring into the source channel

The drain waits until records are ready or the poll timeout has passed, takes every committed
record, and sends each as a source event stamped when it was taken. A record that cannot be read is
sent as such. Damage in the ring or a closed channel ends the task with an error; the token is
looked at only between drains. The running total counts the records of complete drains.
-/

namespace NetnsWatch.Session

/-- The source event of a record. -/
def observe (record : Bytes) (arrival : Instant) : SourceEvent :=
  match Event.decode record with
  | .ok event => ⟨arrival, .process event⟩
  | .error error => ⟨arrival, .rejected error⟩

/-- What is logged about a source event while it is taken. -/
def observed (event : SourceEvent) : List Notice :=
  match event.occurrence with
  | .rejected error => [.rejectedRecord error]
  | .process _ | .nsid _ => []

/-- End the drain and give up its sender. -/
def endDrain (ending : Ending) (s : Session) : Session :=
  finish drainTask ending { s with drain := .ended, source := s.source.dropSender }

/-- Begin a drain, because records are ready or the poll timeout has passed. -/
def wakeDrain (s : Session) : Session :=
  match s.drain with
  | .waiting => { s with drain := .draining 0 }
  | .draining _ | .sending .. | .ended => s

/-- Take the next record and stamp it, or complete the drain. -/
def takeRecord (s : Session) : Session :=
  match s.drain with
  | .draining count =>
    match s.ring.next with
    | (.error fault, ring) => endDrain (.failed fault) { s with ring }
    | (.ok none, ring) => { s with ring, drain := .waiting, drained := s.drained + count }
    | (.ok (some record), ring) =>
      let event := observe record s.now
      { s with ring, drain := .sending count event, journal := s.journal ++ observed event }
  | .waiting | .sending .. | .ended => s

/-- Send the event of the record that was taken. -/
def sendRecord (s : Session) : Session :=
  match s.drain with
  | .sending count event =>
    match s.source.send event with
    | .ok source => { s with source, drain := .draining (count + 1) }
    | .error fault => endDrain (.failed fault) s
  | .waiting | .draining _ | .ended => s

/-- Stop between drains, once the token is cancelled. -/
def stopDrain (s : Session) : Session :=
  match s.drain with
  | .waiting =>
    if s.cancelled then endDrain .finished (s.note (.drainStopped s.drained)) else s
  | .draining _ | .sending .. | .ended => s

end NetnsWatch.Session
