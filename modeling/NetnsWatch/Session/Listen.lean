import NetnsWatch.Session

/-!
# Forwarding notifications to the source channel

The listener waits for the notifications of the next datagram. All of them carry one arrival, and
all are sent before the token is looked at again. A datagram without notifications is only logged;
a failure to receive ends the task with that error.
-/

namespace NetnsWatch.Session

/-- End the listener and give up its sender. -/
def endListen (ending : Ending) (s : Session) : Session :=
  finish listenTask ending { s with listen := .ended, source := s.source.dropSender }

/-- Receive the notifications of a datagram, or an error. -/
def receive (outcome : Except Fault NsidBatch) (s : Session) : Session :=
  match s.listen with
  | .waiting =>
    match outcome with
    | .error fault => endListen (.failed fault) s
    | .ok batch =>
      if batch.notifications.isEmpty then s.note (.emptyBatch batch.nsid)
      else { s with listen := .sending (batch.notifications.map fun n => ⟨s.now, .nsid n⟩) }
  | .sending _ | .ended => s

/-- Send the next notification of the datagram. -/
def sendNotification (s : Session) : Session :=
  match s.listen with
  | .sending [] => { s with listen := .waiting }
  | .sending (event :: rest) =>
    match s.source.send event with
    | .ok source => { s with source, listen := if rest.isEmpty then .waiting else .sending rest }
    | .error fault => endListen (.failed fault) s
  | .waiting | .ended => s

/-- Stop between datagrams, once the token is cancelled. -/
def stopListen (s : Session) : Session :=
  match s.listen with
  | .waiting => if s.cancelled then endListen .finished s else s
  | .sending _ | .ended => s

end NetnsWatch.Session
