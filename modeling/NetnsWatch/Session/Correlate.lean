import NetnsWatch.Session

/-!
# Correlating source events into entries

The correlation takes source events in the order in which they were sent, and sends one entry for
each. It ends when the token is cancelled, when nobody sends source events any more, or with an
error when nobody receives entries.
-/

namespace NetnsWatch.Session

/-- End the correlation and give up both of its channels. -/
def endCorrelate (ending : Ending) (s : Session) : Session :=
  finish correlateTask ending
    { s with
      correlate := .ended
      source := s.source.dropReceiver
      entries := s.entries.dropSender }

/-- Take the next source event, or end because nobody sends any more. -/
def takeEvent (s : Session) : Session :=
  match s.correlate with
  | .waiting =>
    match s.source.receive with
    | (.value event, source) =>
      let (entry, correlator) := s.correlator.accept event
      { s with source, correlator, correlate := .sending entry }
    | (.pending, _) => s
    | (.disconnected, _) => endCorrelate .finished (s.note (.channelClosed s.source.name))
  | .sending _ | .ended => s

/-- Send the entry of the event that was taken. -/
def sendEntry (s : Session) : Session :=
  match s.correlate with
  | .sending entry =>
    match s.entries.send entry with
    | .ok entries => { s with entries, correlate := .waiting }
    | .error fault => endCorrelate (.failed fault) s
  | .waiting | .ended => s

/-- Stop between events, once the token is cancelled. -/
def stopCorrelate (s : Session) : Session :=
  match s.correlate with
  | .waiting => if s.cancelled then endCorrelate .finished s else s
  | .sending _ | .ended => s

end NetnsWatch.Session
