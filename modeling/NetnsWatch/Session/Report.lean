import NetnsWatch.Session

/-!
# Reporting entries

The report logs every entry that it receives and counts them. It ends without an error, when the
token is cancelled or when nobody sends entries any more, and then logs the count.
-/

namespace NetnsWatch.Session

/-- End the report with its count. -/
def endReport (s : Session) : Session :=
  let s := s.note (.entriesReported s.reported)
  finish reportTask .finished { s with report := .ended, entries := s.entries.dropReceiver }

/-- Log the next entry, or end because nobody sends any more. -/
def takeEntry (s : Session) : Session :=
  match s.report with
  | .waiting =>
    match s.entries.receive with
    | (.value entry, entries) => note (.entry entry) { s with entries, reported := s.reported + 1 }
    | (.pending, _) => s
    | (.disconnected, _) => endReport (s.note (.channelClosed s.entries.name))
  | .ended => s

/-- Stop between entries, once the token is cancelled. -/
def stopReport (s : Session) : Session :=
  match s.report with
  | .waiting => if s.cancelled then endReport s else s
  | .ended => s

end NetnsWatch.Session
