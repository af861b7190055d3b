import NetnsWatch.Session.Turn

/-!
# Letting every task run until it is idle

On a single thread the tasks take their turns in a fixed order: the drain, the listener, the
correlation, the report. A task that finds the token cancelled stops before it takes anything more.
The number of turns is bounded by the work in sight, and turns beyond it change nothing.
-/

namespace NetnsWatch.Session

/-- More records than can stand in the ring, as each takes two words at least. -/
def recordBound (s : Session) : Nat :=
  (s.ring.producer - s.ring.consumer).toNat / 16 + 1

/-- Drain the ring once. -/
def drainOnce (s : Session) : Session :=
  Nat.repeat (fun s => s.takeRecord.sendRecord) s.recordBound s.wakeDrain

/-- Let the drain run: it stops if it can, and drains if it was signalled and has a record. -/
def settleDrain (signalled : Bool) (s : Session) : Session :=
  let s := s.stopDrain
  if signalled && s.ring.hasCommitted then s.drainOnce else s

/-- Let the listener receive what has come, one datagram after another. -/
def settleListen (inbox : List (Except Fault NsidBatch)) (s : Session) : Session :=
  inbox.foldl (fun s outcome =>
      let s := s.stopListen.receive outcome
      match s.listen with
      | .sending events => Nat.repeat sendNotification events.length s
      | .waiting | .ended => s)
    s.stopListen

/-- Let the correlation take every event that was sent. -/
def settleCorrelate (s : Session) : Session :=
  let s := s.stopCorrelate
  Nat.repeat (fun s => s.takeEvent.sendEntry) (s.source.queue.length + 1) s

/-- Let the report take every entry that was sent. -/
def settleReport (s : Session) : Session :=
  let s := s.stopReport
  Nat.repeat takeEntry (s.entries.queue.length + 1) s

/-- Let each task run once. -/
def settleOnce (signalled : Bool) (inbox : List (Except Fault NsidBatch)) (s : Session) : Session :=
  (((s.settleDrain signalled).settleListen inbox).settleCorrelate).settleReport

/-- Let all tasks run until they are idle; a task that fails is noticed by the others in turn. -/
def settle (signalled : Bool) (inbox : List (Except Fault NsidBatch)) (s : Session) : Session :=
  (s.settleOnce signalled inbox).settleOnce signalled []

/-- Cancel the token, let every task stop, and join them all. -/
def shutdown (s : Session) : Session :=
  (s.beginShutdown.settle false []).joinEnded

/-- The failure that the shutdown returned, if there was one. -/
def failure? (s : Session) : Option TaskFailure :=
  s.supervisor.failure?

/-- Take the entries that were sent, where no report takes them. -/
def collect (s : Session) : List Entry × Session :=
  (s.entries.queue, { s with entries := { s.entries with queue := [] } })

/-- Take the notices that were logged. -/
def takeNotices (s : Session) : List Notice × Session :=
  (s.journal, { s with journal := [] })

end NetnsWatch.Session
