import NetnsWatch.Session.Burst
import NetnsWatch.Session.Correlate
import NetnsWatch.Session.Drain
import NetnsWatch.Session.Listen
import NetnsWatch.Session.Report

/-!
# Turns and schedules

A turn is one step of one task, of the world outside, or of the clock. A task that is ready both to
stop and to go on may take either turn, so a schedule stands for every choice that the tasks make. A
turn for which a task is not ready changes nothing.

A submission is one turn, although a producer first reserves a frame and commits it later, and other
tasks may move in between. The reader sees neither a frame that is only reserved nor anything behind
it, and frames come out in the order in which they were reserved. So the drain takes the same records
at the same moments as if each accepted record were submitted at once, namely when its frame and all
frames before it are committed. A record that is refused leaves nothing behind but its count.
-/

namespace NetnsWatch

/-- One step of a session. -/
inductive Turn where
  | advance (d : Duration)
  | submit (record : Bytes)
  | wakeDrain
  | takeRecord
  | sendRecord
  | stopDrain
  | receive (outcome : Except Fault NsidBatch)
  | sendNotification
  | stopListen
  | takeEvent
  | sendEntry
  | stopCorrelate
  | takeEntry
  | stopReport
  | fork (pid : UInt32)
  | announce
  | sendAnnouncement
  | clone
  | cancel
  | beginShutdown
  | joinNext

namespace Session

/-- Take one turn. -/
def turn (s : Session) : Turn → Session
  | .advance d => s.advance d
  | .submit record => (s.submit record).2
  | .wakeDrain => s.wakeDrain
  | .takeRecord => s.takeRecord
  | .sendRecord => s.sendRecord
  | .stopDrain => s.stopDrain
  | .receive outcome => s.receive outcome
  | .sendNotification => s.sendNotification
  | .stopListen => s.stopListen
  | .takeEvent => s.takeEvent
  | .sendEntry => s.sendEntry
  | .stopCorrelate => s.stopCorrelate
  | .takeEntry => s.takeEntry
  | .stopReport => s.stopReport
  | .fork pid => s.fork pid
  | .announce => s.announce
  | .sendAnnouncement => s.sendAnnouncement
  | .clone => s.clone
  | .cancel => s.cancel
  | .beginShutdown => s.beginShutdown
  | .joinNext => s.joinNext

/-- Take turns one after another. -/
def run (schedule : List Turn) (s : Session) : Session :=
  schedule.foldl turn s

/-- A session of the drain, the listener and the correlation; entries are taken from outside. -/
def monitor (ring : Ring) (window : Duration) : Session :=
  { idle ring window with
    source := .create "source" 2
    entries := .create "entries" 1
    drain := .waiting
    listen := .waiting
    correlate := .waiting
    supervisor := .create [drainTask, listenTask, correlateTask] }

/-- A session of the report alone; entries are sent from outside. -/
def reportOnly : Session :=
  { idle (.ofMemory .least) 0 with
    entries := .create "entries" 1
    report := .waiting
    supervisor := .create [reportTask] }

/-- A session of the drain, the listener, the correlation and the report. -/
def pipeline (ring : Ring) (window : Duration) : Session :=
  { idle ring window with
    source := .create "source" 2
    entries := .create "entries" 1
    drain := .waiting
    listen := .waiting
    correlate := .waiting
    report := .waiting
    supervisor := .create [drainTask, listenTask, correlateTask, reportTask] }

/-- A session of the self test, with everything but the listener. -/
def selfTest (ring : Ring) (window : Duration) : Session :=
  { idle ring window with
    source := .create "source" 2
    entries := .create "entries" 1
    drain := .waiting
    correlate := .waiting
    report := .waiting
    burst := .forking Burst.forkPids 0
    supervisor := .create [drainTask, burstTask, correlateTask, reportTask] }

end Session

end NetnsWatch
