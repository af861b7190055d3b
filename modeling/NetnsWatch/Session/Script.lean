import NetnsWatch.Nsid.Control
import NetnsWatch.Session.Settle

/-!
# Scripted sessions

A script feeds a session step by step, and after each step every task runs until it is idle. One
script drives the drain, the listener and the correlation from outside; one drives the report; and
one runs the self test, with or without the report. Datagrams are read before any task runs: a panic
over a control buffer ends the whole script.
-/

namespace NetnsWatch

/-- What one step of a script brings. -/
structure Feed where
  /-- Records for the ring. -/
  records : List Bytes
  /-- Words stored into the ring after that, without framing. -/
  overwrites : List (UInt64 × UInt64)
  /-- Datagrams with their control buffers, if those were filled. -/
  datagrams : List (Bytes × Option Bytes)
  /-- A failure of the notification source. -/
  sourceError : Option String
  /-- Whether the token is cancelled. -/
  cancel : Bool
  /-- Milliseconds without any other input. -/
  idle : Nat

/-- What one step of a script showed. -/
structure Shown where
  submissions : List Submission
  entries : List Entry
  dropped : UInt64
  cancelled : Bool
  notices : List Notice

/-- A scripted session: its poll timeout and the time since the last drain, in milliseconds. -/
structure Script where
  session : Session
  poll : Nat
  waited : Nat

namespace Script

/-- Where control buffers lie, among the highest addresses that a process can use. -/
def controlBase : UInt64 := 0x7FFF00000000

/-- The number in the control buffer of a datagram. -/
def controlNsid : Option Bytes → Except Panic (Option NsId)
  | some control => Control.nsid ⟨controlBase, control⟩
  | none => .ok none

/-- The notifications of a datagram, with the number in its control buffer, and what is logged while
they are read. -/
def batch (datagram : Bytes × Option Bytes) : Except Panic (NsidBatch × List Notice) := do
  let nsid ← controlNsid datagram.2
  return ({ nsid, notifications := notifications nsid datagram.1 },
    Notice.ofDatagram nsid datagram.1)

/-- Submit records one after another. -/
def submitAll : List Bytes → Session → List Submission × Session
  | [], s => ([], s)
  | record :: rest, s =>
    let (submission, s) := s.submit record
    let (submissions, s) := submitAll rest s
    (submission :: submissions, s)

/-- Store words into the ring one after another. -/
def overwriteAll (words : List (UInt64 × UInt64)) (s : Session) : Session :=
  { s with ring := words.foldl (fun ring word => ring.overwrite word.1 word.2) s.ring }

/-- What the listener receives in a step. -/
def inbox (batches : List NsidBatch) (sourceError : Option String) :
    List (Except Fault NsidBatch) :=
  batches.map .ok ++ (sourceError.map fun text => Except.error (Fault.custom text)).toList

/-- Let idle time pass; whenever a poll timeout is over, the ring is drained without a signal. Where
nothing passes no timeout is over, however short it is. -/
def passTime (idle : Nat) (script : Script) : Script :=
  let waited := script.waited + idle
  if 0 < idle && script.poll ≤ waited then
    { script with session := script.session.settle true [], waited := waited % script.poll }
  else { script with waited }

/-- Play one step. -/
def play (feed : Feed) (script : Script) : Except Panic (Shown × Script) := do
  let (submissions, s) := submitAll feed.records script.session
  let s := overwriteAll feed.overwrites s
  let batches ← feed.datagrams.mapM batch
  let s := (batches.flatMap Prod.snd).foldl (fun s notice => s.note notice) s
  let s := if feed.cancel then s.cancel else s
  let signalled := submissions.contains .accepted
  let drains := signalled && s.ring.hasCommitted
  let s := s.settle signalled (inbox (batches.map Prod.fst) feed.sourceError)
  let script := passTime feed.idle
    { script with session := s, waited := if drains then 0 else script.waited }
  let (entries, s) := script.session.collect
  let (notices, s) := s.takeNotices
  return ({ submissions, entries, dropped := s.ring.dropped, cancelled := s.cancelled, notices },
    { script with session := s })

/-- Play a whole script, then shut the session down. -/
def playAll (feeds : List Feed) (script : Script) : Except Panic (List Shown × Session) :=
  match feeds with
  | [] => .ok ([], script.session.shutdown)
  | feed :: rest => do
    let (shown, script) ← script.play feed
    let (others, s) ← playAll rest script
    return (shown :: others, s)

/-- A script for a fresh session with a given ring. -/
def create (ring : Ring) (window : Duration) (poll : Nat) : Script :=
  { session := .monitor ring window, poll, waited := 0 }

end Script

/-- What one step of a script for the report brings. -/
inductive ReportFeed where
  | entry (entry : Entry)
  | close
  | cancel

/-- How an entry fared on its way to the report. -/
inductive Delivery where
  | done
  | noSender
  | failed (fault : Fault)
  deriving DecidableEq, Repr

namespace ReportFeed

/-- Feed the report, and let it run. -/
def play (feed : ReportFeed) (s : Session) : Delivery × Session :=
  match feed with
  | close => (.done, { s with entries := s.entries.dropSender }.settle false [])
  | cancel => (.done, s.cancel.settle false [])
  | entry e =>
    if s.entries.senders = 0 then (.noSender, s)
    else
      match s.entries.send e with
      | .ok entries => (.done, { s with entries }.settle false [])
      | .error fault => (.failed fault, s)

end ReportFeed

namespace Session

/-- Let the self test submit its first records and send its notification, and drain them. -/
def startBurst (s : Session) : Session :=
  (run ((Burst.forkPids.map .fork) ++ [.announce, .sendAnnouncement]) s).settle true []

/-- Let the self test rest until its timer wakes it, submit its last record, and drain it. -/
def endRest (s : Session) : Session :=
  (run [.advance (Burst.rest + Burst.lateness), .clone] s).settle true []

/-- Run the self test to its end without the report, and take the entries. -/
def untimedBurst (ring : Ring) (window : Duration) : List Entry × Session :=
  let s := { selfTest ring window with
    report := .ended, supervisor := .create [drainTask, burstTask, correlateTask] }
  let (entries, s) := (s.startBurst.endRest).collect
  (entries, s.shutdown)

/-- Run the self test with the report until the time to run is over, then shut down.

The self test is not stopped by the token, so a shutdown before its end waits for it. The time to run
begins before the rest does, so where both are equally long it is over first. -/
def timedBurst (ring : Ring) (window time : Duration) : Session :=
  let stop := fun (s : Session) => (s.note .timeElapsed).beginShutdown.settle false []
  let s := (selfTest ring window).startBurst
  let s := if time ≤ Burst.rest then endRest (stop s) else stop (endRest s)
  let s := s.joinEnded
  if s.ring.dropped = 0 then s else s.note (.recordsDropped s.ring.dropped.toNat)

end Session

end NetnsWatch
