import NetnsWatch.Entry
import NetnsWatch.Fault
import NetnsWatch.Nsid.Datagram

/-!
# Notices

Everything that is logged, as a value: what it says, how important it is, where it comes from, and
its line of text.
-/

namespace NetnsWatch

/-- How important a notice is. -/
inductive Level where
  | error
  | warn
  | info
  | debug
  deriving DecidableEq, Repr

namespace Level

/-- The name of a level. -/
def name : Level → String
  | error => "ERROR"
  | warn => "WARN"
  | info => "INFO"
  | debug => "DEBUG"

/-- How much detail a level asks for: a filter at one level also lets the lower ones through. -/
def detail : Level → Nat
  | error => 1
  | warn => 2
  | info => 3
  | debug => 4

end Level

/-- The part of the program that a notice comes from. -/
inductive Origin where
  | program
  | burst
  | datagram
  | listener
  | drain
  | correlation
  | report
  | supervisor
  deriving DecidableEq, Repr

/-- The path by which a filter knows a part of the program. -/
def Origin.path : Origin → String
  | program => "nsmon"
  | burst => "nsmon::selftest"
  | datagram => "nsmon::nsid::message"
  | listener => "nsmon::workers::nsid"
  | drain => "nsmon::workers::ringbuf"
  | correlation => "nsmon::workers::correlator"
  | report => "nsmon::agent"
  | supervisor => "nsmon::supervisor"

/-- Something worth logging. -/
inductive Notice where
  /-- The rest of a datagram was dropped. -/
  | malformedHeader (offset : Nat) (fault : HeaderFault)
  /-- One message of a datagram was dropped. -/
  | undecodable (type : UInt16)
  /-- A datagram brought no notification. -/
  | emptyBatch (nsid : Option NsId)
  /-- A record could not be read. -/
  | rejectedRecord (error : SchemaError)
  /-- The drain was stopped after taking this many records. -/
  | drainStopped (total : Nat)
  /-- Nobody sends on a channel any more. -/
  | channelClosed (name : String)
  /-- An entry was reported. -/
  | entry (entry : Entry)
  /-- The report ended after this many entries. -/
  | entriesReported (count : Nat)
  /-- A task ended with an error. -/
  | taskFailed (task : String) (fault : Fault)
  /-- The supervisor begins to stop its tasks. -/
  | shutdownStarting
  /-- All tasks have ended and were looked at. -/
  | shutdownComplete
  /-- The self test lost this many of its records. -/
  | burstDropped (count : Nat)
  /-- The self test has submitted everything. -/
  | burstSubmitted
  /-- The time to run is over. -/
  | timeElapsed
  /-- The ring dropped this many records. -/
  | recordsDropped (count : Nat)
  deriving DecidableEq, Repr

namespace Notice

/-- How important a notice is. -/
def level : Notice → Level
  | malformedHeader .. | undecodable _ | emptyBatch _ | rejectedRecord _ => .debug
  | entry e =>
    match e.occurrence with
    | .rejected _ => .warn
    | .process _ | .nsid _ => .info
  | burstDropped _ | recordsDropped _ => .warn
  | taskFailed .. => .error
  | drainStopped _ | channelClosed _ | entriesReported _ | shutdownStarting | shutdownComplete
  | burstSubmitted | timeElapsed => .info

/-- Where a notice comes from; the report is the one that receives entries. -/
def origin : Notice → Origin
  | malformedHeader .. | undecodable _ => .datagram
  | emptyBatch _ => .listener
  | rejectedRecord _ | drainStopped _ => .drain
  | channelClosed name => if name = "entries" then .report else .correlation
  | entry _ | entriesReported _ => .report
  | taskFailed .. | shutdownStarting | shutdownComplete => .supervisor
  | burstDropped _ | burstSubmitted => .burst
  | timeElapsed | recordsDropped _ => .program

/-- What a notice says. -/
def text : Notice → String
  | malformedHeader offset fault =>
    "malformed netlink header at offset " ++ toString offset ++ " (" ++ fault.message ++
      "), dropping rest of datagram"
  | undecodable type =>
    "undecodable NSID message of type " ++ toString type.toNat ++
      ": Decode error occurred: Failed to parse message with type " ++ toString type.toNat
  | emptyBatch nsid =>
    let number := match nsid with
      | some nsid => "Some(" ++ toString nsid.toNat ++ ")"
      | none => "None"
    "NSID datagram without notifications (nsid " ++ number ++ ")"
  | rejectedRecord error => "rejected ring record: " ++ error.message
  | drainStopped total => "ring drain stopped after " ++ toString total ++ " records"
  | channelClosed name => name ++ " channel closed: " ++ Fault.disconnected.message
  | entry e => e.line
  | entriesReported count => toString count ++ " entries reported"
  | taskFailed task fault => task ++ " failed: " ++ fault.message
  | shutdownStarting => "Supervisor shutdown starting"
  | shutdownComplete => "Supervisor shutdown complete"
  | burstDropped count => "selftest: " ++ toString count ++ " synthetic records dropped"
  | burstSubmitted => "selftest burst submitted"
  | timeElapsed => "run time elapsed, shutting down"
  | recordsDropped count => toString count ++ " records dropped by the in-process ring"

/-- The line of a notice in the log. -/
def line (n : Notice) : String :=
  n.level.name ++ " " ++ n.text

/-- What is logged about a finding in a datagram. -/
def ofFinding : Finding → Option Notice
  | .notification _ => none
  | .undecodable type => some (.undecodable type)
  | .malformed offset fault => some (.malformedHeader offset fault)

/-- What is logged while a datagram is read. -/
def ofDatagram (nsid : Option NsId) (body : Bytes) : List Notice :=
  (findings nsid body).filterMap ofFinding

end Notice

end NetnsWatch
