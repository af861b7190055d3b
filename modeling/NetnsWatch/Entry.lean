import NetnsWatch.Event
import NetnsWatch.Nsid
import NetnsWatch.Time

/-!
# Source events and report entries

What happened is a process event, a namespace notification, or a record that could not be read.
Sources stamp it with its arrival; the correlator adds a sequence number and, for process events,
the namespace assignment that it belongs to. Every entry has one line of text.
-/

namespace NetnsWatch

/-- One thing that a source observed. -/
inductive Occurrence where
  | process (event : Event)
  | nsid (notification : NsidNotification)
  | rejected (error : SchemaError)
  deriving DecidableEq, Repr

/-- An occurrence stamped with its arrival. -/
structure SourceEvent where
  arrivedAt : Instant
  occurrence : Occurrence
  deriving DecidableEq, Repr

/-- The assignment that a process event belongs to, and how long it came before. -/
structure Association where
  nsid : NsId
  nsidSeq : Nat
  pid : UInt32
  delay : Duration
  deriving DecidableEq, Repr

/-- One element of the numbered stream; numbering starts at one. -/
structure Entry where
  seq : Nat
  arrivedAt : Instant
  occurrence : Occurrence
  association : Option Association
  deriving DecidableEq, Repr

/-- The name of a change in reports. -/
def NsidChange.name : NsidChange → String
  | assigned => "NSID_ASSIGNED"
  | removed => "NSID_REMOVED"

/-- The text of a process event. -/
def Event.text (e : Event) : String :=
  "[" ++ e.kind.name ++ "] " ++ e.command.text ++
    " (PID: " ++ toString e.pid.toNat ++ ", TID: " ++ toString e.tid.toNat ++
    ", PPID: " ++ toString e.parentPid.toNat ++ ", UID: " ++ toString e.uid.toNat ++
    ", GID: " ++ toString e.gid.toNat ++ ")"

/-- The text of a notification. -/
def NsidNotification.text (n : NsidNotification) : String :=
  let number := match n.nsid with
    | some nsid => toString nsid.toNat
    | none => "unknown"
  let body := match n.bodyNsid with
    | some nsid => " (NETNSA_NSID " ++ toString nsid.toInt ++ ")"
    | none => ""
  "[" ++ n.change.name ++ "] nsid " ++ number ++ body

namespace Occurrence

/-- The text of an occurrence. -/
def text : Occurrence → String
  | process event => event.text
  | nsid notification => notification.text
  | rejected error => "[DECODE_FAILURE] " ++ error.message

end Occurrence

/-- The text of an association: the number, where it was assigned, and how long before. -/
def Association.text (a : Association) : String :=
  " <-> nsid " ++ toString a.nsid.toNat ++ " (#" ++ toString a.nsidSeq ++ ", " ++
    a.delay.text ++ " earlier)"

namespace Entry

/-- The line of an entry. -/
def line (e : Entry) : String :=
  let joined := match e.association with
    | some association => association.text
    | none => ""
  "#" ++ toString e.seq ++ " " ++ e.occurrence.text ++ joined

end Entry

end NetnsWatch
