import NetnsWatch.Entry

/-!
# Joining process events with namespace assignments

Every assignment with a known number stays pending. A process event that touches a namespace claims
the nearest pending assignment that arrived no later than it and at most a window before it; of
equally near ones the later in the stream. An assignment is claimed at most once, a removal of its
number retracts it, and one that lies more than a window behind the newest arrival is dropped.
-/

namespace NetnsWatch

/-- A pending assignment. -/
structure Assignment where
  seq : Nat
  nsid : NsId
  arrivedAt : Instant
  deriving DecidableEq, Repr

namespace Assignment

/-- Whether an arrival lies at or after the assignment, at most a window later. -/
def within (window : Duration) (arrival : Instant) (a : Assignment) : Bool :=
  a.arrivedAt ≤ arrival && arrival - a.arrivedAt ≤ window

/-- Order by arrival, then by position in the stream. -/
def before (a b : Assignment) : Bool :=
  a.arrivedAt < b.arrivedAt || (a.arrivedAt == b.arrivedAt && a.seq < b.seq)

end Assignment

/-- The latest of some assignments. -/
def latest? : List Assignment → Option Assignment
  | [] => none
  | a :: rest =>
    match latest? rest with
    | none => some a
    | some b => if b.before a then some a else some b

/-- The state of the join: numbering, the newest arrival, and what is pending in stream order. -/
structure Correlator where
  window : Duration
  nextSeq : Nat
  newest : Option Instant
  pending : List Assignment
  deriving DecidableEq, Repr

namespace Correlator

/-- A fresh join with a given window. -/
def create (window : Duration) : Correlator :=
  { window, nextSeq := 1, newest := none, pending := [] }

/-- The newest arrival once an event with this one has come. -/
def newestWith (c : Correlator) (arrival : Instant) : Instant :=
  match c.newest with
  | none => arrival
  | some newest => max newest arrival

/-- Number the next event, note its arrival, and drop what the newest arrival has left behind. -/
def noteArrival (arrival : Instant) (c : Correlator) : Correlator :=
  let newest := c.newestWith arrival
  { c with
    nextSeq := c.nextSeq + 1
    newest := some newest
    pending := c.pending.filter fun a => newest - a.arrivedAt ≤ c.window }

/-- Take the nearest pending assignment for an arrival. -/
def claim (arrival : Instant) (c : Correlator) : Option (Assignment × Correlator) :=
  match latest? (c.pending.filter (·.within c.window arrival)) with
  | none => none
  | some a => some (a, { c with pending := c.pending.filter (·.seq != a.seq) })

/-- Join a process event with its assignment, if it has one. -/
def join (event : Event) (arrival : Instant) (c : Correlator) : Option Association × Correlator :=
  if event.kind.touchesNamespace then
    match c.claim arrival with
    | none => (none, c)
    | some (a, c) =>
      (some { nsid := a.nsid, nsidSeq := a.seq, pid := event.pid, delay := arrival - a.arrivedAt }, c)
  else (none, c)

/-- Keep a known assignment, or retract what a known removal names. -/
def notify (notification : NsidNotification) (seq : Nat) (arrival : Instant) (c : Correlator) :
    Correlator :=
  match notification.change, notification.nsid with
  | .assigned, some nsid =>
    { c with pending := c.pending ++ [{ seq, nsid, arrivedAt := arrival }] }
  | .removed, some nsid => { c with pending := c.pending.filter (·.nsid != nsid) }
  | _, none => c

/-- Turn the next source event into an entry. -/
def accept (event : SourceEvent) (c : Correlator) : Entry × Correlator :=
  let seq := c.nextSeq
  let c := c.noteArrival event.arrivedAt
  let (association, c) := match event.occurrence with
    | .process e => c.join e event.arrivedAt
    | .nsid n => (none, c.notify n seq event.arrivedAt)
    | .rejected _ => (none, c)
  ({ seq, arrivedAt := event.arrivedAt, occurrence := event.occurrence, association }, c)

/-- The entries of a sequence of source events, and the state after it. -/
def acceptAll : List SourceEvent → Correlator → List Entry × Correlator
  | [], c => ([], c)
  | event :: rest, c =>
    let (entry, c) := c.accept event
    let (entries, c) := acceptAll rest c
    (entry :: entries, c)

end Correlator

end NetnsWatch
