import NetnsWatch.Event

/-!
# The record of a process event

On the wire an event is forty bytes: six little-endian words for the kind's code and the ids, then
the command field. Reading checks the length first and the kind second, and keeps only what the
command field says before its first NUL; writing stores the command field as it is.
-/

namespace NetnsWatch

/-- The fields of a record before its kind is checked. -/
structure Record where
  kind : UInt32
  pid : UInt32
  tid : UInt32
  uid : UInt32
  gid : UInt32
  parentPid : UInt32
  command : Command
  deriving DecidableEq, Repr

namespace Record

/-- The size of every record in bytes. -/
def size : Nat := 40

/-- Build a record from the paired ids that the kernel hands out.

The process id is the high half of its pair and the thread id the low half; the user id is the low
half of its pair and the group id the high half. -/
def ofPairs (kind : Kind) (pidTgid uidGid : UInt64) (parentPid : UInt32) (command : Command) :
    Record where
  kind := kind.code
  pid := (pidTgid >>> 32).toUInt32
  tid := pidTgid.toUInt32
  uid := uidGid.toUInt32
  gid := (uidGid >>> 32).toUInt32
  parentPid := parentPid
  command := command

open LittleEndian in
/-- The wire form of a record. -/
def toBytes (r : Record) : Bytes :=
  bytes32 r.kind ++ (bytes32 r.pid ++ (bytes32 r.tid ++ (bytes32 r.uid ++ (bytes32 r.gid ++
    (bytes32 r.parentPid ++ r.command.bytes)))))

/-- Every wire form has the size of a record. -/
@[simp] theorem length_toBytes (r : Record) : r.toBytes.length = size := by
  simp [toBytes, LittleEndian.bytes32, r.command.length_eq, size]

open LittleEndian in
/-- The fields of a wire form, if it has the size of a record. -/
def ofBytes (b : Bytes) : Except SchemaError Record :=
  if h : b.length = size then
    .ok {
      kind := word32 b
      pid := word32 (b.drop 4)
      tid := word32 (b.drop 8)
      uid := word32 (b.drop 12)
      gid := word32 (b.drop 16)
      parentPid := word32 (b.drop 20)
      command := ⟨b.drop 24, by rw [List.length_drop, h, size]⟩ }
  else .error (.length size b.length)

end Record

namespace Event

/-- The record of an event. -/
def toRecord (e : Event) : Record where
  kind := e.kind.code
  pid := e.pid
  tid := e.tid
  uid := e.uid
  gid := e.gid
  parentPid := e.parentPid
  command := e.command

/-- The event of a record, if its kind is known. -/
def ofRecord (r : Record) : Except SchemaError Event := do
  let kind ← Kind.ofCode r.kind
  return {
    kind
    pid := r.pid
    tid := r.tid
    uid := r.uid
    gid := r.gid
    parentPid := r.parentPid
    command := r.command.canonical }

/-- Write an event as a record. -/
def encode (e : Event) : Bytes :=
  e.toRecord.toBytes

/-- Read an event from the bytes of a record. -/
def decode (b : Bytes) : Except SchemaError Event :=
  Record.ofBytes b >>= ofRecord

end Event

end NetnsWatch
