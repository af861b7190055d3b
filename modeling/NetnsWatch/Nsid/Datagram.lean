import NetnsWatch.Bytes
import NetnsWatch.Nsid

/-!
# Datagrams of namespace notifications

A datagram is a row of netlink messages, each a sixteen-byte header and a payload, padded to four
bytes. Messages of two types report an assigned or a removed number; all others are passed over
unread. A report whose payload makes no sense is dropped alone, while a header that makes no sense
ends the reading. What was read before damage never depends on it.
-/

namespace NetnsWatch

/-- Round up to a multiple of four. -/
def align4 (n : Nat) : Nat :=
  (n + 3) / 4 * 4

/-- A netlink message without the padding after it. -/
structure Message where
  type : UInt16
  flags : UInt16
  seq : UInt32
  portId : UInt32
  payload : Bytes
  deriving DecidableEq, Repr

/-- Why the bytes at some offset do not begin with a message. -/
inductive HeaderFault where
  /-- Fewer bytes than a header has. -/
  | short (available : Nat)
  /-- A length beyond the bytes that are left. -/
  | overlong (length available : Nat)
  /-- A length below that of a header. -/
  | undersized (length available : Nat)
  deriving DecidableEq, Repr

namespace HeaderFault

/-- The reason in words; a length below a header's is compared with the bytes that are left. -/
def message (f : HeaderFault) : String :=
  "Decode error occurred: invalid netlink buffer: " ++
    match f with
    | short available =>
      "length is " ++ toString available ++ " but netlink packets are at least 16 bytes"
    | overlong length available =>
      "length field says " ++ toString length ++ " the buffer is " ++ toString available ++
        " bytes long"
    | undersized length available =>
      "length field says " ++ toString length ++ " but netlink packets are at least " ++
        toString available ++ " bytes"

end HeaderFault

namespace Message

/-- The size of a header. -/
def headerSize : Nat := 16

/-- The type of a report that a number was assigned. -/
def assignedType : UInt16 := 88

/-- The type of a report that a number was removed. -/
def removedType : UInt16 := 89

/-- The length of a message, its header included. -/
def length (m : Message) : Nat :=
  headerSize + m.payload.length

open LittleEndian in
/-- Lay a message out, padded to four bytes. -/
def encode (m : Message) : Bytes :=
  bytes 4 m.length ++ (bytes16 m.type ++ (bytes16 m.flags ++ (bytes32 m.seq ++ (bytes32 m.portId ++
    (m.payload ++ List.replicate (align4 m.length - m.length) 0)))))

open LittleEndian in
/-- The message that the bytes begin with. -/
def read (b : Bytes) : Except HeaderFault Message :=
  let length := (word32 b).toNat
  if b.length < headerSize then .error (.short b.length)
  else if b.length < length then .error (.overlong length b.length)
  else if length < headerSize then .error (.undersized length b.length)
  else .ok {
    type := word16 (b.drop 4)
    flags := word16 (b.drop 6)
    seq := word32 (b.drop 8)
    portId := word32 (b.drop 12)
    payload := (b.take length).drop headerSize }

/-- A message that was read lies within the bytes. -/
theorem length_le_of_read {b : Bytes} {m : Message} (h : read b = .ok m) :
    m.length ≤ b.length := by
  simp only [read] at h
  split at h
  · simp at h
  split at h
  · simp at h
  split at h
  · simp at h
  rw [← Except.ok.inj h]
  simp only [length, headerSize, List.length_drop, List.length_take] at *
  omega

/-- The change that a message of this type reports. -/
def change? (type : UInt16) : Option NsidChange :=
  if type = assignedType then some .assigned
  else if type = removedType then some .removed
  else none

end Message

/-- An attribute of a report. -/
structure Attribute where
  type : UInt16
  value : Bytes
  deriving DecidableEq, Repr

namespace Attribute

/-- The type of the attribute that names a number. -/
def nsidType : UInt16 := 1

open LittleEndian in
/-- Lay an attribute out, padded to four bytes. -/
def encode (a : Attribute) : Bytes :=
  let length := 4 + a.value.length
  bytes 2 length ++ (bytes16 a.type ++
    (a.value ++ List.replicate (align4 length - length) 0))

/-- Whether the value has the size that the type asks for. -/
def wellFormed (a : Attribute) : Bool :=
  if 1 ≤ a.type ∧ a.type ≤ 5 then a.value.length == 4 else true

/-- The number that an attribute names, unless it is negative. -/
def nsid? (a : Attribute) : Option Int32 :=
  let nsid := (LittleEndian.word32 a.value).toInt32
  if a.type = nsidType ∧ 0 ≤ nsid then some nsid else none

open LittleEndian in
/-- The attributes that the bytes hold, if they fill them up to padding.

The two highest bits of a type are flags and do not count. -/
def readAll (b : Bytes) : Option (List Attribute) :=
  let length := (word16 b).toNat
  if b.isEmpty then some []
  else if b.length < 4 ∨ b.length < length ∨ length < 4 then none
  else
    match readAll (b.drop (align4 length)) with
    | none => none
    | some rest =>
      some ({ type := word16 (b.drop 2) &&& 0x3FFF, value := (b.take length).drop 4 } :: rest)
  termination_by b.length
  decreasing_by
    rename_i h
    simp only [List.length_drop, align4]
    omega

end Attribute

/-- The attributes of a report's payload, if all of it makes sense.

A four-byte header, which says nothing about numbers, stands before the attributes. -/
def attributes? (payload : Bytes) : Option (List Attribute) :=
  if payload.length < 4 then none
  else
    match Attribute.readAll (payload.drop 4) with
    | none => none
    | some attributes => if attributes.all Attribute.wellFormed then some attributes else none

/-- The first number that a report's body names. -/
def bodyNsid (attributes : List Attribute) : Option Int32 :=
  attributes.findSome? Attribute.nsid?

/-- The messages of a datagram with their offsets, and where and why the reading ended early. -/
structure Walk where
  visits : List (Nat × Message)
  fault : Option (Nat × HeaderFault)
  deriving DecidableEq, Repr

/-- Read messages one after another, the first of them at a given offset. -/
def walkFrom (offset : Nat) (b : Bytes) : Walk :=
  if b.isEmpty then ⟨[], none⟩
  else
    match _h : Message.read b with
    | .error fault => ⟨[], some (offset, fault)⟩
    | .ok m =>
      let rest := walkFrom (offset + align4 m.length) (b.drop (align4 m.length))
      ⟨(offset, m) :: rest.visits, rest.fault⟩
  termination_by b.length
  decreasing_by
    have := Message.length_le_of_read _h
    simp only [List.length_drop, align4, Message.length, Message.headerSize] at *
    omega

/-- The messages of a datagram. -/
def walk (body : Bytes) : Walk :=
  walkFrom 0 body

/-- What one part of a datagram amounts to. -/
inductive Finding where
  /-- A report. -/
  | notification (notification : NsidNotification)
  /-- A message of a reporting type whose payload makes no sense. -/
  | undecodable (type : UInt16)
  /-- A header that makes no sense, which ends the reading. -/
  | malformed (offset : Nat) (fault : HeaderFault)
  deriving DecidableEq, Repr

/-- What a message amounts to, if it is of a reporting type. -/
def Message.finding? (nsid : Option NsId) (m : Message) : Option Finding :=
  match Message.change? m.type with
  | none => none
  | some change =>
    match attributes? m.payload with
    | none => some (.undecodable m.type)
    | some attributes => some (.notification { change, nsid, bodyNsid := bodyNsid attributes })

/-- Everything found in a datagram, in order. -/
def findings (nsid : Option NsId) (body : Bytes) : List Finding :=
  let w := walk body
  (w.visits.filterMap fun visit => visit.2.finding? nsid) ++
    (w.fault.map fun fault => Finding.malformed fault.1 fault.2).toList

/-- The report among the findings. -/
def Finding.notification? : Finding → Option NsidNotification
  | notification n => some n
  | undecodable _ | malformed .. => none

/-- The reports of a datagram; the number that came beside it belongs to each. -/
def notifications (nsid : Option NsId) (body : Bytes) : List NsidNotification :=
  (findings nsid body).filterMap Finding.notification?

end NetnsWatch
