import NetnsWatch.Bytes
import NetnsWatch.Nsid

/-!
# The control buffer beside a datagram

The kernel sends the number of the namespace beside a datagram, as one of the entries of a control
buffer. An entry begins with its length, its level and its type; the next one begins at the
following multiple of eight. The reader follows the lengths by 64-bit addresses. A sum that has more
bits is no address: the program does not go on with what is left of it, it stops there with a panic.
-/

namespace NetnsWatch

/-- An entry of a control buffer. -/
structure ControlEntry where
  level : UInt32
  type : UInt32
  data : Bytes
  deriving DecidableEq, Repr

/-- What the program stops at, in the middle of its work. -/
inductive Panic where
  /-- A sum has more bits than a word. -/
  | overflow
  deriving DecidableEq, Repr

/-- What the program says when it stops. -/
def Panic.message : Panic → String
  | overflow => "attempt to add with overflow"

/-- Bytes at an address. Where the program gets the null address instead of a buffer, it scans
nothing. -/
structure Region where
  base : UInt64
  bytes : Bytes
  deriving DecidableEq, Repr

namespace Region

/-- The number that follows the address of the last byte. -/
def stop (r : Region) : Nat :=
  r.base.toNat + r.bytes.length

/-- The number that follows the address of the last byte is an address as well. -/
def Placed (r : Region) : Prop :=
  r.stop < UInt64.size

instance (r : Region) : Decidable r.Placed :=
  inferInstanceAs (Decidable (_ < _))

/-- The next `count` bytes from an address on, if all of them lie in the region. -/
def read? (r : Region) (address : UInt64) (count : Nat) : Option Bytes :=
  let offset := (address - r.base).toNat
  if offset + count ≤ r.bytes.length then some ((r.bytes.drop offset).take count) else none

end Region

namespace Control

/-- The size of an entry's header. -/
def headerSize : Nat := 16

/-- The level of entries about netlink. -/
def netlinkLevel : UInt32 := 270

/-- The type of the entry that names a namespace. -/
def nsidType : UInt32 := 8

/-- The sum of two words, if it is a word. -/
def add? (a b : UInt64) : Option UInt64 :=
  if a.toNat + b.toNat < UInt64.size then some (a + b) else none

/-- Round up to a multiple of eight, if the sum in that is a word. -/
def align8? (n : UInt64) : Option UInt64 :=
  (add? n 7).map (· &&& ~~~7)

/-- The address of the entry behind one of some length, if the sums in that are words. -/
def onward? (address length : UInt64) : Option UInt64 :=
  (align8? length).bind (add? address)

/-- Round up to a multiple of eight. -/
def padTo8 (n : Nat) : Nat :=
  (n + 7) / 8 * 8

open LittleEndian in
/-- Lay an entry out, padded to eight bytes. -/
def encode (e : ControlEntry) : Bytes :=
  let length := headerSize + e.data.length
  bytes 8 length ++ (bytes32 e.level ++ (bytes32 e.type ++
    (e.data ++ List.replicate (padTo8 length - length) 0)))

/-- A number that came beside a datagram; a negative one means that there is none. -/
def nsidOfWord (word : UInt32) : Option NsId :=
  if 0 ≤ word.toInt32 then some word else none

/-- What following the entries comes to. -/
inductive Scan where
  /-- The number beside the datagram, or the finding that there is none. -/
  | answer (nsid : Option NsId)
  /-- A sum of addresses has more bits than a word. -/
  | overflow
  /-- A header or a number was looked for outside the buffer. -/
  | outside (address : UInt64)
  /-- The entries are not at an end after as many of them as the buffer has room for. -/
  | endless
  deriving DecidableEq, Repr

/-- One entry: an outcome, or the address of the next entry.

The end of the entry is compared with the end of the buffer before anything else in it is looked at.
A next entry is there if its header fits into the buffer. -/
def visit (r : Region) (address : UInt64) : Scan ⊕ UInt64 :=
  match r.read? address headerSize with
  | none => .inl (.outside address)
  | some header =>
    let length := LittleEndian.word64 header
    let level := LittleEndian.word32 (header.drop 8)
    let type := LittleEndian.word32 (header.drop 12)
    if length < 16 then .inl (.answer none)
    else match add? address length with
      | none => .inl .overflow
      | some last =>
        if r.stop < last.toNat then .inl (.answer none)
        else if level = netlinkLevel ∧ type = nsidType ∧ 20 ≤ length then
          match r.read? (address + 16) 4 with
          | none => .inl (.outside (address + 16))
          | some data => .inl (.answer (nsidOfWord (LittleEndian.word32 data)))
        else match onward? address length with
          | none => .inl .overflow
          | some next =>
            if r.stop < next.toNat + headerSize then .inl (.answer none) else .inr next

/-- Follow the entries for a number of steps. -/
def follow (r : Region) : (steps : Nat) → UInt64 → Scan
  | 0, _ => .endless
  | steps + 1, address =>
    match visit r address with
    | .inl outcome => outcome
    | .inr next => follow r steps next

/-- Follow the entries from the first one, once the end of the buffer is known.

An entry takes at least the room of its header, so the buffer has room for fewer entries than there
are steps. -/
def scan (r : Region) : Scan :=
  if ¬ r.Placed then .overflow
  else if r.bytes.length < headerSize then .answer none
  else follow r (r.bytes.length / headerSize + 1) r.base

/-- The number beside a datagram, if the walk finds one. -/
def nsid (r : Region) : Except Panic (Option NsId) :=
  match scan r with
  | .answer nsid => .ok nsid
  | .overflow => .error .overflow
  | .outside _ | .endless => .ok none

end Control

end NetnsWatch
