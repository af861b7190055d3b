import NetnsWatch.Bytes
import NetnsWatch.Fault
import NetnsWatch.Ring.Memory

/-!
# A bounded ring of framed records

A record is framed by a header word, which holds its length and a commit bit, and its bytes are
padded to whole words. A writer reserves room at the producer position, stores the bytes and then
commits the header; a record without room is dropped and counted. The reader takes the committed
frame at the consumer position, clears its words and moves on, so a zero header always means that a
frame is reserved but not yet committed. Both positions only grow; the memory masks them.
-/

namespace NetnsWatch

/-- A ring of framed records. -/
structure Ring where
  memory : Memory
  producer : UInt64
  consumer : UInt64
  dropped : UInt64

/-- Whether a record found room. -/
inductive Submission where
  | accepted
  | dropped
  deriving DecidableEq, Repr

namespace Ring

/-- The bit that marks a header as committed. -/
def commitBit : UInt64 := 0x8000000000000000

/-- The bits of a header that hold the length. -/
def lengthMask : UInt64 := 0xFFFFFFFF

/-- The greatest length that a header can hold. -/
def maxLength : Nat := 0xFFFFFFFF

/-- A header that is neither cleared nor well formed. -/
def notCommitted : String := "header is not a committed frame"

/-- A frame of no length, or one that nobody reserved in full. -/
def overrun : String := "frame overruns the producer position"

/-- An empty ring on a cleared memory. -/
def ofMemory (memory : Memory) : Ring :=
  { memory, producer := 0, consumer := 0, dropped := 0 }

/-- An empty ring of a given capacity in bytes. -/
def create (capacity : UInt64) : Except Fault Ring :=
  match Memory.ofCapacity? capacity with
  | some memory => .ok (ofMemory memory)
  | none => .error (.invalidCapacity capacity)

/-- The words that the bytes of a record fill. -/
def payloadWords (length : Nat) : Nat :=
  (length + 7) / 8

/-- The room that a record of a given length takes, its header included. -/
def frameSize (length : Nat) : UInt64 :=
  8 + UInt64.ofNat (payloadWords length * 8)

/-- The committed header of a record of a given length. -/
def header (length : Nat) : UInt64 :=
  commitBit ||| UInt64.ofNat length

/-- The length in a committed header, if a word is one. -/
def lengthOfHeader? (word : UInt64) : Option Nat :=
  if word &&& commitBit ≠ 0 ∧ word &&& ~~~(commitBit ||| lengthMask) = 0 then
    some (word &&& lengthMask).toNat
  else none

/-- Claim room for a record of a given length; the result holds the frame's position. -/
def reserve (length : Nat) (r : Ring) : Option (UInt64 × Ring) :=
  let total := frameSize length
  if length = 0 ∨ maxLength < length then none
  else if r.memory.capacity < total then none
  else if r.consumer + r.memory.capacity < r.producer + total then none
  else some (r.producer, { r with producer := r.producer + total })

/-- Store bytes from a position on, the last word filled up with zeros. -/
def storeBytes (m : Memory) (position : UInt64) : Bytes → Memory
  | [] => m
  | byte :: rest =>
    storeBytes (m.store position (LittleEndian.word64 (byte :: rest))) (position + 8) (rest.drop 7)
  termination_by b => b.length
  decreasing_by
    rw [List.length_drop, List.length_cons]
    omega

/-- Copy a record into the ring as one frame, or drop it. -/
def submit (record : Bytes) (r : Ring) : Submission × Ring :=
  match r.reserve record.length with
  | none => (.dropped, { r with dropped := r.dropped + 1 })
  | some (position, r) =>
    let filled := storeBytes r.memory (position + 8) record
    (.accepted, { r with memory := filled.store position (header record.length) })

/-- The bytes of `count` words from a position on. -/
def loadBytes (m : Memory) (position : UInt64) (count : Nat) : Bytes :=
  (List.range count).flatMap fun i => LittleEndian.bytes64 (m.load (position + 8 * UInt64.ofNat i))

/-- What stands at the consumer position. -/
inductive Head where
  /-- No frame, or one that is not committed yet. -/
  | none
  /-- A committed frame with a record of this length. -/
  | frame (length : Nat)
  /-- Words that no writer leaves behind. -/
  | damaged (reason : String)
  deriving DecidableEq, Repr

/-- Classify the header at the consumer position. -/
def head (r : Ring) : Head :=
  let word := r.memory.load r.consumer
  if r.consumer = r.producer ∨ word = 0 then .none
  else
    match lengthOfHeader? word with
    | Option.none => .damaged notCommitted
    | some length =>
      if length = 0 ∨ r.producer < r.consumer + frameSize length then .damaged overrun
      else .frame length

/-- Clear the frame at the consumer position and move past it. -/
def release (length : Nat) (r : Ring) : Ring :=
  { r with
    memory := (Memory.clear (payloadWords length) (r.consumer + 8) r.memory).store r.consumer 0
    consumer := r.consumer + frameSize length }

/-- Take the next committed record, if any. -/
def next (r : Ring) : Except Fault (Option Bytes) × Ring :=
  match r.head with
  | .none => (.ok none, r)
  | .damaged reason => (.error (.desync r.consumer reason), r)
  | .frame length =>
    let record := (loadBytes r.memory (r.consumer + 8) (payloadWords length)).take length
    (.ok (some record), r.release length)

/-- Whether the reader has something to look at: a record, or damage to report. -/
def hasCommitted (r : Ring) : Bool :=
  r.consumer != r.producer && r.memory.load r.consumer != 0

/-- Store a word without framing it, as a faulty writer would. -/
def overwrite (position value : UInt64) (r : Ring) : Ring :=
  { r with memory := r.memory.store position value }

/-- A frame's header is not zero. -/
theorem load_ne_zero_of_head {r : Ring} {length : Nat} (h : r.head = .frame length) :
    r.memory.load r.consumer ≠ 0 := by
  intro hzero
  simp [head, hzero] at h

/-- Releasing a frame leaves fewer nonzero words. -/
theorem used_release_lt {r : Ring} {length : Nat} (h : r.head = .frame length) :
    (r.release length).memory.used < r.memory.used := by
  have hcleared := Memory.used_clear_le (payloadWords length) (r.consumer + 8) r.memory
  by_cases hload : (Memory.clear (payloadWords length) (r.consumer + 8) r.memory).load r.consumer = 0
  · have hlt : (Memory.clear (payloadWords length) (r.consumer + 8) r.memory).used <
        r.memory.used :=
      Memory.used_clear_lt _ _ _ (load_ne_zero_of_head h) hload
    exact Nat.lt_of_le_of_lt (Memory.used_store_zero_le _ _) hlt
  · exact Nat.lt_of_lt_of_le (Memory.used_store_zero_lt _ _ hload) hcleared

/-- Taking a record leaves fewer nonzero words. -/
theorem used_next_lt {r rest : Ring} {record : Bytes} (h : r.next = (.ok (some record), rest)) :
    rest.memory.used < r.memory.used := by
  unfold next at h
  split at h
  · simp at h
  · simp at h
  · rename_i length hhead
    simp only [Prod.mk.injEq] at h
    rw [← h.2]
    exact used_release_lt hhead

end Ring

end NetnsWatch
