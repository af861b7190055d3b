import NetnsWatch.Proofs.Ring.Integrity

/-!
# What passes through a ring

A writer books a stretch of the ring, and the reader delivers records. Both are counted along a row
of operations, so that what is in the ring can be said in terms of what went in and what came out.
The producer moves by exactly the room that is booked.
-/

namespace NetnsWatch.Ring

/-- A stretch of the ring that a writer has booked: the committed frame of a record, or space for a
record of a given length that is not committed. -/
inductive Booking where
  | committed (record : Bytes)
  | reserved (length : Nat)
  deriving DecidableEq

namespace Booking

/-- The length of the record that a stretch is for. -/
def length : Booking → Nat
  | committed record => record.length
  | reserved length => length

/-- The words of a stretch: reserved space is found zero. -/
def words : Booking → List UInt64
  | committed record => frame record
  | reserved length => List.replicate (1 + payloadWords length) 0

/-- The bytes that a stretch takes: a word for its header, and its length rounded up to words. -/
def room (booking : Booking) : Nat :=
  8 + (booking.length + 7) / 8 * 8

/-- A stretch takes eight bytes for each of its words. -/
theorem room_eq (booking : Booking) : booking.room = 8 * booking.words.length := by
  cases booking <;>
    simp only [room, words, length, length_frame, List.length_replicate, payloadWords] <;>
    omega

end Booking

/-- What an operation books. -/
def Operation.books : Operation → Ring → List Booking
  | submit record, r => if (r.submit record).1 = .accepted then [.committed record] else []
  | reserve length, r => if (r.reserve length).isSome then [.reserved length] else []
  | next, _ => []
  | overwrite .., _ => []

/-- What an operation delivers. -/
def Operation.delivers : Operation → Ring → List Bytes
  | next, r =>
    match r.next.1 with
    | .ok (some record) => [record]
    | .ok none | .error _ => []
  | submit _, _ => []
  | reserve _, _ => []
  | overwrite .., _ => []

/-- What some operations book, in order. -/
def booked : List Operation → Ring → List Booking
  | [], _ => []
  | operation :: later, r => operation.books r ++ booked later (operation.apply r)

/-- What some operations deliver, in order. -/
def delivered : List Operation → Ring → List Bytes
  | [], _ => []
  | operation :: later, r => operation.delivers r ++ delivered later (operation.apply r)

/-- None of these operations is a stray store. -/
def Clean (operations : List Operation) : Prop :=
  ∀ operation ∈ operations, ∀ position value, operation ≠ .overwrite position value

section

variable {r : Ring}

/-- A producer that stays low does so in each of two rows of operations. -/
theorem staysLow_append {earlier later : List Operation} (h : StaysLow (earlier ++ later) r) :
    StaysLow earlier r ∧ StaysLow later (operate earlier r) := by
  induction earlier generalizing r with
  | nil =>
    refine ⟨fun i hi => ?_, h⟩
    rw [List.take_nil]
    exact h 0 (Nat.zero_le _)
  | cons operation earlier ih =>
    obtain ⟨hnow, hthen⟩ := (staysLow_cons operation (earlier ++ later) r).mp h
    obtain ⟨hearlier, hlater⟩ := ih hthen
    exact ⟨(staysLow_cons operation earlier r).mpr ⟨hnow, hearlier⟩, hlater⟩

/-- A submission is accepted exactly when its frame fits. -/
theorem submit_accepted_iff (r : Ring) (record : Bytes) :
    (r.submit record).1 = .accepted ↔ r.Fits record.length := by
  obtain ⟨hfull, hnone⟩ | ⟨hfits, hsome⟩ := r.reserve_cases record.length
  · simp [submit, hnone, hfull]
  · simp [submit, hsome, hfits]

/-- A reservation succeeds exactly when its frame fits. -/
theorem isSome_reserve_iff (r : Ring) (length : Nat) :
    (r.reserve length).isSome = true ↔ r.Fits length := by
  obtain ⟨hfull, hnone⟩ | ⟨hfits, hsome⟩ := r.reserve_cases length
  · simp [hnone, hfull]
  · simp [hsome, hfits]

/-- A frame that fits moves the producer by its room. -/
theorem Fits.producer_eq {length : Nat} (h : r.Fits length) (hhalf : r.producer.toNat < half) :
    (r.producer + frameSize length).toNat = r.producer.toNat + (8 + (length + 7) / 8 * 8) := by
  rw [(h.producer_le hhalf).1, payloadWords]
  omega

/-- An operation moves the producer by the room that it books. -/
theorem producer_apply (hhalf : r.producer.toNat < half) (operation : Operation) :
    (operation.apply r).producer.toNat =
      r.producer.toNat + ((operation.books r).map Booking.room).sum := by
  cases operation with
  | submit record =>
    obtain ⟨-, hnone⟩ | ⟨hfits, hsome⟩ := r.reserve_cases record.length
    · simp [Operation.apply, Operation.books, submit, hnone]
    · simp [Operation.apply, Operation.books, submit, hsome, hfits.producer_eq hhalf, Booking.room,
        Booking.length]
  | reserve length =>
    obtain ⟨-, hnone⟩ | ⟨hfits, hsome⟩ := r.reserve_cases length
    · simp [Operation.apply, Operation.books, hnone]
    · simp [Operation.apply, Operation.books, hsome, hfits.producer_eq hhalf, Booking.room,
        Booking.length]
  | next => exact congrArg UInt64.toNat r.producer_next
  | overwrite position value => rfl

/-- Operations move the producer by the room that they book. -/
theorem producer_operate (operations : List Operation) (hlow : StaysLow operations r) :
    (operate operations r).producer.toNat =
      r.producer.toNat + ((booked operations r).map Booking.room).sum := by
  induction operations generalizing r with
  | nil => rfl
  | cons operation later ih =>
    obtain ⟨hhalf, hlater⟩ := (staysLow_cons operation later r).mp hlow
    rw [operate, ih hlater, producer_apply hhalf, booked, List.map_append, List.sum_append,
      Nat.add_assoc]

end

/-- A memory of four cleared words, which has room for two of the smallest frames. -/
def fourWords : Memory where
  capacity := 32
  words := #[0, 0, 0, 0]
  capacity_pow := ⟨5, rfl⟩
  le_capacity := by decide
  size_words := rfl

end NetnsWatch.Ring
