import NetnsWatch.Proofs.Ring.Contents
import NetnsWatch.Proofs.Ring.Operation

/-!
# What no fault can break

A faulty writer may store anything anywhere, and the ring may then deliver anything. What it cannot
do is to bring the positions out of order: they stay whole frames apart, the consumer never passes
the producer and the producer never comes more than one capacity ahead. No sum of positions wraps,
and every later operation still does one of the few things that it can do to an undamaged ring.
-/

namespace NetnsWatch.Ring

open Memory

/-- Anything that may happen to a ring: what its two ends do, a reservation that is left
uncommitted, or a stray store. -/
inductive Operation where
  | submit (record : Bytes)
  | reserve (length : Nat)
  | next
  | overwrite (position value : UInt64)

/-- The ring after an operation. -/
def Operation.apply : Operation → Ring → Ring
  | submit record, r => (r.submit record).2
  | reserve length, r => ((r.reserve length).map Prod.snd).getD r
  | next, r => r.next.2
  | overwrite position value, r => r.overwrite position value

/-- The ring after operations in order. -/
def operate : List Operation → Ring → Ring
  | [], r => r
  | operation :: later, r => operate later (operation.apply r)

/-- The producer is below half of the positions before the first of some operations and after each
of them. -/
def StaysLow (operations : List Operation) (r : Ring) : Prop :=
  ∀ i, i ≤ operations.length → (operate (operations.take i) r).producer.toNat < half

/-- Whether the producer stays low can be computed. -/
instance (operations : List Operation) (r : Ring) : Decidable (StaysLow operations r) :=
  inferInstanceAs (Decidable (∀ i, i ≤ operations.length → _))

/-- The positions of a ring of a given capacity are in order, a whole number of words apart, and not
more than the capacity. -/
structure Ordered (capacity : UInt64) (r : Ring) : Prop where
  capacity_eq : r.memory.capacity = capacity
  producer_aligned : 8 ∣ r.producer.toNat
  consumer_aligned : 8 ∣ r.consumer.toNat
  consumer_le : r.consumer ≤ r.producer
  producer_le : r.producer.toNat ≤ r.consumer.toNat + capacity.toNat

/-- No sum that an operation on the ring may form leaves 64 bits: the end of the space, the end of
a frame that may be reserved, and the end of a frame of any length that a header can hold.

The words of a frame lie before its end. -/
structure Exact (r : Ring) : Prop where
  limit : r.consumer.toNat + r.memory.capacity.toNat < UInt64.size
  reserved : ∀ length, length ≤ maxLength → frameSize length ≤ r.memory.capacity →
    r.producer.toNat + 8 * (1 + payloadWords length) < UInt64.size
  found : ∀ length, length ≤ maxLength →
    r.consumer.toNat + 8 * (1 + payloadWords length) < UInt64.size

section

variable {capacity : UInt64} {r : Ring}

/-- Below half of the positions, no sum leaves 64 bits. -/
theorem Ordered.exact (h : Ordered capacity r) (hhalf : r.producer.toNat < half) : Exact r := by
  have hcapacity := r.memory.capacity_le
  have hconsumer := UInt64.le_iff_toNat_le.mp h.consumer_le
  have hsize : UInt64.size = 18446744073709551616 := rfl
  unfold half at hhalf
  refine ⟨by omega, fun length hmax hframe => ?_, fun length hmax => ?_⟩
  · rw [UInt64.le_iff_toNat_le, toNat_frameSize hmax] at hframe
    omega
  · unfold maxLength at hmax
    unfold payloadWords
    omega

/-- Moving the producer by whole words, as far as there is room, leaves the positions in order. -/
theorem Ordered.moveProducer (h : Ordered capacity r) {memory : Memory} {producer : UInt64}
    {count : Nat} (hcapacity : memory.capacity = r.memory.capacity)
    (hmoved : producer.toNat = r.producer.toNat + 8 * count)
    (hroom : producer.toNat ≤ r.consumer.toNat + r.memory.capacity.toNat) :
    Ordered capacity { r with memory, producer } := by
  have hconsumer := UInt64.le_iff_toNat_le.mp h.consumer_le
  refine ⟨hcapacity.trans h.capacity_eq, ?_, h.consumer_aligned, ?_, ?_⟩
  · change 8 ∣ producer.toNat
    rw [hmoved]
    exact Nat.dvd_add h.producer_aligned (Nat.dvd_mul_right 8 count)
  · change r.consumer ≤ producer
    rw [UInt64.le_iff_toNat_le]
    omega
  · rw [← h.capacity_eq]
    exact hroom

/-- A submission leaves the positions in order. -/
theorem Submits.ordered {record : Bytes} {outcome : Submission × Ring}
    (hs : r.Submits record outcome) (h : Ordered capacity r) : Ordered capacity outcome.2 := by
  cases hs with
  | dropped => exact ⟨h.capacity_eq, h.producer_aligned, h.consumer_aligned, h.consumer_le,
      h.producer_le⟩
  | accepted _ hmoved hroom hmemory => exact h.moveProducer hmemory.capacity_eq hmoved hroom

/-- The reader leaves the positions in order. -/
theorem Takes.ordered {outcome : Except Fault (Option Bytes) × Ring} (hs : r.Takes outcome)
    (h : Ordered capacity r) : Ordered capacity outcome.2 := by
  cases hs with
  | nothing => exact h
  | damage => exact h
  | @record record memory consumer _ _ _ hmoved hbehind hmemory _ =>
    refine ⟨hmemory.capacity_eq.trans h.capacity_eq, h.producer_aligned, ?_, hbehind, ?_⟩
    · change 8 ∣ consumer.toNat
      rw [hmoved]
      exact Nat.dvd_add h.consumer_aligned (Nat.dvd_mul_right 8 _)
    · change r.producer.toNat ≤ consumer.toNat + capacity.toNat
      have hle := h.producer_le
      omega

/-- A reservation leaves the positions in order. -/
theorem Fits.ordered {length : Nat} (hfits : r.Fits length) (hhalf : r.producer.toNat < half)
    (h : Ordered capacity r) :
    Ordered capacity { r with producer := r.producer + frameSize length } := by
  obtain ⟨hmoved, hroom⟩ := hfits.producer_le hhalf
  exact h.moveProducer rfl hmoved (hmoved ▸ hroom)

/-- Whatever happens to a ring, its positions stay in order. -/
theorem Ordered.apply (h : Ordered capacity r) (hhalf : r.producer.toNat < half)
    (operation : Operation) : Ordered capacity (operation.apply r) := by
  cases operation with
  | submit record => exact (submits_submit hhalf record).ordered h
  | reserve length =>
    rw [Operation.apply]
    rcases r.reserve_cases length with ⟨-, hnone⟩ | ⟨hfits, hsome⟩
    · rw [hnone]
      exact h
    · rw [hsome]
      exact hfits.ordered hhalf h
  | next => exact (takes_next h.consumer_le hhalf).ordered h
  | overwrite position value =>
    exact ⟨h.capacity_eq, h.producer_aligned, h.consumer_aligned, h.consumer_le, h.producer_le⟩

/-- A producer that stays low is low now, and stays low after the first operation. -/
theorem staysLow_cons (operation : Operation) (later : List Operation) (r : Ring) :
    StaysLow (operation :: later) r ↔
      r.producer.toNat < half ∧ StaysLow later (operation.apply r) := by
  constructor
  · intro h
    exact ⟨h 0 (Nat.zero_le _), fun i hi => h (i + 1) (Nat.succ_le_succ hi)⟩
  · rintro ⟨hnow, hlater⟩ i hi
    cases i with
    | zero => exact hnow
    | succ i => exact hlater i (Nat.le_of_succ_le_succ hi)

/-- Positions in order stay in order, and low, under all operations. -/
theorem Ordered.operate (h : Ordered capacity r) (operations : List Operation)
    (hlow : StaysLow operations r) : Ordered capacity (operate operations r) ∧
      (operate operations r).producer.toNat < half := by
  induction operations generalizing r with
  | nil => exact ⟨h, hlow 0 (Nat.le_refl 0)⟩
  | cons operation later ih =>
    obtain ⟨hhalf, hlater⟩ := (staysLow_cons operation later r).mp hlow
    exact ih (h.apply hhalf operation) hlater

end

/-- The positions of a fresh ring are in order. -/
theorem ordered_create {capacity : UInt64} {r : Ring} (h : create capacity = .ok r) :
    Ordered capacity r := by
  obtain ⟨hholds, hcapacity, -, hproducer⟩ := holds_create h
  have hconsumer : r.consumer = r.producer := UInt64.toNat_inj.mp hholds.producer_eq.symm
  refine ⟨hcapacity, ?_, hholds.aligned, ?_, ?_⟩
  · rw [← hconsumer]
    exact hholds.aligned
  · rw [hconsumer]
    exact UInt64.le_refl _
  · rw [hconsumer]
    exact Nat.le_add_right _ _

/-- Whatever has happened to a ring, made for any capacity that it accepts: its positions are in
order, no sum of them leaves 64 bits, and a submission and the reader each do no more than one
frame asks for. -/
theorem integrity_operate {capacity : UInt64} {fresh : Ring} (hcreate : create capacity = .ok fresh)
    (operations : List Operation) (hlow : StaysLow operations fresh) :
    Ordered capacity (operate operations fresh) ∧ Exact (operate operations fresh) ∧
      (∀ record, (operate operations fresh).Submits record
        ((operate operations fresh).submit record)) ∧
      (operate operations fresh).Takes (operate operations fresh).next := by
  obtain ⟨hordered, hhalf⟩ := (ordered_create hcreate).operate operations hlow
  exact ⟨hordered, hordered.exact hhalf, submits_submit hhalf,
    takes_next hordered.consumer_le hhalf⟩

/-- A stray word in free space, which the next record fills again, and then a header forged to a
greater length. -/
def forgedLength : List Operation :=
  [.submit [1, 2, 3], .next, .overwrite 18446744073709551615 7, .submit [4],
    .overwrite 16 (header 5)]

/-- The reader of the least ring delivers five bytes where one was submitted, and the positions stay
in order. -/
theorem forgedLength_integrity :
    Ordered 16 (operate forgedLength (ofMemory Memory.least)) ∧
      (operate forgedLength (ofMemory Memory.least)).Takes
        (operate forgedLength (ofMemory Memory.least)).next ∧
      (operate forgedLength (ofMemory Memory.least)).next.1 = .ok (some [4, 0, 0, 0, 0]) := by
  have hcreate : create 16 = .ok (ofMemory Memory.least) := rfl
  obtain ⟨hordered, -, -, htakes⟩ :=
    integrity_operate hcreate forgedLength (by decide +kernel)
  exact ⟨hordered, htakes, by decide +kernel⟩

end NetnsWatch.Ring
