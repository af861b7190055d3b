import NetnsWatch.Proofs.Ring.Footprint
import NetnsWatch.Proofs.Ring.Frame

/-!
# What an operation does to a ring

Whatever words a ring holds, an operation on one of its ends moves one position by one frame and
touches the words of that frame alone, or it moves nothing. What it does is said here without
regard to what the words mean, so it also holds of a ring that a faulty writer has stored into.

All of this is about a producer below half of the positions there are. A frame is never larger than
the memory, so below that no sum of positions comes to the largest word.
-/

namespace NetnsWatch.Ring

open LittleEndian Memory

/-- Half of the positions there are; below it, no sum of a position and a frame wraps. -/
def half : Nat := 9223372036854775808

/-- A frame of this length may be reserved: the length is permitted, and there is room. -/
structure Fits (r : Ring) (length : Nat) : Prop where
  pos : 1 ≤ length
  le_max : length ≤ maxLength
  le_capacity : frameSize length ≤ r.memory.capacity
  le_limit : r.producer + frameSize length ≤ r.consumer + r.memory.capacity

/-- A reservation moves the producer by the frame if it fits, and fails otherwise. -/
theorem reserve_cases (r : Ring) (length : Nat) :
    ¬ r.Fits length ∧ r.reserve length = none ∨ r.Fits length ∧ r.reserve length =
      some (r.producer, { r with producer := r.producer + frameSize length }) := by
  unfold reserve
  by_cases hlength : length = 0 ∨ maxLength < length
  · have hnot : ¬ r.Fits length := fun hfits => by
      have hpos := hfits.pos
      have hmax := hfits.le_max
      omega
    exact Or.inl ⟨hnot, if_pos hlength⟩
  · by_cases hlarge : r.memory.capacity < frameSize length
    · have hnot : ¬ r.Fits length := fun hfits => UInt64.not_lt.mpr hfits.le_capacity hlarge
      simp only [if_neg hlength, if_pos hlarge, hnot, not_false_eq_true, true_and, true_or]
    · by_cases hfull : r.consumer + r.memory.capacity < r.producer + frameSize length
      · have hnot : ¬ r.Fits length := fun hfits => UInt64.not_lt.mpr hfits.le_limit hfull
        simp only [if_neg hlength, if_neg hlarge, if_pos hfull, hnot, not_false_eq_true, true_and,
          true_or]
      · have hfits : r.Fits length :=
          ⟨by omega, by omega, UInt64.not_lt.mp hlarge, UInt64.not_lt.mp hfull⟩
        simp only [if_neg hlength, if_neg hlarge, if_neg hfull, hfits, true_and, or_true]

/-- A frame that fits ends no further than one capacity behind the consumer. -/
theorem Fits.producer_le {r : Ring} {length : Nat} (h : r.Fits length)
    (hhalf : r.producer.toNat < half) :
    (r.producer + frameSize length).toNat = r.producer.toNat + 8 * (1 + payloadWords length) ∧
      r.producer.toNat + 8 * (1 + payloadWords length) ≤
        r.consumer.toNat + r.memory.capacity.toNat := by
  have hcapacity := r.memory.capacity_le
  have hframe := toNat_frameSize h.le_max
  have hsmall := UInt64.le_iff_toNat_le.mp h.le_capacity
  have hsum : (r.producer + frameSize length).toNat =
      r.producer.toNat + 8 * (1 + payloadWords length) := by
    rw [UInt64.toNat_add, hframe]
    unfold half at hhalf
    exact Nat.mod_eq_of_lt (by omega)
  have hlimit := UInt64.le_iff_toNat_le.mp h.le_limit
  have hwrapped : (r.consumer + r.memory.capacity).toNat ≤
      r.consumer.toNat + r.memory.capacity.toNat := by
    rw [UInt64.toNat_add]
    exact Nat.mod_le _ _
  exact ⟨hsum, by omega⟩

/-- What a submission does: a record whose frame does not fit is counted, and for any other the
producer moves by its frame, whose words alone are written. -/
inductive Submits (r : Ring) (record : Bytes) : Submission × Ring → Prop
  | dropped (hfull : ¬ r.Fits record.length) :
      Submits r record (.dropped, { r with dropped := r.dropped + 1 })
  | accepted {memory : Memory} {producer : UInt64} (hfits : r.Fits record.length)
      (hmoved : producer.toNat = r.producer.toNat + 8 * (1 + payloadWords record.length))
      (hroom : producer.toNat ≤ r.consumer.toNat + r.memory.capacity.toNat)
      (hmemory : AgreesOutside r.memory memory r.producer (1 + payloadWords record.length)) :
      Submits r record (.accepted, { r with memory, producer })

/-- A submission does one of the two. -/
theorem submits_submit {r : Ring} (hhalf : r.producer.toNat < half) (record : Bytes) :
    r.Submits record (r.submit record) := by
  rcases r.reserve_cases record.length with ⟨hfull, hnone⟩ | ⟨hfits, hsome⟩
  · rw [submit, hnone]
    exact .dropped hfull
  · obtain ⟨hmoved, hroom⟩ := hfits.producer_le hhalf
    have hmemory := agreesOutside_store_storeAll (header record.length) (payload record) r.producer
      r.memory
    rw [length_payload, Nat.add_comm] at hmemory
    rw [submit, hsome]
    simp only [storeBytes_eq_storeAll]
    exact .accepted hfits hmoved (hmoved ▸ hroom) hmemory

/-- What the reader does: if nothing is committed, it finds nothing and changes nothing. Otherwise it
reports damage and changes nothing, or takes a record of the length in the header, moves behind its
frame and clears the frame's words alone. -/
inductive Takes (r : Ring) : Except Fault (Option Bytes) × Ring → Prop
  | nothing (hready : r.hasCommitted = false) : Takes r (.ok none, r)
  | damage {reason : String} (hready : r.hasCommitted = true) :
      Takes r (.error (.desync r.consumer reason), r)
  | record {record : Bytes} {memory : Memory} {consumer : UInt64}
      (hready : r.hasCommitted = true)
      (hpos : 1 ≤ record.length)
      (hlength : record.length = (r.memory.load r.consumer).toNat % 4294967296)
      (hmoved : consumer.toNat = r.consumer.toNat + 8 * (1 + payloadWords record.length))
      (hbehind : consumer ≤ r.producer)
      (hmemory : AgreesOutside r.memory memory r.consumer (1 + payloadWords record.length))
      (hcleared : ∀ position, r.memory.Covers r.consumer (1 + payloadWords record.length) position →
        memory.load position = 0) :
      Takes r (.ok (some record), { r with memory, consumer })

/-- The length in a header is its low half. -/
theorem length_of_lengthOfHeader? {word : UInt64} {length : Nat}
    (h : lengthOfHeader? word = some length) :
    length = word.toNat % 4294967296 ∧ length ≤ maxLength := by
  unfold lengthOfHeader? at h
  split at h
  · cases h
    have hmask : lengthMask.toNat = 2 ^ 32 - 1 := rfl
    have hlow : (word &&& lengthMask).toNat = word.toNat % 4294967296 := by
      rw [UInt64.toNat_and, hmask, Nat.and_two_pow_sub_one_eq_mod]
    have hlt := Nat.mod_lt word.toNat (show 0 < 4294967296 by decide)
    exact ⟨hlow, by rw [hlow]; exact Nat.le_of_lt_succ hlt⟩
  · cases h

/-- The reader finds nothing exactly when nothing is committed. -/
theorem head_eq_none_iff (r : Ring) : r.head = .none ↔ r.hasCommitted = false := by
  have hcommitted : r.hasCommitted = false ↔
      r.consumer = r.producer ∨ r.memory.load r.consumer = 0 := by
    simp only [hasCommitted, Bool.and_eq_false_iff, bne_eq_false_iff_eq]
  rw [hcommitted]
  constructor
  · intro hhead
    simp only [head] at hhead
    split at hhead
    · assumption
    · split at hhead
      · cases hhead
      · split at hhead <;> cases hhead
  · intro hnothing
    rw [head, if_pos hnothing]

/-- What is known where the reader finds a frame. -/
theorem head_eq_frame {r : Ring} {length : Nat} (h : r.head = .frame length) :
    lengthOfHeader? (r.memory.load r.consumer) = some length ∧ 1 ≤ length ∧
      r.consumer + frameSize length ≤ r.producer := by
  simp only [head] at h
  split at h
  · cases h
  · split at h
    · cases h
    · rename_i hheader
      split at h
      · cases h
      · rename_i hwithin
        cases h
        obtain ⟨hpos, hbehind⟩ := not_or.mp hwithin
        exact ⟨hheader, Nat.one_le_iff_ne_zero.mpr hpos, UInt64.not_lt.mp hbehind⟩

/-- Every word loaded gives eight bytes. -/
theorem length_loadBytes (m : Memory) (position : UInt64) (count : Nat) :
    (loadBytes m position count).length = 8 * count := by
  rw [loadBytes]
  induction count with
  | zero => rfl
  | succ count ih =>
    rw [List.range_succ, List.flatMap_append, List.length_append, ih, List.flatMap_singleton,
      bytes64, bytes_length, Nat.mul_succ]

/-- The reader does one of the three. -/
theorem takes_next {r : Ring} (hle : r.consumer ≤ r.producer) (hhalf : r.producer.toNat < half) :
    r.Takes r.next := by
  have hready : r.head ≠ .none → r.hasCommitted = true := fun hhead =>
    Bool.eq_true_of_not_eq_false (mt r.head_eq_none_iff.mpr hhead)
  unfold next
  split
  · rename_i hhead
    exact .nothing (r.head_eq_none_iff.mp hhead)
  · rename_i reason hhead
    exact .damage (hready (by rw [hhead]; exact Head.noConfusion))
  · rename_i length hhead
    obtain ⟨hheader, hpos, hbehind⟩ := head_eq_frame hhead
    obtain ⟨hlow, hmax⟩ := length_of_lengthOfHeader? hheader
    have hlength : ((loadBytes r.memory (r.consumer + 8) (payloadWords length)).take length).length =
        length := by
      rw [List.length_take, length_loadBytes]
      unfold payloadWords
      omega
    have hmoved : (r.consumer + frameSize length).toNat =
        r.consumer.toNat + 8 * (1 + payloadWords length) := by
      have hconsumer := UInt64.le_iff_toNat_le.mp hle
      have hwords : payloadWords length ≤ 536870912 := by
        unfold payloadWords
        unfold maxLength at hmax
        omega
      rw [UInt64.toNat_add, toNat_frameSize hmax]
      unfold half at hhalf
      exact Nat.mod_eq_of_lt (by omega)
    have hmemory := agreesOutside_store_storeAll 0 (List.replicate (payloadWords length) 0)
      r.consumer r.memory
    rw [List.length_replicate, ← clear_eq_storeAll, Nat.add_comm] at hmemory
    refine .record (hready (by rw [hhead]; exact Head.noConfusion)) (hlength.symm ▸ hpos)
      (hlength.trans hlow) ?_ hbehind ?_ ?_
    · rw [hlength]
      exact hmoved
    · rw [hlength]
      exact hmemory
    · intro position hcovers
      rw [hlength, Nat.add_comm] at hcovers
      exact load_store_clear_of_covers hcovers

/-- A submission moves the producer by the room of the record at most. -/
theorem producer_submit_le (r : Ring) (record : Bytes) : (r.submit record).2.producer.toNat ≤
    r.producer.toNat + (frameSize record.length).toNat := by
  rcases r.reserve_cases record.length with ⟨-, hnone⟩ | ⟨-, hsome⟩
  · rw [submit, hnone]
    exact Nat.le_add_right _ _
  · rw [submit, hsome]
    change (r.producer + frameSize record.length).toNat ≤ _
    rw [UInt64.toNat_add]
    exact Nat.mod_le _ _

/-- A submission leaves the consumer where it is. -/
theorem consumer_submit (r : Ring) (record : Bytes) :
    (r.submit record).2.consumer = r.consumer := by
  rcases r.reserve_cases record.length with ⟨-, hnone⟩ | ⟨-, hsome⟩
  · rw [submit, hnone]
  · rw [submit, hsome]

/-- The reader leaves the producer where it is. -/
theorem producer_next (r : Ring) : r.next.2.producer = r.producer := by
  unfold next
  split <;> rfl

end NetnsWatch.Ring
