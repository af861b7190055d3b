import NetnsWatch.Proofs.Ring.Span

/-!
# What a ring holds

A ring holds a row of records when its words, seen from the consumer position, are their frames in
order and then zeros alone. A submission with room adds a frame at the end of the row, one without
room changes the count of drops alone, and the reader takes the first record and leaves the rest of
the row with its own space cleared. So space that is used again is always found zero.
-/

namespace NetnsWatch.Ring

open LittleEndian Memory

/-- Whether every position up to the end of the space in use is an exact number. -/
def InRange (r : Ring) : Prop :=
  r.producer.toNat + r.memory.capacity.toNat < UInt64.size

/-- Whether the positions are exact can be computed. -/
instance (r : Ring) : Decidable (InRange r) :=
  inferInstanceAs (Decidable (_ < _))

/-- A producer below half of the positions leaves them exact. -/
theorem inRange_of_lt_half {r : Ring} (h : r.producer.toNat < half) : InRange r := by
  have hcapacity := r.memory.capacity_le
  have hsize : UInt64.size = 18446744073709551616 := rfl
  unfold half at h
  unfold InRange
  omega

/-- The ring holds exactly these records, oldest first, and is cleared everywhere else. -/
structure Holds (r : Ring) (queue : List Bytes) : Prop where
  aligned : 8 ∣ r.consumer.toNat
  producer_eq : r.producer.toNat = r.consumer.toNat + 8 * (layout queue).length
  window_eq : r.memory.window (r.consumer.toNat / 8) =
    layout queue ++ List.replicate (r.memory.words.size - (layout queue).length) 0
  lengths : ∀ record ∈ queue, 1 ≤ record.length ∧ record.length ≤ maxLength

/-- A record has room beside a row of records. -/
def HasRoom (r : Ring) (queue : List Bytes) (length : Nat) : Prop :=
  1 ≤ length ∧ length ≤ maxLength ∧
    8 * (layout queue).length + 8 * (1 + payloadWords length) ≤ r.memory.capacity.toNat

/-- The count of drops plays no part in what a ring holds. -/
theorem Holds.withDropped {r : Ring} {queue : List Bytes} (h : Holds r queue) (dropped : UInt64) :
    Holds { r with dropped } queue :=
  ⟨h.aligned, h.producer_eq, h.window_eq, h.lengths⟩

/-- Between the positions of a ring stand the frames of what it holds. -/
theorem Holds.spans {r : Ring} {queue : List Bytes} (h : Holds r queue) : r.Spans (layout queue) :=
  ⟨h.aligned, h.producer_eq, h.window_eq⟩

/-- A ring between whose positions stand the frames of some records holds them. -/
theorem Spans.holds {r : Ring} {queue : List Bytes} (h : r.Spans (layout queue))
    (hlengths : ∀ record ∈ queue, 1 ≤ record.length ∧ record.length ≤ maxLength) : Holds r queue :=
  ⟨h.aligned, h.producer_eq, h.window_eq, hlengths⟩

/-- The frames of what a ring holds fit into its memory. -/
theorem Holds.length_layout_le {r : Ring} {queue : List Bytes} (h : Holds r queue) :
    (layout queue).length ≤ r.memory.words.size :=
  h.spans.length_le

/-- Where the positions meet, a ring holds no record. -/
theorem Holds.eq_nil_of_empty {r : Ring} {queue : List Bytes} (h : Holds r queue)
    (hempty : r.consumer = r.producer) : queue = [] := by
  cases queue with
  | nil => rfl
  | cons record queue =>
    have hproducer := h.producer_eq
    rw [hempty, layout_cons, List.length_append, length_frame] at hproducer
    omega

/-- A cleared memory holds no record. -/
theorem holds_ofMemory {m : Memory} (h : ∀ word ∈ m.words, word = 0) : Holds (ofMemory m) [] where
  aligned := ⟨0, rfl⟩
  producer_eq := rfl
  window_eq := by
    have hwords : m.words.toList = List.replicate m.words.size 0 := by
      rw [← Array.length_toList]
      exact List.eq_replicate_of_mem fun word hword => h word (Array.mem_toList_iff.mp hword)
    have hzero : (0 : UInt64).toNat / 8 = 0 := rfl
    rw [ofMemory, hzero, window, List.rotate_zero, hwords]
    rfl
  lengths := fun _ h => absurd h List.not_mem_nil

/-- A fresh ring holds no record. -/
theorem holds_create {capacity : UInt64} {r : Ring} (h : create capacity = .ok r) :
    Holds r [] ∧ r.memory.capacity = capacity ∧ r.dropped = 0 ∧ r.producer = 0 := by
  unfold create Memory.ofCapacity? at h
  split at h
  · rename_i m hm
    split at hm
    · cases hm
      cases h
      refine ⟨holds_ofMemory fun word hword => ?_, rfl, rfl, rfl⟩
      exact (Array.mem_replicate.mp hword).2
    · cases hm
  · cases h

/-- While the positions are exact, a record fits exactly when it has room. -/
theorem Holds.fits_iff {r : Ring} {queue : List Bytes} (h : Holds r queue) (hrange : InRange r)
    (length : Nat) : r.Fits length ↔ HasRoom r queue length :=
  h.spans.fits_iff hrange length

/-- A record without room changes the count of drops alone. -/
theorem submit_of_not_hasRoom {r : Ring} {queue : List Bytes} (h : Holds r queue)
    (hrange : InRange r) {record : Bytes} (hroom : ¬ HasRoom r queue record.length) :
    r.submit record = (.dropped, { r with dropped := r.dropped + 1 }) := by
  obtain ⟨-, hreserve⟩ | ⟨hfits, -⟩ := r.reserve_cases record.length
  · rw [submit, hreserve]
  · exact absurd ((h.fits_iff hrange _).mp hfits) hroom

/-- A record with room becomes the last one that the ring holds. -/
theorem submit_of_hasRoom {r : Ring} {queue : List Bytes} (h : Holds r queue) (hrange : InRange r)
    {record : Bytes} (hroom : HasRoom r queue record.length) :
    (r.submit record).1 = .accepted ∧ Holds (r.submit record).2 (queue ++ [record]) ∧
      (r.submit record).2.dropped = r.dropped ∧
      (r.submit record).2.memory.capacity = r.memory.capacity := by
  have hspans := h.spans.submitted hrange hroom
  have hsubmit := h.spans.submit_eq hrange hroom
  rw [← layout_append_singleton] at hspans
  refine ⟨by rw [hsubmit], hspans.holds ?_, by rw [hsubmit], ?_⟩
  · intro other hother
    rcases List.mem_append.mp hother with hold | hnew
    · exact h.lengths other hold
    · rw [List.mem_singleton.mp hnew]
      exact ⟨hroom.1, hroom.2.1⟩
  · rw [hsubmit, capacity_store, capacity_storeAll]

/-- An empty ring has nothing to take. -/
theorem next_of_holds_nil {r : Ring} (h : Holds r []) : r.next = (.ok none, r) := by
  rw [next, h.spans.head_nil]

section First

variable {r : Ring} {record : Bytes} {queue : List Bytes} (h : Holds r (record :: queue))

include h

/-- The first frame comes first between the positions, and its record has a permitted length. -/
theorem Holds.spans_cons : r.Spans (frame record ++ layout queue) ∧ 1 ≤ record.length ∧
    record.length ≤ maxLength := by
  rw [← layout_cons]
  exact ⟨h.spans, h.lengths record List.mem_cons_self⟩

/-- The reader finds the first record that the ring holds. -/
theorem head_of_holds_cons : r.head = .frame record.length := by
  obtain ⟨hspans, hpos, hmax⟩ := h.spans_cons
  exact hspans.head_frame hpos hmax

/-- The bytes behind the first header are those of the first record. -/
theorem loadBytes_of_holds_cons :
    (loadBytes r.memory (r.consumer + 8) (payloadWords record.length)).take record.length =
      record := by
  obtain ⟨hspans, -, hmax⟩ := h.spans_cons
  exact hspans.loadBytes_frame hmax

/-- Releasing the first record leaves the others, and its own words cleared. -/
theorem holds_release : Holds (r.release record.length) queue := by
  obtain ⟨hspans, -, hmax⟩ := h.spans_cons
  exact (hspans.released hmax).holds fun other hother =>
    h.lengths other (List.mem_cons_of_mem _ hother)

/-- The reader takes the first record that the ring holds, byte for byte. -/
theorem next_of_holds_cons : r.next = (.ok (some record), r.release record.length) := by
  obtain ⟨hspans, hpos, hmax⟩ := h.spans_cons
  exact hspans.next_frame hpos hmax

end First

/-- Releasing a frame keeps the capacity. -/
@[simp] theorem capacity_release (length : Nat) (r : Ring) :
    (r.release length).memory.capacity = r.memory.capacity := by
  rw [release, capacity_store, clear_eq_storeAll, capacity_storeAll]

end NetnsWatch.Ring
