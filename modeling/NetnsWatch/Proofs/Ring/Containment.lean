import NetnsWatch.Proofs.Ring.Fifo
import NetnsWatch.Proofs.Ring.Stray

/-!
# A stray store does not spread

Two runs are compared that make the same calls, one of them on a ring into which a faulty writer has
stored a word. As long as no header of a queued record is hit, the two rings are the same but for
that word, and they become the same for good as soon as the word is written over or cleared. So a word
in free space is never noticed, and one in the bytes of a record changes that record alone.
-/

namespace NetnsWatch.Ring

open Memory

/-- The position names a word in the frame of a queued record, behind the records `older`: the word
of index zero is the header, and the others hold the bytes. -/
structure FrameWord (r : Ring) (queue : List Bytes) (position : UInt64) (older : List Bytes)
    (record : Bytes) (i : Nat) : Prop where
  queued : older ++ [record] <+: queue
  le_words : i ≤ payloadWords record.length
  slot_eq : r.memory.slot (behind r.consumer older + 8 * UInt64.ofNat i) = r.memory.slot position

/-- The answers with another record as that of one read; the reads are counted from zero. -/
def redeliver (record : Bytes) : Nat → List Answer → List Answer
  | _, [] => []
  | n, .submitted submission :: answers => .submitted submission :: redeliver record n answers
  | 0, .taken _ :: answers => .taken (.ok (some record)) :: answers
  | n + 1, .taken result :: answers => .taken result :: redeliver record n answers

/-- The producer is below half of the positions before the first of some calls and after each. -/
def StaysBelow (sequence : List Call) (r : Ring) : Prop :=
  ∀ i, i ≤ sequence.length → (calls (sequence.take i) r).2.producer.toNat < half

/-- Whether the producer stays below can be computed. -/
instance (sequence : List Call) (r : Ring) : Decidable (StaysBelow sequence r) :=
  inferInstanceAs (Decidable (∀ i, i ≤ sequence.length → _))

/-- The reader has met no damage. -/
def Undamaged (answers : List Answer) : Prop :=
  ∀ fault, .taken (.error fault) ∉ answers

/-- The records that some calls on a fresh ring leave queued. -/
def queued (capacity : UInt64) (earlier : List Call) : List Bytes :=
  (callsFifo earlier (Fifo.empty capacity.toNat)).2.records

/-- What a stray store comes to in the later calls: nothing if it hits no frame, and otherwise other
bytes in one word of one record. -/
structure Contained (r : Ring) (queue : List Bytes) (position value : UInt64)
    (later : List Call) : Prop where
  undamaged : Undamaged (calls later (r.overwrite position value)).1
  dropped_eq : (calls later (r.overwrite position value)).2.dropped = (calls later r).2.dropped
  of_free : (∀ older record i, ¬ FrameWord r queue position older record i) →
    (calls later (r.overwrite position value)).1 = (calls later r).1
  of_frameWord : ∀ older record i, FrameWord r queue position older record (i + 1) →
    (calls later (r.overwrite position value)).1 =
        redeliver (withWord i value record) older.length (calls later r).1 ∧
      redeliver record older.length (calls later r).1 = (calls later r).1 ∧
      (withWord i value record).length = record.length ∧
      ∀ j, j / 8 ≠ i → (withWord i value record)[j]? = record[j]?

/-- The positions are exact on the way of some calls. -/
def RangeOn (sequence : List Call) (r : Ring) : Prop :=
  ∀ i, i < sequence.length → InRange (calls (sequence.take i) r).2

/-- Calls that begin with a submission. -/
theorem calls_submit (record : Bytes) (later : List Call) (r : Ring) :
    calls (.submit record :: later) r =
      (.submitted (r.submit record).1 :: (calls later (r.submit record).2).1,
        (calls later (r.submit record).2).2) := rfl

/-- Calls that begin with a read. -/
theorem calls_next (later : List Call) (r : Ring) :
    calls (.next :: later) r =
      (.taken r.next.1 :: (calls later r.next.2).1, (calls later r.next.2).2) := rfl

section Runs

variable {r : Ring} {queue older newer : List Bytes} {record : Bytes} {position value : UInt64}
  {i : Nat} {later : List Call}

/-- Calls made one row after another. -/
theorem calls_append (earlier later : List Call) (r : Ring) :
    (calls (earlier ++ later) r).2 = (calls later (calls earlier r).2).2 := by
  induction earlier generalizing r with
  | nil => rfl
  | cons call earlier ih =>
    cases call with
    | submit record => exact ih (r.submit record).2
    | next => exact ih r.next.2

/-- A producer that stays below keeps the positions exact, before a stop on the way and after it. -/
theorem StaysBelow.rangeOn {earlier : List Call} (h : StaysBelow (earlier ++ later) r) :
    RangeOn earlier r ∧ RangeOn later (calls earlier r).2 := by
  constructor
  · intro i hi
    have hbelow := h i (by rw [List.length_append]; omega)
    rw [List.take_append_of_le_length (by omega)] at hbelow
    exact inRange_of_lt_half hbelow
  · intro i hi
    have hbelow := h (earlier.length + i) (by rw [List.length_append]; omega)
    rw [List.take_length_add_append, calls_append] at hbelow
    exact inRange_of_lt_half hbelow

/-- The positions are exact on the way of a first submission's later calls. -/
theorem RangeOn.submit (h : RangeOn (.submit record :: later) r) :
    InRange r ∧ RangeOn later (r.submit record).2 :=
  ⟨h 0 (Nat.zero_lt_succ _), fun i hi => h (i + 1) (Nat.succ_lt_succ hi)⟩

/-- The positions are exact on the way of a first read's later calls. -/
theorem RangeOn.next (h : RangeOn (.next :: later) r) : InRange r ∧ RangeOn later r.next.2 :=
  ⟨h 0 (Nat.zero_lt_succ _), fun i hi => h (i + 1) (Nat.succ_lt_succ hi)⟩

/-- While the positions are exact, a whole lap from the consumer on is. -/
theorem Holds.lap_le (h : Holds r queue) (hrange : InRange r) :
    r.consumer.toNat + 8 * r.memory.words.size ≤ UInt64.size := by
  have hproducer := h.producer_eq
  have hcapacity := r.memory.capacity_eq
  unfold InRange at hrange
  omega

/-- The frames of all queued records end at the producer. -/
theorem Holds.behind_eq_producer (h : Holds r queue) : behind r.consumer queue = r.producer := by
  have hproducer := h.producer_eq
  have hlt := r.producer.toNat_lt
  have hsize : UInt64.size = 18446744073709551616 := rfl
  apply UInt64.toNat_inj.mp
  rw [behind_eq, toNat_add_eight_mul (show _ < UInt64.size by omega), hproducer]

/-- A word of a frame lies within the frames of all queued records. -/
theorem FrameWord.lt (h : FrameWord r queue position older record i) :
    (layout older).length + i < (layout queue).length := by
  obtain ⟨newer, rfl⟩ := h.queued
  have hle := h.le_words
  have hlayout : (layout (older ++ [record] ++ newer)).length =
      (layout older).length + (1 + payloadWords record.length) + (layout newer).length := by
    rw [layout, List.flatMap_append, List.length_append, ← layout, ← layout,
      layout_append_singleton, List.length_append, length_frame]
  omega

/-- A word of a frame is none of the words of another stretch of the same lap. -/
theorem FrameWord.not_covers (h : FrameWord r queue position older record i)
    (hholds : Holds r queue) (hrange : InRange r) (first count : Nat)
    (hlap : first + count ≤ r.memory.words.size)
    (hother : (layout older).length + i < first ∨ first + count ≤ (layout older).length + i) :
    ¬ r.memory.Covers (r.consumer + 8 * UInt64.ofNat first) count position := by
  rintro ⟨j, hj, hslot⟩
  have hlt := h.lt
  have hfull := hholds.length_layout_le
  rw [← h.slot_eq, behind_eq, add_eight_mul_add, add_eight_mul_add] at hslot
  exact slot_add_ne _ hholds.aligned (by omega) (by omega) (by omega) (hholds.lap_le hrange) hslot

/-- The words of a frame are the same after the reader has taken the record in front. -/
theorem frameWord_release_iff (first : Bytes) :
    FrameWord (r.release first.length) queue position older record i ↔
      FrameWord r (first :: queue) position (first :: older) record i := by
  have hslot : ∀ p, (r.release first.length).memory.slot p = r.memory.slot p := by
    intro p
    rw [release, slot_store, clear_eq_storeAll, slot_storeAll]
  constructor
  · intro h
    refine ⟨?_, h.le_words, ?_⟩
    · exact (List.prefix_cons_inj first).mpr h.queued
    · rw [← hslot, ← hslot]
      exact h.slot_eq
  · intro h
    refine ⟨(List.prefix_cons_inj first).mp h.queued, h.le_words, ?_⟩
    rw [hslot, hslot]
    exact h.slot_eq

/-- What a ring holds after a submission. -/
theorem Holds.submit (h : Holds r queue) (hrange : InRange r) (record : Bytes) :
    ¬ r.Fits record.length ∧ Holds (r.submit record).2 queue ∨
      r.Fits record.length ∧ Holds (r.submit record).2 (queue ++ [record]) := by
  by_cases hroom : HasRoom r queue record.length
  · obtain ⟨-, hholds, -⟩ := submit_of_hasRoom h hrange hroom
    exact Or.inr ⟨(h.fits_iff hrange _).mpr hroom, hholds⟩
  · rw [submit_of_not_hasRoom h hrange hroom]
    exact Or.inl ⟨mt (h.fits_iff hrange _).mp hroom, h.withDropped _⟩

/-- A submission leaves the words of the queued frames where they are. -/
theorem frameWord_submit_iff (submitted : Bytes) :
    FrameWord (r.submit submitted).2 queue position older record i ↔
      FrameWord r queue position older record i := by
  have hplaces : (r.submit submitted).2.consumer = r.consumer ∧
      ∀ p, (r.submit submitted).2.memory.slot p = r.memory.slot p := by
    obtain ⟨-, hreserve⟩ | ⟨-, hreserve⟩ := r.reserve_cases submitted.length
    · simp only [Ring.submit, hreserve, implies_true, and_self]
    · simp only [Ring.submit, hreserve, storeBytes_eq_storeAll, slot_store, slot_storeAll,
        implies_true, and_self]
  constructor
  · intro h
    have hslot := h.slot_eq
    rw [hplaces.1, hplaces.2, hplaces.2] at hslot
    exact ⟨h.queued, h.le_words, hslot⟩
  · intro h
    refine ⟨h.queued, h.le_words, ?_⟩
    rw [hplaces.1, hplaces.2, hplaces.2]
    exact h.slot_eq

/-- A word of a frame is one of the new frame, or of a frame that was there before it. -/
theorem FrameWord.of_append {submitted : Bytes}
    (h : FrameWord r (queue ++ [submitted]) position older record i) :
    older = queue ∧ record = submitted ∨ FrameWord r queue position older record i := by
  obtain hlast | hbefore := List.prefix_concat_iff.mp h.queued
  · exact Or.inl (List.append_singleton_inj.mp hlast)
  · exact Or.inr ⟨hbefore, h.le_words, h.slot_eq⟩

/-- A stray word in free space is in the place of no frame of the record that is stored elsewhere. -/
theorem not_frameWord_append (h : Holds r queue) {submitted : Bytes}
    (hfree : ∀ older record i, ¬ FrameWord r queue position older record i)
    (hcovers : ¬ r.memory.Covers r.producer (payloadWords submitted.length + 1) position) :
    ∀ older record i, ¬ FrameWord r (queue ++ [submitted]) position older record i := by
  intro older record i hframe
  obtain ⟨rfl, rfl⟩ | hbefore := hframe.of_append
  · have hslot := hframe.slot_eq
    rw [h.behind_eq_producer] at hslot
    exact hcovers ⟨i, Nat.lt_succ_of_le hframe.le_words, hslot⟩
  · exact hfree older record i hbefore

/-- A word of a queued frame is not one of the words that the next record is stored into. -/
theorem FrameWord.not_covers_producer (h : FrameWord r queue position older record i)
    (hholds : Holds r queue) (hrange : InRange r) {submitted : Bytes}
    (hfits : r.Fits submitted.length) :
    ¬ r.memory.Covers r.producer (payloadWords submitted.length + 1) position := by
  obtain ⟨-, -, hroom⟩ := (hholds.fits_iff hrange _).mp hfits
  have hcapacity := r.memory.capacity_eq
  rw [← hholds.behind_eq_producer, behind_eq]
  exact h.not_covers hholds hrange _ _ (by omega) (Or.inl h.lt)

/-- A stray word in free space is never noticed: the later calls are answered as without it. -/
theorem calls_overwrite_of_free (value : UInt64) (h : Holds r queue)
    (hrange : RangeOn later r) (hfree : ∀ older record i, ¬ FrameWord r queue position older record i) :
    (calls later (r.overwrite position value)).1 = (calls later r).1 ∧
      (calls later (r.overwrite position value)).2.dropped = (calls later r).2.dropped := by
  induction later generalizing r queue with
  | nil => exact ⟨rfl, rfl⟩
  | cons call later ih =>
    cases call with
    | submit record =>
      obtain ⟨hnow, hlater⟩ := hrange.submit
      rw [calls_submit, calls_submit]
      by_cases hcovers : r.Fits record.length ∧
          r.memory.Covers r.producer (payloadWords record.length + 1) position
      · -- The record is stored over the word: from here on the two runs are one.
        rw [submit_overwrite_of_covers hcovers.1 hcovers.2]
        exact ⟨rfl, rfl⟩
      · have helsewhere := not_and.mp hcovers
        rw [submit_overwrite_of_not_covers helsewhere]
        obtain ⟨-, hholds⟩ | ⟨hfits, hholds⟩ := h.submit hnow record
        · obtain ⟨hanswers, hdropped⟩ := ih hholds hlater fun older other i hframe =>
            hfree older other i ((frameWord_submit_iff record).mp hframe)
          exact ⟨congrArg (_ :: ·) hanswers, hdropped⟩
        · have hstill := not_frameWord_append h hfree (helsewhere hfits)
          obtain ⟨hanswers, hdropped⟩ := ih hholds hlater fun older other i hframe =>
            hstill older other i ((frameWord_submit_iff record).mp hframe)
          exact ⟨congrArg (_ :: ·) hanswers, hdropped⟩
    | next =>
      obtain ⟨-, hlater⟩ := hrange.next
      rw [calls_next, calls_next]
      cases queue with
      | nil =>
        rw [next_of_holds_nil h] at hlater ⊢
        rw [next_overwrite_of_holds_nil h]
        obtain ⟨hanswers, hdropped⟩ := ih h hlater hfree
        exact ⟨congrArg (_ :: ·) hanswers, hdropped⟩
      | cons first queue =>
        have hfirst : ¬ r.memory.Covers r.consumer (payloadWords first.length + 1) position := by
          rintro ⟨i, hi, hslot⟩
          exact hfree [] first i ⟨List.prefix_append [first] queue, Nat.le_of_lt_succ hi, hslot⟩
        rw [next_of_holds_cons h] at hlater ⊢
        rw [next_overwrite_of_not_covers h hfirst]
        obtain ⟨hanswers, hdropped⟩ := ih (holds_release h) hlater fun older other i hframe =>
          hfree (first :: older) other i ((frameWord_release_iff first).mp hframe)
        exact ⟨congrArg (_ :: ·) hanswers, hdropped⟩

/-- A stray word among the bytes of a queued record changes that record alone, in the read that
takes it, and nothing of it remains after that. -/
theorem calls_overwrite_of_frameWord (value : UInt64) (h : Holds r queue)
    (hrange : RangeOn later r) (hframe : FrameWord r queue position older record (i + 1)) :
    (calls later (r.overwrite position value)).1 =
        redeliver (withWord i value record) older.length (calls later r).1 ∧
      redeliver record older.length (calls later r).1 = (calls later r).1 ∧
      (calls later (r.overwrite position value)).2.dropped = (calls later r).2.dropped := by
  induction later generalizing r queue older with
  | nil => exact ⟨rfl, rfl, rfl⟩
  | cons call later ih =>
    cases call with
    | submit submitted =>
      obtain ⟨hnow, hlater⟩ := hrange.submit
      have hcovers : r.Fits submitted.length →
          ¬ r.memory.Covers r.producer (payloadWords submitted.length + 1) position :=
        hframe.not_covers_producer h hnow
      have hstays := (frameWord_submit_iff submitted).mpr hframe
      rw [calls_submit, calls_submit, submit_overwrite_of_not_covers hcovers]
      obtain ⟨-, hholds⟩ | ⟨-, hholds⟩ := h.submit hnow submitted
      · obtain ⟨hstruck, hclean, hdropped⟩ := ih hholds hlater hstays
        exact ⟨congrArg (_ :: ·) hstruck, congrArg (_ :: ·) hclean, hdropped⟩
      · have hqueued := hstays.queued.trans (List.prefix_append queue [submitted])
        obtain ⟨hstruck, hclean, hdropped⟩ :=
          ih hholds hlater ⟨hqueued, hstays.le_words, hstays.slot_eq⟩
        exact ⟨congrArg (_ :: ·) hstruck, congrArg (_ :: ·) hclean, hdropped⟩
    | next =>
      obtain ⟨hnow, hlater⟩ := hrange.next
      obtain ⟨newer, rfl⟩ := hframe.queued
      have hlap := h.lap_le hnow
      rw [calls_next, calls_next]
      cases older with
      | nil =>
        -- The record is the one taken: its words are cleared, and the two runs become one.
        rw [next_overwrite_of_word h hframe.le_words hframe.slot_eq hlap, next_of_holds_cons h]
        exact ⟨rfl, rfl, rfl⟩
      | cons first older =>
        have hfirst : ¬ r.memory.Covers r.consumer (payloadWords first.length + 1) position := by
          have hfull := h.length_layout_le
          have hother := hframe.not_covers h hnow 0 (payloadWords first.length + 1)
          rw [List.cons_append, List.cons_append, layout_cons, List.length_append,
            length_frame] at hfull
          rw [layout_cons, List.length_append, length_frame, add_eight_mul_zero] at hother
          exact hother (by omega) (Or.inr (by omega))
        rw [next_of_holds_cons h] at hlater ⊢
        rw [next_overwrite_of_not_covers h hfirst]
        obtain ⟨hstruck, hclean, hdropped⟩ :=
          ih (holds_release h) hlater ((frameWord_release_iff first).mpr hframe)
        exact ⟨congrArg (_ :: ·) hstruck, congrArg (_ :: ·) hclean, hdropped⟩

/-- The reader of a queue meets no damage. -/
theorem undamaged_callsFifo (sequence : List Call) (q : Fifo) :
    Undamaged (callsFifo sequence q).1 := by
  induction sequence generalizing q with
  | nil => exact fun fault hmem => absurd hmem List.not_mem_nil
  | cons call sequence ih =>
    intro fault hmem
    cases call with
    | submit record =>
      obtain hhead | hlater := List.mem_cons.mp hmem
      · cases hhead
      · exact ih _ fault hlater
    | next =>
      obtain hhead | hlater := List.mem_cons.mp hmem
      · cases hhead
      · exact ih _ fault hlater

/-- A record delivered in the place of another is no damage. -/
theorem Undamaged.redeliver {answers : List Answer} (h : Undamaged answers) (record : Bytes)
    (n : Nat) : Undamaged (redeliver record n answers) := by
  fun_induction Ring.redeliver record n answers with
  | case1 => exact h
  | case2 n submission answers ih =>
    intro fault hmem
    obtain hhead | hlater := List.mem_cons.mp hmem
    · cases hhead
    · exact ih (fun fault hmem => h fault (List.mem_cons_of_mem _ hmem)) fault hlater
  | case3 result answers =>
    intro fault hmem
    obtain hhead | hlater := List.mem_cons.mp hmem
    · cases hhead
    · exact h fault (List.mem_cons_of_mem _ hlater)
  | case4 n result answers ih =>
    intro fault hmem
    obtain hhead | hlater := List.mem_cons.mp hmem
    · exact h fault (hhead ▸ List.mem_cons_self)
    · exact ih (fun fault hmem => h fault (List.mem_cons_of_mem _ hmem)) fault hlater

end Runs

/-- A store that hits no header of a queued record, into a ring that was used from its two ends
alone, is contained in whatever calls come later. -/
theorem overwrite_contained {capacity : UInt64} {fresh : Ring}
    (hcreate : create capacity = .ok fresh) (earlier later : List Call)
    (hbelow : StaysBelow (earlier ++ later) fresh) (position value : UInt64)
    (hheader : ∀ older record,
      ¬ FrameWord (calls earlier fresh).2 (queued capacity earlier) position older record 0) :
    Contained (calls earlier fresh).2 (queued capacity earlier) position value later := by
  obtain ⟨hbefore, hafter⟩ := hbelow.rangeOn
  obtain ⟨hfresh, hcapacity, hdropped, -⟩ := holds_create hcreate
  have hmatches : Matches fresh (Fifo.empty capacity.toNat) :=
    ⟨congrArg UInt64.toNat hcapacity.symm, hfresh, hdropped⟩
  have hthen := (hmatches.perform earlier hbefore).2
  have hholds : Holds (calls earlier fresh).2 (queued capacity earlier) := hthen.holds
  have hclean : Undamaged (calls later (calls earlier fresh).2).1 := by
    rw [(hthen.perform later hafter).1]
    exact undamaged_callsFifo later _
  by_cases hfree : ∃ older record i,
      FrameWord (calls earlier fresh).2 (queued capacity earlier) position older record i
  · obtain ⟨older, record, i, hframe⟩ := hfree
    cases i with
    | zero => exact absurd hframe (hheader older record)
    | succ i =>
      obtain ⟨hanswers, -, hcount⟩ := calls_overwrite_of_frameWord value hholds hafter hframe
      refine ⟨?_, hcount, fun hnone => absurd hframe (hnone older record _), ?_⟩
      · rw [hanswers]
        exact hclean.redeliver _ _
      · intro older record i hframe
        obtain ⟨hanswers, hsame, -⟩ := calls_overwrite_of_frameWord value hholds hafter hframe
        exact ⟨hanswers, hsame, length_withWord i value record,
          fun j hj => getElem?_withWord_of_ne hj value record⟩
  · have hnone : ∀ older record i,
        ¬ FrameWord (calls earlier fresh).2 (queued capacity earlier) position older record i :=
      fun older record i hframe => hfree ⟨older, record, i, hframe⟩
    obtain ⟨hanswers, hcount⟩ := calls_overwrite_of_free value hholds hafter hnone
    refine ⟨?_, hcount, fun _ => hanswers, ?_⟩
    · rw [hanswers]
      exact hclean
    · intro older record i hframe
      exact absurd hframe (hnone older record (i + 1))

/-- A word stored over the bytes of the only record in the least ring: the record comes out with
the bytes of that word, and the ring is used as before. -/
theorem struck_record_contained :
    Contained (calls [.submit [1, 2, 3]] (ofMemory Memory.least)).2
        (queued 16 [.submit [1, 2, 3]]) 8 0x0605040302
        [.submit [4], .next, .submit [5, 6], .next] ∧
      FrameWord (calls [.submit [1, 2, 3]] (ofMemory Memory.least)).2
        (queued 16 [.submit [1, 2, 3]]) 8 [] [1, 2, 3] 1 ∧
      withWord 0 0x0605040302 [1, 2, 3] = [2, 3, 4] := by
  have hcreate : create 16 = .ok (ofMemory Memory.least) := rfl
  have hqueued : queued 16 [.submit [1, 2, 3]] = [[1, 2, 3]] := by decide +kernel
  refine ⟨overwrite_contained hcreate _ _ (by decide +kernel) 8 _ ?_, ⟨?_, ?_, ?_⟩, ?_⟩
  · intro older record hframe
    obtain ⟨hbeginning, -, hslot⟩ := hframe
    have hlength := hbeginning.length_le
    rw [hqueued, List.length_append, List.length_singleton, List.length_singleton] at hlength
    rw [List.length_eq_zero_iff.mp (Nat.le_zero.mp (Nat.le_of_succ_le_succ hlength))] at hslot
    revert hslot
    decide +kernel
  · rw [hqueued]
    exact List.prefix_refl _
  · decide
  · decide +kernel
  · decide +kernel

end NetnsWatch.Ring
